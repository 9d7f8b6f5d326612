import MessageBus.Proofs.Connection.OpenPlays
import MessageBus.Proofs.Handshake.Discipline

/-! # How a participant comes to its keys

    A participant with a configured key takes the keys in it, or fails.  Without
    one it makes attempts: each takes the keys of the connection away, requests
    keys and asks a person for them.  An attempt ends the handshake if it fails,
    if keys are trusted, or if they are confirmed before the wait for that runs
    out.  Otherwise another attempt follows.

    What a connection is asked for and which result there is depends only on
    what the person answers and on which attempts are confirmed.

    * `course_of_play`, `Course.play`: the plays of the program are the courses
      of attempts.
    * `keys_established`: the handshake along every run on an open connection,
      and for every course of attempts a run. -/

namespace MessageBus.Handshake

open Program

/-! ## Attempts -/

/-- The envelopes that come in a test: the confirmation is the last of them, or none of them is
one. -/
def Decides (id : String) (confirmed : Bool) (es : List Envelope) : Prop :=
  if confirmed then
    ∃ before e, es = before ++ [e] ∧ e.message = .ok (.authValid id) ∧
      ∀ b ∈ before, b.message ≠ .ok (.authValid id)
  else ∀ e ∈ es, e.message ≠ .ok (.authValid id)

/-- The replies in a test. -/
def testReplies (confirmed : Bool) (es : List Envelope) : List Reply :=
  .queued :: es.map .heard ++ if confirmed then [] else [.expired]

/-- An attempt to get keys: what the person answers, and whether the keys in the answer are
confirmed in time. -/
structure Attempt where
  answer : BusResult String
  confirmed : Bool

namespace Attempt

/-- The keys in the answer, if there are any. -/
def keys? (a : Attempt) : Option KeySet :=
  match a.answer with
  | .error _ => none
  | .ok text => (KeySet.parse (Text.trim text)).toOption

/-- The keys of the connection after the attempt. -/
def keys (a : Attempt) : KeySet := a.keys?.getD .empty

/-- Whether keys are tested: only those that are not trusted anyway. -/
def isTested (trust : Bool) (a : Attempt) : Bool := a.keys?.isSome && !trust

/-- The result of the handshake, if the attempt ends it. -/
def result? (trust : Bool) (a : Attempt) : Option (BusResult Unit) :=
  match a.answer, a.keys? with
  | .error e, _ => some (.error e)
  | .ok _, none => some (.error .invalidKey)
  | .ok _, some _ => if trust || a.confirmed then some (.ok ()) else none

/-- What the connection is asked for once there is an answer. -/
def trialCalls (trust : Bool) (a : Attempt) : List Call :=
  a.keys?.toList.map .rekey ++
    if a.isTested trust then [.send Message.testAuth.toFields] else []

/-- What the connection is asked for in the attempt. -/
def calls (trust : Bool) (a : Attempt) : List Call :=
  .rekey .empty :: .send Message.requestAuth.toFields :: a.trialCalls trust

/-- The envelopes that are heard in the attempt. -/
def Hears (id : String) (trust : Bool) (a : Attempt) (es : List Envelope) : Prop :=
  if a.isTested trust then Decides id a.confirmed es else es = []

/-- The replies once there is an answer. -/
def trialReplies (trust : Bool) (a : Attempt) (es : List Envelope) : List Reply :=
  a.keys?.toList.map (fun _ => .rekeyed) ++
    if a.isTested trust then testReplies a.confirmed es else []

/-- The replies in the attempt. -/
def replies (trust : Bool) (a : Attempt) (es : List Envelope) : List Reply :=
  .rekeyed :: .queued :: .rested :: .entered a.answer :: a.trialReplies trust es

end Attempt

/-- A course of attempts with what is heard in each, the replies and calls, and the result. -/
inductive Course (id : String) (trust : Bool) :
    List Attempt → List (List Envelope) → List Reply → List Call → BusResult Unit → Prop where
  | last {a : Attempt} {es : List Envelope} {r : BusResult Unit} :
      a.result? trust = some r → a.Hears id trust es →
      Course id trust [a] [es] (a.replies trust es) (a.calls trust) r
  | again {a : Attempt} {es : List Envelope} {as : List Attempt} {ess : List (List Envelope)}
      {replies : List Reply} {calls : List Call} {r : BusResult Unit} :
      a.result? trust = none → a.Hears id trust es → Course id trust as ess replies calls r →
      Course id trust (a :: as) (es :: ess) (a.replies trust es ++ replies)
        (a.calls trust ++ calls) r

variable {settings : Settings} {id : String} {replies : List Reply} {calls : List Call}
  {r : BusResult Unit}

theorem isAccepted_confirms_iff (id : String) (e : Envelope) :
    e.isAccepted (confirms id) = true ↔ e.message = .ok (.authValid id) := by
  rw [Envelope.isAccepted_iff]
  constructor
  · rintro ⟨m, hmessage, hconfirms⟩
    rw [hmessage]
    cases m <;> simp [confirms] at hconfirms
    rw [hconfirms]
  · intro hmessage
    exact ⟨_, hmessage, by simp [confirms]⟩

theorem not_isAccepted_confirms_iff (id : String) (e : Envelope) :
    e.isAccepted (confirms id) = false ↔ e.message ≠ .ok (.authValid id) := by
  rw [← Bool.not_eq_true, isAccepted_confirms_iff]

/-! ## A test -/

theorem bind_done {α : Type} (p : Program α) : p.bind .done = p := by
  induction p <;> simp [Program.bind, *]

/-- A wait for a confirmation ends on an open connection with what decides. -/
theorem decides_of_waits {limit : Nat} {front : List Reply} {w : Awaited}
    (h : Waits (some limit) (confirms id) front w) (hopen : .closed ∉ front) :
    ∃ confirmed es, Decides id confirmed es ∧ .queued :: front = testReplies confirmed es ∧
      w = if confirmed then .matched (.authValid id) else .timedOut := by
  cases h with
  | @matched before e m hbefore hmessage haccepts =>
    obtain rfl : m = .authValid id := by
      cases m <;> simp [confirms] at haccepts
      rw [haccepts]
    refine ⟨true, before ++ [e], ⟨before, e, rfl, hmessage, ?_⟩, by simp [testReplies], rfl⟩
    exact fun b hb => (not_isAccepted_confirms_iff id b).mp (hbefore b hb)
  | @timedOut es hes =>
    refine ⟨false, es, ?_, rfl, rfl⟩
    exact fun e he => (not_isAccepted_confirms_iff id e).mp (hes e he)
  | closed => simp at hopen

theorem waits_of_decides {limit : Nat} {confirmed : Bool} {es : List Envelope}
    (h : Decides id confirmed es) :
    ∃ front, .queued :: front = testReplies confirmed es ∧
      Waits (some limit) (confirms id) front
        (if confirmed then .matched (.authValid id) else .timedOut) := by
  cases confirmed with
  | true =>
    obtain ⟨before, e, rfl, hmessage, hbefore⟩ := h
    refine ⟨before.map .heard ++ [.heard e], by simp [testReplies], ?_⟩
    refine .matched (fun b hb => ?_) hmessage (by simp [confirms])
    exact (not_isAccepted_confirms_iff id b).mpr (hbefore b hb)
  | false =>
    refine ⟨es.map .heard ++ [.expired], rfl, .timedOut (fun e he => ?_) rfl⟩
    exact (not_isAccepted_confirms_iff id e).mpr (h e he)

/-- The result of a test. -/
def testResult (confirmed : Bool) : BusResult Unit :=
  if confirmed then .ok () else .error .authTimeout

/-- A test, and what follows its end. -/
theorem bind_askConfirmation {α : Type} (id : String) (limit : Nat)
    (next : BusResult Unit → Program α) :
    (askConfirmation id limit).bind next =
      .queue Message.testAuth.toFields fun
        | .ok _ => .await (some limit) (confirms id) fun
          | .matched _ => next (.ok ())
          | .timedOut => next (.error .authTimeout)
          | .closed => next (.error .closed)
        | .error e => next (.error e) := by
  apply queue_congr
  · exact await_congr (fun _ => rfl) rfl rfl
  · exact fun _ => rfl

/-- On an open connection a test ends with a confirmation or with none in time. -/
theorem play_test_iff {limit : Nat} {next : BusResult Unit → Program (BusResult Unit)} :
    ((askConfirmation id limit).bind next).play replies = some (calls, .done r) ∧
        .closed ∉ replies ↔
      ∃ confirmed es replies' calls', Decides id confirmed es ∧
        replies = testReplies confirmed es ++ replies' ∧
        calls = .send Message.testAuth.toFields :: calls' ∧
        (next (testResult confirmed)).play replies' = some (calls', .done r) ∧
        .closed ∉ replies' := by
  rw [bind_askConfirmation, play_queue_iff]
  constructor
  · rintro ⟨hplay, hopen⟩
    obtain ⟨replies', calls', rfl, hplay', rfl⟩ | ⟨replies', rfl, -⟩ := hplay
    · obtain ⟨front, w, rest, hwaits, rfl, hrest⟩ := play_await_iff.mp hplay'
      simp only [List.mem_cons, List.mem_append, not_or] at hopen
      obtain ⟨-, hfront, hopen⟩ := hopen
      obtain ⟨confirmed, es, hdecides, hreplies, rfl⟩ := decides_of_waits hwaits hfront
      refine ⟨confirmed, es, rest, calls', hdecides, ?_, rfl, ?_, hopen⟩
      · rw [← hreplies, List.cons_append]
      · cases confirmed <;> exact hrest
    · simp at hopen
  · rintro ⟨confirmed, es, replies', calls', hdecides, hreplies, hcalls, hplay, hopen⟩
    obtain ⟨front, hfront, hwaits⟩ := waits_of_decides hdecides
    refine ⟨.inl ⟨front ++ replies', calls', ?_, ?_, hcalls.symm⟩, ?_⟩
    · rw [hreplies, ← hfront, List.cons_append]
    · refine play_await_iff.mpr ⟨front, _, replies', hwaits, rfl, ?_⟩
      cases confirmed <;> exact hplay
    · rw [hreplies, List.mem_append, not_or]
      refine ⟨?_, hopen⟩
      cases confirmed <;> simp [testReplies]

/-! ## An attempt -/

/-- What a participant does once the person has answered. -/
def afterAnswer (settings : Settings) (id : String) (rest : List KeyAnswer) :
    BusResult String → Program (BusResult Unit)
  | .error e => .done (.error e)
  | .ok text => tryText settings id rest text

/-- What a participant does after an attempt. -/
def Attempt.next (settings : Settings) (id : String) (rest : List KeyAnswer) (a : Attempt) :
    Program (BusResult Unit) :=
  match a.result? settings.trustKey with
  | some r => .done r
  | none => (requestUntilValid settings id rest).run

theorem play_answer_iff {rest : List KeyAnswer} {answer : BusResult String} :
    (afterAnswer settings id rest answer).play replies = some (calls, .done r) ∧
        .closed ∉ replies ↔
      ∃ confirmed es replies' calls', Attempt.Hears id settings.trustKey ⟨answer, confirmed⟩ es ∧
        replies = Attempt.trialReplies settings.trustKey ⟨answer, confirmed⟩ es ++ replies' ∧
        calls = Attempt.trialCalls settings.trustKey ⟨answer, confirmed⟩ ++ calls' ∧
        (Attempt.next settings id rest ⟨answer, confirmed⟩).play replies' =
          some (calls', .done r) ∧ .closed ∉ replies' := by
  cases answer with
  | error e =>
    simp [afterAnswer, Attempt.Hears, Attempt.isTested, Attempt.trialReplies, Attempt.trialCalls,
      Attempt.keys?, Attempt.next, Attempt.result?]
  | ok text =>
    cases hparse : KeySet.parse (Text.trim text) with
    | error e =>
      obtain rfl := KeySet.eq_invalidKey_of_parse hparse
      have hkeys : ∀ confirmed, Attempt.keys? ⟨.ok text, confirmed⟩ = none := by
        simp [Attempt.keys?, hparse, Except.toOption]
      simp [afterAnswer, tryText, hparse, Attempt.Hears, Attempt.isTested, Attempt.trialReplies,
        Attempt.trialCalls, hkeys, Attempt.next, Attempt.result?]
    | ok keys =>
      have hkeys : ∀ confirmed, Attempt.keys? ⟨.ok text, confirmed⟩ = some keys := by
        simp [Attempt.keys?, hparse, Except.toOption]
      simp only [afterAnswer, tryText, hparse, tryKeys, play_setKeys_iff]
      cases htrust : settings.trustKey with
      | true =>
        have hnext : ∀ confirmed, Attempt.next settings id rest ⟨.ok text, confirmed⟩ =
            .done (.ok ()) := by
          simp [Attempt.next, Attempt.result?, hkeys, htrust]
        simp only [Attempt.Hears, Attempt.isTested, Attempt.trialReplies, Attempt.trialCalls, hkeys,
          hnext, Option.isSome_some, Bool.not_true, Bool.and_false, if_true, Option.toList_some,
          List.map_cons, List.map_nil, List.append_nil, Bool.false_eq_true, if_false]
        constructor
        · rintro ⟨⟨replies', calls', hreplies, hplay, hcalls⟩, hopen⟩
          subst hreplies hcalls
          exact ⟨false, [], replies', calls', rfl, rfl, rfl, hplay, by simpa using hopen⟩
        · rintro ⟨confirmed, es, replies', calls', _, hreplies, hcalls, hplay, hopen⟩
          subst hreplies hcalls
          exact ⟨⟨replies', calls', rfl, hplay, rfl⟩, by simpa using hopen⟩
      | false =>
        have hnext : ∀ confirmed, Attempt.next settings id rest ⟨.ok text, confirmed⟩ =
            afterTest settings id rest (testResult confirmed) := by
          intro confirmed
          cases confirmed <;>
            simp [Attempt.next, Attempt.result?, hkeys, htrust, testResult, afterTest]
        simp only [Attempt.Hears, Attempt.isTested, Attempt.trialReplies, Attempt.trialCalls, hkeys,
          hnext, Option.isSome_some, Bool.not_false, Bool.and_self, if_true, Option.toList_some,
          List.map_cons, List.map_nil, List.singleton_append, Bool.false_eq_true, if_false]
        constructor
        · rintro ⟨⟨replies', calls', hreplies, hplay, hcalls⟩, hopen⟩
          subst hreplies hcalls
          obtain ⟨confirmed, es, rest', calls', hdecides, rfl, rfl, hplay, hopen⟩ :=
            play_test_iff.mp ⟨hplay, by simp_all⟩
          exact ⟨confirmed, es, rest', calls', hdecides, rfl, rfl, hplay, hopen⟩
        · rintro ⟨confirmed, es, replies', calls', hdecides, hreplies, hcalls, hplay, hopen⟩
          subst hreplies hcalls
          obtain ⟨hplay, hopen⟩ :=
            play_test_iff.mpr ⟨confirmed, es, replies', calls', hdecides, rfl, rfl, hplay, hopen⟩
          exact ⟨⟨_, _, rfl, hplay, rfl⟩, by simpa using hopen⟩

theorem run_requestUntilValid_cons (settings : Settings) (id : String) (answer : KeyAnswer)
    (rest : List KeyAnswer) :
    (requestUntilValid settings id (answer :: rest)).run =
      .setKeys .empty (.queue Message.requestAuth.toFields fun
        | .error e => .done (.error e)
        | .ok _ => .sleep requestSettle (.ask (some answer) (afterAnswer settings id rest))) := by
  rw [run_requestUntilValid]
  refine congrArg (Program.setKeys _) (queue_congr ?_ fun _ => rfl)
  exact congrArg (Program.sleep _) (ask_congr (fun _ => rfl) fun _ => rfl)

theorem run_requestUntilValid_nil (settings : Settings) (id : String) :
    (requestUntilValid settings id []).run =
      .setKeys .empty (.queue Message.requestAuth.toFields fun
        | .error e => .done (.error e)
        | .ok _ => .sleep requestSettle (.ask none fun
          | .error e => .done (.error e)
          | .ok _ => .done (.error .closed))) := by
  refine congrArg (Program.setKeys _) (queue_congr ?_ fun _ => rfl)
  exact congrArg (Program.sleep _) (ask_congr (fun _ => rfl) fun _ => rfl)

/-- Asking a person, with any script and whatever comes after. -/
theorem play_request_iff {script? : Option KeyAnswer}
    {next : BusResult String → Program (BusResult Unit)} :
    (Program.setKeys .empty (.queue Message.requestAuth.toFields fun
        | .error e => .done (.error e)
        | .ok _ => .sleep requestSettle (.ask script? next))).play replies =
          some (calls, .done r) ∧ .closed ∉ replies ↔
      ∃ answer replies' calls',
        replies = .rekeyed :: .queued :: .rested :: .entered answer :: replies' ∧
        calls = .rekey .empty :: .send Message.requestAuth.toFields :: calls' ∧
        (script? = none → ∃ e, answer = .error e) ∧
        (next answer).play replies' = some (calls', .done r) ∧ .closed ∉ replies' := by
  simp only [play_setKeys_iff, play_queue_iff, play_sleep_iff, play_ask_iff]
  constructor
  · rintro ⟨⟨replies₁, calls₁, hreplies₁, hplay, hcalls₁⟩, hopen⟩
    obtain ⟨replies₂, calls₂, hreplies₂, ⟨replies₃, hreplies₃, hplay⟩, hcalls₂⟩ |
      ⟨replies₂, hreplies₂, -⟩ := hplay
    · obtain ⟨answer, replies', hreplies', hscript, hplay⟩ := hplay
      subst hreplies₁ hreplies₂ hreplies₃ hreplies' hcalls₁ hcalls₂
      exact ⟨answer, replies', calls₂, rfl, rfl, hscript, hplay, by simp_all⟩
    · subst hreplies₁ hreplies₂
      simp at hopen
  · rintro ⟨answer, replies', calls', hreplies, hcalls, hscript, hplay, hopen⟩
    subst hreplies hcalls
    refine ⟨⟨_, _, rfl, .inl ⟨_, _, rfl, ⟨_, rfl, ?_⟩, rfl⟩, rfl⟩, by simpa using hopen⟩
    exact ⟨answer, replies', rfl, hscript, hplay⟩

/-- An attempt, and what follows it. -/
theorem play_attempt_iff {answer : KeyAnswer} {rest : List KeyAnswer} :
    (requestUntilValid settings id (answer :: rest)).run.play replies = some (calls, .done r) ∧
        .closed ∉ replies ↔
      ∃ (a : Attempt) (es : List Envelope) (replies' : List Reply) (calls' : List Call),
        a.Hears id settings.trustKey es ∧ replies = a.replies settings.trustKey es ++ replies' ∧
        calls = a.calls settings.trustKey ++ calls' ∧
        (a.next settings id rest).play replies' = some (calls', .done r) ∧ .closed ∉ replies' := by
  rw [run_requestUntilValid_cons, play_request_iff]
  constructor
  · rintro ⟨entered, replies₁, calls₁, hreplies, hcalls, _, hplay, hopen⟩
    obtain ⟨confirmed, es, replies', calls', hhears, rfl, rfl, hplay, hopen⟩ :=
      play_answer_iff.mp ⟨hplay, hopen⟩
    exact ⟨⟨entered, confirmed⟩, es, replies', calls', hhears, hreplies, hcalls, hplay, hopen⟩
  · rintro ⟨a, es, replies', calls', hhears, hreplies, hcalls, hplay, hopen⟩
    obtain ⟨hplay, hopen⟩ := play_answer_iff.mpr
      ⟨a.confirmed, es, replies', calls', hhears, rfl, rfl, hplay, hopen⟩
    exact ⟨a.answer, _, _, hreplies, hcalls, nofun, hplay, hopen⟩

/-- A person who answers no more fails to answer. -/
theorem attempt_of_play_nil
    (h : (requestUntilValid settings id []).run.play replies = some (calls, .done r))
    (hopen : .closed ∉ replies) :
    ∃ a : Attempt, a.Hears id settings.trustKey [] ∧ replies = a.replies settings.trustKey [] ∧
      calls = a.calls settings.trustKey ∧ a.result? settings.trustKey = some r := by
  rw [run_requestUntilValid_nil] at h
  obtain ⟨answer, replies', calls', hreplies, hcalls, hscript, hplay, -⟩ :=
    play_request_iff.mp ⟨h, hopen⟩
  obtain ⟨e, rfl⟩ := hscript rfl
  obtain ⟨rfl, rfl, rfl⟩ := play_done_iff.mp hplay
  exact ⟨⟨.error e, false⟩, rfl, hreplies, hcalls, rfl⟩

/-! ## Courses of attempts -/

/-- A program that ended was played with a course of attempts. -/
theorem course_of_play {script : List KeyAnswer}
    (h : (requestUntilValid settings id script).run.play replies = some (calls, .done r))
    (hopen : .closed ∉ replies) :
    ∃ as ess, Course id settings.trustKey as ess replies calls r := by
  induction script generalizing replies calls with
  | nil =>
    obtain ⟨a, hhears, hreplies, hcalls, hresult⟩ := attempt_of_play_nil h hopen
    rw [hreplies, hcalls]
    exact ⟨[a], [[]], .last hresult hhears⟩
  | cons answer rest ih =>
    obtain ⟨a, es, replies', calls', hhears, rfl, rfl, hplay, hopen⟩ :=
      play_attempt_iff.mp ⟨h, hopen⟩
    cases hresult : a.result? settings.trustKey with
    | some r' =>
      rw [Attempt.next, hresult] at hplay
      obtain ⟨rfl, rfl, rfl⟩ := play_done_iff.mp hplay
      rw [List.append_nil, List.append_nil]
      exact ⟨[a], [es], .last hresult hhears⟩
    | none =>
      rw [Attempt.next, hresult] at hplay
      obtain ⟨as, ess, hcourse⟩ := ih hplay hopen
      exact ⟨a :: as, es :: ess, .again hresult hhears hcourse⟩

/-- Any course of attempts is a play, if there are answers enough. -/
theorem Course.play {as : List Attempt} {ess : List (List Envelope)}
    (h : Course id settings.trustKey as ess replies calls r) {script : List KeyAnswer}
    (hscript : as.length ≤ script.length) :
    (requestUntilValid settings id script).run.play replies = some (calls, .done r) ∧
      .closed ∉ replies := by
  induction h generalizing script with
  | @last a es r hresult hhears =>
    obtain _ | ⟨answer, rest⟩ := script
    · simp at hscript
    · refine play_attempt_iff.mpr ⟨a, es, [], [], hhears, ?_, ?_, ?_, by simp⟩
      · rw [List.append_nil]
      · rw [List.append_nil]
      · rw [Attempt.next, hresult]
        rfl
  | @again a es as ess replies calls r hresult hhears _ ih =>
    obtain _ | ⟨answer, rest⟩ := script
    · simp at hscript
    · obtain ⟨hplay, hopen⟩ := ih (Nat.le_of_succ_le_succ hscript)
      refine play_attempt_iff.mpr ⟨a, es, replies, calls, hhears, rfl, rfl, ?_, hopen⟩
      rw [Attempt.next, hresult]
      exact hplay

/-! ## What a course shows -/

theorem answers_testReplies (confirmed : Bool) (es : List Envelope) :
    (testReplies confirmed es).filterMap Reply.answer? = [] := by
  cases confirmed <;>
    simp [testReplies, List.filterMap_cons, Reply.answer?, List.filterMap_map]

theorem heard_testReplies (confirmed : Bool) (es : List Envelope) :
    (testReplies confirmed es).filterMap Reply.envelope? = es := by
  cases confirmed <;>
    simp [testReplies, List.filterMap_cons, Reply.envelope?]

namespace Attempt

variable {trust : Bool} {a : Attempt} {es : List Envelope}

theorem answers_replies : (a.replies trust es).filterMap Reply.answer? = [a.answer] := by
  unfold replies trialReplies
  cases a.keys? <;> cases a.isTested trust <;>
    simp [List.filterMap_cons, Reply.answer?, answers_testReplies]

theorem heard_replies (h : a.Hears id trust es) :
    (a.replies trust es).filterMap Reply.envelope? = es := by
  unfold Hears at h
  unfold replies trialReplies
  cases htested : a.isTested trust with
  | true => cases a.keys? <;> simp [List.filterMap_cons, Reply.envelope?, heard_testReplies]
  | false =>
    obtain rfl : es = [] := by simpa [htested] using h
    cases a.keys? <;> simp [List.filterMap_cons, Reply.envelope?]

/-- The last keys that the connection is asked to take. -/
theorem getLast?_keys : ((a.calls trust).filterMap Call.keys?).getLast? = some a.keys := by
  have htest : (if a.isTested trust then [Call.send Message.testAuth.toFields] else []).filterMap
      Call.keys? = [] := by
    split <;> simp [Call.keys?]
  unfold calls trialCalls
  cases h : a.keys? <;> simp [List.filterMap_cons, Call.keys?, htest, keys, h]

end Attempt

namespace Course

variable {trust : Bool} {as : List Attempt} {ess : List (List Envelope)}

theorem exists_last (h : Course id trust as ess replies calls r) :
    ∃ front last, as = front ++ [last] ∧ (∀ a ∈ front, a.result? trust = none) ∧
      last.result? trust = some r := by
  induction h with
  | @last a es r hresult => exact ⟨[], a, rfl, by simp, hresult⟩
  | @again a es as ess replies calls r hresult _ _ ih =>
    obtain ⟨front, last, rfl, hfront, hlast⟩ := ih
    exact ⟨a :: front, last, rfl, List.forall_mem_cons.mpr ⟨hresult, hfront⟩, hlast⟩

theorem hears (h : Course id trust as ess replies calls r) :
    List.Forall₂ (Attempt.Hears id trust) as ess := by
  induction h with
  | last _ hhears => exact .cons hhears .nil
  | again _ hhears _ ih => exact .cons hhears ih

theorem calls_eq (h : Course id trust as ess replies calls r) :
    calls = as.flatMap (Attempt.calls trust) := by
  induction h with
  | last => simp
  | again _ _ _ ih => rw [List.flatMap_cons, ih]

theorem answers_eq (h : Course id trust as ess replies calls r) :
    replies.filterMap Reply.answer? = as.map (·.answer) := by
  induction h with
  | last => exact Attempt.answers_replies
  | again _ _ _ ih =>
    rw [List.filterMap_append, Attempt.answers_replies, ih]
    rfl

theorem heard_eq (h : Course id trust as ess replies calls r) :
    replies.filterMap Reply.envelope? = ess.flatten := by
  induction h with
  | last _ hhears => rw [Attempt.heard_replies hhears, List.flatten_singleton]
  | again _ hhears _ ih =>
    rw [List.filterMap_append, Attempt.heard_replies hhears, ih, List.flatten_cons]

/-- The last keys that the connection was asked to take are those of the last attempt. -/
theorem getLast?_keys (h : Course id trust as ess replies calls r) {front : List Attempt}
    {last : Attempt} (has : as = front ++ [last]) :
    (calls.filterMap Call.keys?).getLast? = some last.keys := by
  rw [h.calls_eq, has, List.flatMap_append, List.flatMap_singleton, List.filterMap_append,
    List.getLast?_append, Attempt.getLast?_keys, Option.some_or]

end Course

/-- The envelopes of an attempt in which nothing comes but a confirmation. -/
def Attempt.hearing (trust : Bool) (e : Envelope) (a : Attempt) : List Envelope :=
  if a.isTested trust && a.confirmed then [e] else []

theorem Attempt.hears_hearing {e : Envelope} (he : e.message = .ok (.authValid id)) (trust : Bool)
    (a : Attempt) : a.Hears id trust (a.hearing trust e) := by
  unfold Hears hearing
  cases htested : a.isTested trust with
  | false => simp
  | true =>
    cases hconfirmed : a.confirmed with
    | false => simp [Decides]
    | true => exact ⟨[], e, rfl, he, by simp⟩

theorem Attempt.isAtHand_replies {codec : Codec} {e : Envelope}
    (he : (Reply.heard e).IsAtHand codec) (trust : Bool) (a : Attempt) :
    ∀ reply ∈ a.replies trust (a.hearing trust e), reply.IsAtHand codec := by
  have hparse : ∃ body, ∀ keys, codec.parse body keys = some e := he
  unfold replies trialReplies hearing testReplies
  cases a.keys? <;> cases a.isTested trust <;> cases a.confirmed <;>
    simp [Reply.IsAtHand, hparse]

/-- Every course in which only confirmations come goes on with replies that are at hand. -/
theorem exists_course {trust : Bool} {codec : Codec} {e : Envelope}
    (he : e.message = .ok (.authValid id)) (hhand : (Reply.heard e).IsAtHand codec)
    {front : List Attempt} (hfront : ∀ a ∈ front, a.result? trust = none) {last : Attempt}
    (hlast : last.result? trust = some r) :
    ∃ ess replies calls, Course id trust (front ++ [last]) ess replies calls r ∧
      ∀ reply ∈ replies, reply.IsAtHand codec := by
  induction front with
  | nil =>
    exact ⟨_, _, _, .last hlast (Attempt.hears_hearing he trust last),
      Attempt.isAtHand_replies hhand trust last⟩
  | cons a front ih =>
    obtain ⟨hresult, hfront⟩ := List.forall_mem_cons.mp hfront
    obtain ⟨ess, replies, calls, hcourse, hreplies⟩ := ih hfront
    refine ⟨_, _, _, .again hresult (Attempt.hears_hearing he trust a) hcourse, ?_⟩
    exact List.forall_mem_append.mpr ⟨Attempt.isAtHand_replies hhand trust a, hreplies⟩

/-- There is a confirmation that a participant reads with any keys. -/
theorem exists_confirmation (codec : Codec) (id : String) :
    ∃ e, e.message = .ok (.authValid id) ∧ (Reply.heard e).IsAtHand codec := by
  -- somebody else says so in the clear
  obtain ⟨other, hother⟩ : ∃ other : Codec, codec.id ≠ other.id := by
    by_cases h : codec.id = "a"
    · exact ⟨⟨"b", ⟨none, none⟩⟩, by rw [h]; decide⟩
    · exact ⟨⟨"a", ⟨none, none⟩⟩, h⟩
  obtain ⟨e, hparse, hmessage⟩ := Codec.parse_eq_of_ne hother (.inr ⟨id, rfl⟩) default
  exact ⟨e, hmessage, _, hparse⟩

/-! ## A configured key -/

/-- What happens with a configured key: the replies and calls, and the result. -/
def ConfiguredCourse (settings : Settings) (id key : String) (role : Role) (confirmed : Bool)
    (es : List Envelope) (replies : List Reply) (calls : List Call) (r : BusResult Unit) : Prop :=
  match KeySet.parse key with
  | .error _ => replies = [] ∧ calls = [] ∧ r = .error .invalidKey
  | .ok keys =>
    if role = .client ∧ settings.trustKey = false then
      Decides id confirmed es ∧ replies = .rekeyed :: testReplies confirmed es ∧
        calls = [.rekey keys, .send Message.testAuth.toFields] ∧ r = testResult confirmed
    else replies = [.rekeyed] ∧ calls = [.rekey keys] ∧ r = .ok ()

/-- The plays of the program for a configured key. -/
theorem play_useConfigured_iff {key : String} {role : Role} :
    (useConfigured settings id key role).run.play replies = some (calls, .done r) ∧
        .closed ∉ replies ↔
      ∃ confirmed es, ConfiguredCourse settings id key role confirmed es replies calls r := by
  unfold ConfiguredCourse
  rw [run_useConfigured]
  cases hparse : KeySet.parse key with
  | error e =>
    obtain rfl := KeySet.eq_invalidKey_of_parse hparse
    simp only [play_done_iff]
    constructor
    · rintro ⟨⟨hreplies, hcalls, hr⟩, _⟩
      exact ⟨false, [], hreplies, hcalls, hr.symm⟩
    · rintro ⟨_, _, hreplies, hcalls, hr⟩
      exact ⟨⟨hreplies, hcalls, hr.symm⟩, by simp [hreplies]⟩
  | ok keys =>
    by_cases htest : role = .client ∧ settings.trustKey = false
    · simp only [if_pos htest, play_setKeys_iff]
      rw [← bind_done (askConfirmation id settings.authTimeout)]
      constructor
      · rintro ⟨⟨replies₁, calls₁, hreplies, hplay, hcalls⟩, hopen⟩
        subst hreplies hcalls
        obtain ⟨confirmed, es, replies', calls', hdecides, rfl, rfl, hplay, -⟩ :=
          play_test_iff.mp ⟨hplay, by simp_all⟩
        obtain ⟨rfl, rfl, hr⟩ := play_done_iff.mp hplay
        rw [List.append_nil]
        exact ⟨confirmed, es, hdecides, rfl, rfl, hr.symm⟩
      · rintro ⟨confirmed, es, hdecides, hreplies, hcalls, hr⟩
        subst hreplies hcalls hr
        obtain ⟨hplay, hopen⟩ := play_test_iff.mpr
          ⟨confirmed, es, [], [], hdecides, (List.append_nil _).symm, rfl, rfl, by simp⟩
        exact ⟨⟨_, _, rfl, hplay, rfl⟩, by simpa using hopen⟩
    · simp only [if_neg htest, play_setKeys_iff, play_done_iff]
      constructor
      · rintro ⟨⟨replies₁, calls₁, hreplies, ⟨hend, hcalls₁, hr⟩, hcalls⟩, _⟩
        subst hend hcalls₁
        exact ⟨false, [], hreplies, hcalls.symm, hr.symm⟩
      · rintro ⟨_, _, hreplies, hcalls, hr⟩
        subst hreplies hcalls hr
        exact ⟨⟨[], [], rfl, ⟨rfl, rfl, rfl⟩, rfl⟩, by simp⟩

/-- With replies that are at hand a configured key is confirmed, or not. -/
theorem exists_configuredCourse {codec : Codec} {e : Envelope}
    (he : e.message = .ok (.authValid id)) (hhand : (Reply.heard e).IsAtHand codec)
    (settings : Settings) (key : String) (role : Role) (confirmed : Bool) :
    ∃ es replies calls r, ConfiguredCourse settings id key role confirmed es replies calls r ∧
      ∀ reply ∈ replies, reply.IsAtHand codec := by
  have hparse : ∃ body, ∀ keys, codec.parse body keys = some e := hhand
  unfold ConfiguredCourse
  cases KeySet.parse key with
  | error e => exact ⟨[], [], [], _, ⟨rfl, rfl, rfl⟩, by simp⟩
  | ok keys =>
    by_cases htest : role = .client ∧ settings.trustKey = false
    · simp only [if_pos htest]
      cases confirmed with
      | true =>
        refine ⟨[e], _, _, _, ⟨⟨[], e, rfl, he, by simp⟩, rfl, rfl, rfl⟩, ?_⟩
        simp [testReplies, Reply.IsAtHand, hparse]
      | false =>
        refine ⟨[], _, _, _, ⟨by simp [Decides], rfl, rfl, rfl⟩, ?_⟩
        simp [testReplies, Reply.IsAtHand]
    · simp only [if_neg htest]
      exact ⟨[], _, _, _, ⟨rfl, rfl, rfl⟩, by simp [Reply.IsAtHand]⟩

/-! ## Main theorem -/

/-- How the handshake with a configured key ends, for a connection that had some keys before. -/
def UsesConfigured (settings : Settings) (id key : String) (role : Role) (before : KeySet)
    (confirmed : Bool) (journal : Caller.Journal (BusResult Unit)) (p : Caller (BusResult Unit)) :
    Prop :=
  match KeySet.parse key with
  | .error _ =>
    p.program = .done (.error .invalidKey) ∧ Caller.calls journal = [] ∧
      p.connection.keys = before
  | .ok keys =>
    p.connection.keys = keys ∧
      if role = .client ∧ settings.trustKey = false then
        Caller.calls journal = [.rekey keys, .send Message.testAuth.toFields] ∧
          Decides id confirmed (Caller.heard journal) ∧ p.program = .done (testResult confirmed)
      else Caller.calls journal = [.rekey keys] ∧ p.program = .done (.ok ())

/-- How the handshake without a configured key goes on and ends, attempt by attempt. -/
structure MakesAttempts (trust : Bool) (id : String) (front : List Attempt) (last : Attempt)
    (journal : Caller.Journal (BusResult Unit)) (p : Caller (BusResult Unit)) : Prop where
  answers : Caller.answers journal = (front ++ [last]).map (·.answer)
  heard : ∃ ess, Caller.heard journal = ess.flatten ∧
    List.Forall₂ (Attempt.Hears id trust) (front ++ [last]) ess
  calls : Caller.calls journal = (front ++ [last]).flatMap (Attempt.calls trust)
  keys : p.connection.keys = last.keys
  goesOn : ∀ a ∈ front, a.result? trust = none
  ends : ∃ r, last.result? trust = some r ∧ p.program = .done r

section run
variable {c : Connection} {program : Program (BusResult Unit)}
  {journal : Caller.Journal (BusResult Unit)} {p : Caller (BusResult Unit)}

theorem makesAttempts_of_course {trust : Bool} {front : List Attempt} {last : Attempt}
    {ess : List (List Envelope)} (hrun : Caller.Runs (.start c program) journal p)
    (hdone : p.program = .done r)
    (h : Course id trust (front ++ [last]) ess (Caller.replies journal) (Caller.calls journal) r) :
    MakesAttempts trust id front last journal p := by
  obtain ⟨front', last', has, hfront, hlast⟩ := h.exists_last
  obtain ⟨rfl, hsame⟩ := List.append_inj' has rfl
  obtain rfl := List.singleton_inj.mp hsame
  refine ⟨h.answers_eq, ⟨ess, ?_, h.hears⟩, h.calls_eq, ?_, hfront, r, hlast, hdone⟩
  · rw [Caller.heard_eq hrun, h.heard_eq]
  · rw [Caller.keys_eq hrun, h.getLast?_keys rfl, Option.getD_some]

theorem usesConfigured_of_course {key : String} {role : Role} {confirmed : Bool}
    {es : List Envelope} (hrun : Caller.Runs (.start c program) journal p)
    (hdone : p.program = .done r)
    (h : ConfiguredCourse settings id key role confirmed es (Caller.replies journal)
      (Caller.calls journal) r) :
    UsesConfigured settings id key role c.keys confirmed journal p := by
  have hkeys := Caller.keys_eq hrun
  unfold ConfiguredCourse at h
  unfold UsesConfigured
  cases hparse : KeySet.parse key with
  | error e =>
    simp only [hparse] at h
    obtain ⟨-, hcalls, rfl⟩ := h
    rw [hcalls] at hkeys
    exact ⟨hdone, hcalls, hkeys⟩
  | ok keys =>
    simp only [hparse] at h
    by_cases htest : role = .client ∧ settings.trustKey = false
    · rw [if_pos htest] at h
      obtain ⟨hdecides, hreplies, hcalls, rfl⟩ := h
      have hheard : Caller.heard journal = es := by
        rw [Caller.heard_eq hrun, hreplies]
        exact heard_testReplies confirmed es
      rw [hcalls] at hkeys
      refine ⟨hkeys, ?_⟩
      rw [if_pos htest, hheard]
      exact ⟨hcalls, hdecides, hdone⟩
    · rw [if_neg htest] at h
      obtain ⟨-, hcalls, rfl⟩ := h
      rw [hcalls] at hkeys
      refine ⟨hkeys, ?_⟩
      rw [if_neg htest]
      exact ⟨hcalls, hdone⟩

end run

/-- Along every run on an open connection that ends, whatever that connection holds already, a
configured key is used as it is, and without one there are attempts until one of them ends the
handshake.  The other way round, on a fresh connection there is a run for a key that is confirmed
and for one that is not, and for every course of attempts. -/
theorem keys_established (settings : Settings) (id : String) (role : Role)
    (script : List KeyAnswer) :
    (∀ (c : Connection) (journal : Caller.Journal (BusResult Unit)) (p : Caller (BusResult Unit))
      (r : BusResult Unit),
      Caller.Runs (.start c (establishKeys settings id role script).run) journal p →
      p.program = .done r → p.connection.isStopped = false →
      match configuredKey? settings with
      | some key => ∃ confirmed, UsesConfigured settings id key role c.keys confirmed journal p
      | none => ∃ front last, MakesAttempts settings.trustKey id front last journal p) ∧
    (∀ (codec : Codec) (capacity delay began : Nat) (keys : KeySet), 0 < capacity →
      let c := Connection.start codec capacity delay keys began
      match configuredKey? settings with
      | some key => ∀ confirmed, ∃ journal p,
          Caller.Runs (.start c (establishKeys settings id role script).run) journal p ∧
          p.connection.isStopped = false ∧
          UsesConfigured settings id key role keys confirmed journal p
      | none => ∀ front last, front.length < script.length →
          (∀ a ∈ front, a.result? settings.trustKey = none) →
          (last.result? settings.trustKey).isSome = true → ∃ journal p,
          Caller.Runs (.start c (establishKeys settings id role script).run) journal p ∧
          p.connection.isStopped = false ∧
          MakesAttempts settings.trustKey id front last journal p) := by
  constructor
  · intro c journal p r hrun hdone hrunning
    have hopen : .closed ∉ Caller.replies journal := by
      intro hclosed
      rw [Caller.isStopped_of_closed hrun hclosed] at hrunning
      cases hrunning
    have hplay := Caller.play_of_done hrun rfl hdone
    simp only [Caller.start, establishKeys] at hplay
    cases hkey : configuredKey? settings with
    | some key =>
      rw [hkey] at hplay
      obtain ⟨confirmed, es, hcourse⟩ := play_useConfigured_iff.mp ⟨hplay, hopen⟩
      exact ⟨confirmed, usesConfigured_of_course hrun hdone hcourse⟩
    | none =>
      rw [hkey] at hplay
      obtain ⟨as, ess, hcourse⟩ := course_of_play hplay hopen
      obtain ⟨front, last, rfl, -⟩ := hcourse.exists_last
      exact ⟨front, last, makesAttempts_of_course hrun hdone hcourse⟩
  · intro codec capacity delay began keys hroom c
    have hrest : c.IsAtRest := Connection.isAtRest_start hroom
    obtain ⟨e, he, hhand⟩ := exists_confirmation codec id
    simp only [establishKeys]
    cases configuredKey? settings with
    | some key =>
      intro confirmed
      obtain ⟨es, replies, calls, r, hcourse, hreplies⟩ :=
        exists_configuredCourse he hhand settings key role confirmed
      have hplay := (play_useConfigured_iff.mpr ⟨confirmed, es, hcourse⟩).1
      obtain ⟨journal, p, hrun, hrunning, hdone, rfl, rfl⟩ :=
        Caller.exists_run_of_play_done hrest hplay hreplies
      exact ⟨journal, p, hrun, hrunning, usesConfigured_of_course hrun hdone hcourse⟩
    | none =>
      intro front last hlength hfront hlast
      obtain ⟨r, hlast⟩ := Option.isSome_iff_exists.mp hlast
      obtain ⟨ess, replies, calls, hcourse, hreplies⟩ := exists_course he hhand hfront hlast
      have hscript : (front ++ [last]).length ≤ script.length := by
        rw [List.length_append]
        exact hlength
      have hplay := (hcourse.play hscript).1
      obtain ⟨journal, p, hrun, hrunning, hdone, rfl, rfl⟩ :=
        Caller.exists_run_of_play_done hrest hplay hreplies
      exact ⟨journal, p, hrun, hrunning, makesAttempts_of_course hrun hdone hcourse⟩

/-- A key that nobody confirms. -/
def staleKey : String := "vutsrqponmlkjihgfedcba9876543210"

/-- A client enters a key that nobody confirms, and then one that works. -/
theorem keys_established_at_second_attempt :
    let request : Call := .send Message.requestAuth.toFields
    let test : Call := .send Message.testAuth.toFields
    let script : List KeyAnswer := [.text staleKey, .text Applicant.pastedKey]
    ∃ (journal : Caller.Journal (BusResult Unit)) (p : Caller (BusResult Unit)),
      0 < 4 ∧ Caller.Runs (.start (.start Applicant.newcomerCodec 4 0 .empty 0)
        (establishKeys .default "c" .client script).run) journal p ∧
      p.connection.isStopped = false ∧ p.program = .done (.ok ()) ∧
      Caller.calls journal =
        [.rekey .empty, request, .rekey ⟨[staleKey]⟩, test,
          .rekey .empty, request, .rekey ⟨[Applicant.pastedKey]⟩, test] ∧
      p.connection.keys = ⟨[Applicant.pastedKey]⟩ := by
  intro request test script
  let first : Attempt := ⟨.ok staleKey, false⟩
  let second : Attempt := ⟨.ok Applicant.pastedKey, true⟩
  have hfirst : first.keys? = some ⟨[staleKey]⟩ := by decide +kernel
  have hsecond : second.keys? = some ⟨[Applicant.pastedKey]⟩ := by decide +kernel
  have hgoesOn : ∀ a ∈ [first], a.result? Settings.default.trustKey = none := by
    intro a ha
    rw [List.mem_singleton.mp ha, Attempt.result?, hfirst]
    rfl
  have hends : second.result? Settings.default.trustKey = some (.ok ()) := by
    rw [Attempt.result?, hsecond]
    rfl
  have hroom : 0 < 4 := by decide
  obtain ⟨-, hexists⟩ := keys_established .default "c" .client script
  obtain ⟨journal, p, hrun, hrunning, hattempts⟩ :=
    hexists Applicant.newcomerCodec 4 0 0 .empty hroom [first] second (by decide) hgoesOn
      (by rw [hends]; rfl)
  obtain ⟨r, hr, hdone⟩ := hattempts.ends
  rw [hends] at hr
  cases hr
  refine ⟨journal, p, hroom, hrun, hrunning, hdone, ?_, ?_⟩
  · rw [hattempts.calls]
    simp [Attempt.calls, Attempt.trialCalls, Attempt.isTested, hfirst, hsecond, request, test,
      Settings.default]
  · rw [hattempts.keys, Attempt.keys, hsecond]
    rfl

end MessageBus.Handshake
