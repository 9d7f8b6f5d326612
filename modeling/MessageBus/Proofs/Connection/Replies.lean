import MessageBus.Connection.Program

/-! # Programs and the replies to their requests

    A program says what it requests next for every reply, but not which reply it
    gets.  To play a program is to give it replies, one for each envelope that it
    hears while it waits, one for any other request.  What the program asked of
    its connection on the way are its calls.

    * `play_append`: a play that goes on.
    * `play_queue_iff`, `play_await_iff` and so on: how a program that ends was
      played, from the first request on. -/

namespace MessageBus

theorem Envelope.isAccepted_iff {accepts : Message → Bool} {e : Envelope} :
    e.isAccepted accepts = true ↔ ∃ m, e.message = .ok m ∧ accepts m = true := by
  unfold isAccepted
  cases e.message <;> simp

namespace Program

variable {α : Type}

/-! ## Programs that request the same

    Programs are told apart by what they do next, so they are compared reply by reply. -/

theorem queue_congr {contents : Fields} {next next' : BusResult Unit → Program α}
    (hok : next (.ok ()) = next' (.ok ())) (herror : ∀ e, next (.error e) = next' (.error e)) :
    queue contents next = queue contents next' := by
  refine congrArg (queue contents) (funext fun sent => ?_)
  cases sent with
  | ok _ => exact hok
  | error e => exact herror e

theorem await_congr {limit : Option Nat} {accepts : Message → Bool}
    {next next' : Awaited → Program α} (hmatched : ∀ m, next (.matched m) = next' (.matched m))
    (htimedOut : next .timedOut = next' .timedOut) (hclosed : next .closed = next' .closed) :
    await limit accepts next = await limit accepts next' := by
  refine congrArg (await limit accepts) (funext fun awaited => ?_)
  cases awaited with
  | matched m => exact hmatched m
  | timedOut => exact htimedOut
  | closed => exact hclosed

theorem ask_congr {script : Option KeyAnswer} {next next' : BusResult String → Program α}
    (hok : ∀ text, next (.ok text) = next' (.ok text))
    (herror : ∀ e, next (.error e) = next' (.error e)) : ask script next = ask script next' := by
  refine congrArg (ask script) (funext fun answer => ?_)
  cases answer with
  | ok text => exact hok text
  | error e => exact herror e

end Program

/-! ## Replies and calls -/

/-- What a program does next when its caller takes an envelope: a wait goes on
    unless the message is accepted. -/
def Program.afterEnvelope {α : Type} (p : Program α) (e : Envelope) : Program α :=
  match p with
  | .await _ accepts next =>
    match firstMatch accepts [e] with
    | some (m, _) => next (.matched m)
    | none => p
  | p => p

/-- The reply to a request. -/
inductive Reply where
  /-- The keys are replaced. -/
  | rekeyed
  /-- The message is in the outbound queue. -/
  | queued
  /-- The message was queued, and is written or never will be. -/
  | flushed (r : BusResult Unit)
  /-- An envelope comes in a wait. -/
  | heard (e : Envelope)
  /-- The connection is shut down: nothing is queued any more, and nothing comes. -/
  | closed
  /-- The wait runs out. -/
  | expired
  /-- The pause is over. -/
  | rested
  /-- The person who is asked for a key gives an answer, or fails to. -/
  | entered (answer : BusResult String)
  /-- The command of the machine ends. -/
  | exited (outcome : CommandOutcome)
  /-- An id is made. -/
  | drawn (id : String)

/-- Whether a reply comes from neither the caller nor its connection. -/
def Reply.isFromOutside : Reply → Bool
  | expired | rested | entered _ | exited _ | drawn _ => true
  | _ => false

/-- What a program asks of its connection, besides envelopes. -/
inductive Call where
  | rekey (keys : KeySet)
  | send (contents : Fields)
  | flush (contents : Fields)

namespace Program

variable {α : Type}

/-- What a program asks of its connection and what it does next when its request gets a reply;
`none` for a reply that the request never gets. -/
def after : Program α → Reply → Option (Option Call × Program α)
  | .setKeys keys next, .rekeyed => some (some (.rekey keys), next)
  | .queue contents next, .queued => some (some (.send contents), next (.ok ()))
  | .queue _ next, .closed => some (none, next (.error .closed))
  | .flush contents next, .flushed r => some (some (.flush contents), next r)
  | .flush _ next, .closed => some (none, next (.error .closed))
  | .await limit accepts next, .heard e =>
    some (none, (Program.await limit accepts next).afterEnvelope e)
  | .await _ _ next, .closed => some (none, next .closed)
  | .await (some _) _ next, .expired => some (none, next .timedOut)
  | .sleep _ next, .rested => some (none, next)
  | .ask (some _) next, .entered answer => some (none, next answer)
  -- nobody answers any more
  | .ask none next, .entered (.error e) => some (none, next (.error e))
  | .execute _ next, .exited outcome => some (none, next outcome)
  | .freshId _ next, .drawn id => some (none, next id)
  | _, _ => none

/-- The calls of a program that gets replies, in order, and what it has yet to do. -/
def play : Program α → List Reply → Option (List Call × Program α)
  | p, [] => some ([], p)
  | p, r :: replies =>
    (p.after r).bind fun (call?, next) =>
      (next.play replies).map fun (calls, last) => (call?.toList ++ calls, last)

variable {p p' last : Program α} {replies : List Reply} {calls : List Call} {a : α}

/-- A reply from outside has to do with no message. -/
theorem call_of_isFromOutside {r : Reply} {call? : Option Call} (h : p.after r = some (call?, p'))
    (hr : r.isFromOutside = true) :
    call? = none ∧ ∀ contents next, p ≠ .flush contents next := by
  cases p with
  | await limit accepts next =>
    cases limit <;> cases r <;> cases hr <;> cases h
    exact ⟨rfl, fun _ _ => nofun⟩
  | ask script next =>
    cases r with
    | entered answer =>
      -- without a script only a failure is an answer
      cases script <;> cases answer <;> cases h <;> exact ⟨rfl, fun _ _ => nofun⟩
    | _ => cases script <;> cases h
  | _ => cases r <;> cases hr <;> cases h <;> exact ⟨rfl, fun _ _ => nofun⟩

/-- Who learns that the keys are replaced has asked for that. -/
theorem setKeys_of_rekeyed {call? : Option Call} (h : p.after .rekeyed = some (call?, p')) :
    ∃ keys, p = .setKeys keys p' := by
  cases p with
  | setKeys keys next =>
    cases h
    exact ⟨keys, rfl⟩
  | await limit accepts next => cases limit <;> cases h
  | ask script next => cases script <;> cases h
  | _ => cases h

/-- Who learns that its message is queued has asked for that. -/
theorem queue_of_queued {call? : Option Call} (h : p.after .queued = some (call?, p')) :
    ∃ contents next, p = .queue contents next := by
  cases p with
  | queue contents next => exact ⟨contents, next, rfl⟩
  | await limit accepts next => cases limit <;> cases h
  | ask script next => cases script <;> cases h
  | _ => cases h

/-- Who hears an envelope waits for one. -/
theorem await_of_heard {e : Envelope} {call? : Option Call}
    (h : p.after (.heard e) = some (call?, p')) :
    ∃ limit accepts next, p = .await limit accepts next := by
  cases p with
  | await limit accepts next => exact ⟨limit, accepts, next, rfl⟩
  | ask script next => cases script <;> cases h
  | _ => cases h

@[simp] theorem play_nil (p : Program α) : p.play [] = some ([], p) := rfl

theorem play_cons_iff {r : Reply} :
    p.play (r :: replies) = some (calls, last) ↔
      ∃ call? next rest, p.after r = some (call?, next) ∧ next.play replies = some (rest, last) ∧
        call?.toList ++ rest = calls := by
  simp [play, Option.bind_eq_some_iff, Option.map_eq_some_iff]

theorem play_singleton_iff {r : Reply} :
    p.play [r] = some (calls, last) ↔
      ∃ call?, p.after r = some (call?, last) ∧ call?.toList = calls := by
  rw [play_cons_iff]
  constructor
  · intro ⟨call?, next, rest, hafter, hplay, hcalls⟩
    cases hplay
    exact ⟨call?, hafter, by rw [← hcalls, List.append_nil]⟩
  · intro ⟨call?, hafter, hcalls⟩
    exact ⟨call?, last, [], hafter, rfl, by rw [hcalls, List.append_nil]⟩

/-- A play may go on from where another one ended. -/
theorem play_append {replies' : List Reply} {calls' : List Call}
    (h : p.play replies = some (calls, p')) (h' : p'.play replies' = some (calls', last)) :
    p.play (replies ++ replies') = some (calls ++ calls', last) := by
  induction replies generalizing p calls with
  | nil =>
    cases h
    exact h'
  | cons r replies ih =>
    obtain ⟨call?, next, rest, hafter, hplay, rfl⟩ := play_cons_iff.1 h
    exact play_cons_iff.2 ⟨call?, next, _, hafter, ih hplay, (List.append_assoc ..).symm⟩

/-! ## Programs that end -/

/-- A program that ended gets no more replies. -/
theorem play_done_iff {b : α} :
    (done b).play replies = some (calls, done a) ↔ replies = [] ∧ calls = [] ∧ b = a := by
  cases replies with
  | nil => simp [eq_comm]
  | cons r replies =>
    constructor
    · intro h
      cases h
    · intro ⟨hreplies, _, _⟩
      cases hreplies

/-- A program that has yet to end starts with a reply to its request. -/
theorem exists_after_of_play (hp : ∀ b, p ≠ done b) (h : p.play replies = some (calls, done a)) :
    ∃ r replies' call? next rest, replies = r :: replies' ∧ p.after r = some (call?, next) ∧
      next.play replies' = some (rest, done a) ∧ call?.toList ++ rest = calls := by
  cases replies with
  | nil =>
    cases h
    exact absurd rfl (hp a)
  | cons r replies =>
    obtain ⟨call?, next, rest, hafter, hplay, hcalls⟩ := play_cons_iff.1 h
    exact ⟨r, replies, call?, next, rest, rfl, hafter, hplay, hcalls⟩

theorem play_setKeys_iff {keys : KeySet} {next : Program α} :
    (setKeys keys next).play replies = some (calls, done a) ↔
      ∃ replies' calls', replies = .rekeyed :: replies' ∧
        next.play replies' = some (calls', done a) ∧ .rekey keys :: calls' = calls := by
  constructor
  · intro h
    obtain ⟨r, replies', call?, p', rest, rfl, hafter, hplay, rfl⟩ := exists_after_of_play nofun h
    cases r <;> cases hafter
    exact ⟨replies', rest, rfl, hplay, rfl⟩
  · intro ⟨replies', calls', hreplies, hplay, hcalls⟩
    rw [hreplies, ← hcalls]
    exact play_cons_iff.2 ⟨some (.rekey keys), next, calls', rfl, hplay, rfl⟩

theorem play_queue_iff {contents : Fields} {next : BusResult Unit → Program α} :
    (queue contents next).play replies = some (calls, done a) ↔
      (∃ replies' calls', replies = .queued :: replies' ∧
        (next (.ok ())).play replies' = some (calls', done a) ∧ .send contents :: calls' = calls) ∨
      ∃ replies', replies = .closed :: replies' ∧
        (next (.error .closed)).play replies' = some (calls, done a) := by
  constructor
  · intro h
    obtain ⟨r, replies', call?, p', rest, rfl, hafter, hplay, rfl⟩ := exists_after_of_play nofun h
    cases r with
    | queued =>
      cases hafter
      exact .inl ⟨replies', rest, rfl, hplay, rfl⟩
    | closed =>
      cases hafter
      exact .inr ⟨replies', rfl, hplay⟩
    | _ => cases hafter
  · rintro (⟨replies', calls', rfl, hplay, rfl⟩ | ⟨replies', rfl, hplay⟩)
    · exact play_cons_iff.2 ⟨some (.send contents), _, calls', rfl, hplay, rfl⟩
    · exact play_cons_iff.2 ⟨none, _, calls, rfl, hplay, rfl⟩

theorem play_sleep_iff {ms : Nat} {next : Program α} :
    (sleep ms next).play replies = some (calls, done a) ↔
      ∃ replies', replies = .rested :: replies' ∧ next.play replies' = some (calls, done a) := by
  constructor
  · intro h
    obtain ⟨r, replies', call?, p', rest, rfl, hafter, hplay, rfl⟩ := exists_after_of_play nofun h
    cases r <;> cases hafter
    exact ⟨replies', rfl, hplay⟩
  · intro ⟨replies', hreplies, hplay⟩
    rw [hreplies]
    exact play_cons_iff.2 ⟨none, next, calls, rfl, hplay, rfl⟩

theorem play_freshId_iff {head : String} {next : String → Program α} :
    (freshId head next).play replies = some (calls, done a) ↔
      ∃ id replies', replies = .drawn id :: replies' ∧
        (next id).play replies' = some (calls, done a) := by
  constructor
  · intro h
    obtain ⟨r, replies', call?, p', rest, rfl, hafter, hplay, rfl⟩ := exists_after_of_play nofun h
    cases r <;> cases hafter
    exact ⟨_, replies', rfl, hplay⟩
  · intro ⟨id, replies', hreplies, hplay⟩
    rw [hreplies]
    exact play_cons_iff.2 ⟨none, next id, calls, rfl, hplay, rfl⟩

theorem play_ask_iff {script : Option KeyAnswer} {next : BusResult String → Program α} :
    (ask script next).play replies = some (calls, done a) ↔
      ∃ answer replies', replies = .entered answer :: replies' ∧
        (script = none → ∃ e, answer = .error e) ∧
        (next answer).play replies' = some (calls, done a) := by
  constructor
  · intro h
    obtain ⟨r, replies', call?, p', rest, rfl, hafter, hplay, rfl⟩ := exists_after_of_play nofun h
    cases r with
    | entered answer =>
      cases script with
      | some reply =>
        cases hafter
        exact ⟨answer, replies', rfl, nofun, hplay⟩
      | none =>
        -- without a script only a failure is an answer
        cases answer with
        | ok text => cases hafter
        | error e =>
          cases hafter
          exact ⟨.error e, replies', rfl, fun _ => ⟨e, rfl⟩, hplay⟩
    | _ => cases script <;> cases hafter
  · intro ⟨answer, replies', hreplies, hanswer, hplay⟩
    rw [hreplies]
    refine play_cons_iff.2 ⟨none, next answer, calls, ?_, hplay, rfl⟩
    cases script with
    | some reply => rfl
    | none =>
      obtain ⟨e, rfl⟩ := hanswer rfl
      rfl

/-! ## Waiting -/

/-- The replies to a wait, and how it ends with them. -/
inductive Waits (limit : Option Nat) (accepts : Message → Bool) : List Reply → Awaited → Prop where
  | matched {before : List Envelope} {e : Envelope} {m : Message} :
      (∀ b ∈ before, b.isAccepted accepts = false) → e.message = .ok m → accepts m = true →
      Waits limit accepts (before.map .heard ++ [.heard e]) (.matched m)
  | timedOut {before : List Envelope} :
      (∀ b ∈ before, b.isAccepted accepts = false) → limit.isSome = true →
      Waits limit accepts (before.map .heard ++ [.expired]) .timedOut
  | closed {before : List Envelope} :
      (∀ b ∈ before, b.isAccepted accepts = false) →
      Waits limit accepts (before.map .heard ++ [.closed]) .closed

variable {limit : Option Nat} {accepts : Message → Bool} {next : Awaited → Program α}

theorem afterEnvelope_await (e : Envelope) :
    (await limit accepts next).afterEnvelope e =
      match e.message with
      | .ok m => if accepts m then next (.matched m) else await limit accepts next
      | .error _ => await limit accepts next := by
  unfold afterEnvelope
  cases hmessage : e.message with
  | error err => simp [firstMatch, hmessage]
  | ok m => cases haccepts : accepts m <;> simp [firstMatch, hmessage, haccepts]

/-- A wait goes on over an envelope that is not accepted. -/
theorem afterEnvelope_of_not_accepted {e : Envelope} (h : e.isAccepted accepts = false) :
    (await limit accepts next).afterEnvelope e = await limit accepts next := by
  rw [afterEnvelope_await]
  unfold Envelope.isAccepted at h
  cases hmessage : e.message with
  | error err => rfl
  | ok m =>
    have hm : accepts m = false := by simpa [hmessage] using h
    simp [hm]

/-- A wait ends with the first message that is accepted. -/
theorem afterEnvelope_of_accepted {e : Envelope} {m : Message} (hmessage : e.message = .ok m)
    (h : accepts m = true) : (await limit accepts next).afterEnvelope e = next (.matched m) := by
  rw [afterEnvelope_await]
  simp [hmessage, h]

theorem Waits.heard {replies : List Reply} {w : Awaited} {e : Envelope}
    (h : Waits limit accepts replies w) (he : e.isAccepted accepts = false) :
    Waits limit accepts (.heard e :: replies) w := by
  have hall : ∀ {before : List Envelope}, (∀ b ∈ before, b.isAccepted accepts = false) →
      ∀ b ∈ e :: before, b.isAccepted accepts = false := by
    intro before hbefore
    exact List.forall_mem_cons.mpr ⟨he, hbefore⟩
  cases h with
  | matched hbefore hmessage haccepts => exact .matched (hall hbefore) hmessage haccepts
  | timedOut hbefore hlimit => exact .timedOut (hall hbefore) hlimit
  | closed hbefore => exact .closed (hall hbefore)

/-- Over envelopes that are not accepted a wait goes on. -/
theorem play_heard {before : List Envelope} (h : ∀ b ∈ before, b.isAccepted accepts = false) :
    (await limit accepts next).play (before.map .heard) = some ([], await limit accepts next) := by
  induction before with
  | nil => rfl
  | cons b before ih =>
    obtain ⟨hb, hbefore⟩ := List.forall_mem_cons.mp h
    refine play_cons_iff.2 ⟨none, _, [], ?_, ih hbefore, rfl⟩
    show some (none, (await limit accepts next).afterEnvelope b) = _
    rw [afterEnvelope_of_not_accepted hb]

/-- A wait asks nothing of the connection but envelopes. -/
theorem Waits.play {front : List Reply} {w : Awaited} (h : Waits limit accepts front w) :
    (await limit accepts next).play front = some ([], next w) := by
  cases h with
  | matched hnone hmessage haccepts =>
    have hlast : ∀ {e : Envelope} {m : Message}, e.message = .ok m → accepts m = true →
        (await limit accepts next).play [.heard e] = some ([], next (.matched m)) := by
      intro e m hmessage haccepts
      refine play_singleton_iff.2 ⟨none, ?_, rfl⟩
      show some (none, (await limit accepts next).afterEnvelope _) = _
      rw [afterEnvelope_of_accepted hmessage haccepts]
    exact play_append (play_heard hnone) (hlast hmessage haccepts)
  | timedOut hnone hlimit =>
    obtain ⟨ms, rfl⟩ := Option.isSome_iff_exists.mp hlimit
    exact play_append (play_heard hnone) rfl
  | closed hnone => exact play_append (play_heard hnone) rfl

theorem play_await_iff :
    (await limit accepts next).play replies = some (calls, done a) ↔
      ∃ front w replies', Waits limit accepts front w ∧ replies = front ++ replies' ∧
        (next w).play replies' = some (calls, done a) := by
  constructor
  · intro h
    have hnone : ∀ b ∈ ([] : List Envelope), b.isAccepted accepts = false := by simp
    induction replies generalizing calls with
    | nil => simp at h
    | cons r replies ih =>
      obtain ⟨call?, p', rest, hafter, hplay, rfl⟩ := play_cons_iff.1 h
      cases r with
      | heard e =>
        cases hafter
        cases haccepted : e.isAccepted accepts with
        | false =>
          rw [afterEnvelope_of_not_accepted haccepted] at hplay
          obtain ⟨front, w, replies', hwaits, rfl, hrest⟩ := ih hplay
          exact ⟨.heard e :: front, w, replies', hwaits.heard haccepted, rfl, hrest⟩
        | true =>
          obtain ⟨m, hmessage, haccepts⟩ := Envelope.isAccepted_iff.mp haccepted
          rw [afterEnvelope_of_accepted hmessage haccepts] at hplay
          exact ⟨[.heard e], _, replies, .matched hnone hmessage haccepts, rfl, hplay⟩
      | closed =>
        cases limit <;> cases hafter <;>
          exact ⟨[.closed], _, replies, .closed hnone, rfl, hplay⟩
      | expired =>
        cases limit with
        | none => cases hafter
        | some ms =>
          cases hafter
          exact ⟨[.expired], _, replies, .timedOut hnone rfl, rfl, hplay⟩
      | _ => cases limit <;> cases hafter
  · intro ⟨front, w, replies', hwaits, hreplies, hrest⟩
    rw [hreplies]
    exact play_append hwaits.play hrest

end Program

end MessageBus
