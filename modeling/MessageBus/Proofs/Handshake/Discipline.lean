import MessageBus.Proofs.Codec.Sealing
import MessageBus.Proofs.Connection.Sending
import MessageBus.Proofs.Handshake.Scene

/-! # What a participant that gets its keys shows on the wire

    A participant asks for keys in the clear and tests a key under that key: it
    sets its keys before it sends either message.  But a message waits in a
    queue, and is made into a body when it is taken from there, under the keys
    of that moment.  While the link is down the participant may give up a test
    and ask again, so that both messages can go out under keys that were set
    for the other.

    * `Standing.Allows.shown`: what goes out under the keys that it was sent with.
    * `Program.Obeys`: what a program may request, judged by the keys in force
      and the last text that was entered.
    * `Program.Obeys.play`: a program that obeys goes on obeying, whatever the
      replies.
    * `obeys_establishKeys`: the program for a participant without a configured
      key.
    * `shown_by_keys_when_taken`: every body on the wire, along every run. -/

namespace MessageBus

/-! ## What a program may request -/

/-- The text that a person enters. -/
def Reply.text? : Reply → Option String
  | entered (.ok text) => some text
  | _ => none

theorem requestAuth_ne_testAuth : Message.requestAuth.toFields ≠ Message.testAuth.toFields := by
  intro h
  have htype := congrArg (fun fields : Fields => fields.text? "type") h
  revert htype
  decide +kernel

/-- What the requests of a program are judged by. -/
structure Standing where
  /-- The keys in force. -/
  keys : KeySet
  /-- The last text that a person entered. -/
  answer? : Option String

namespace Standing

variable {s : Standing}

/-- Some keys are those in the last text that was entered. -/
def IsCandidate (s : Standing) (keys : KeySet) : Prop :=
  ∃ text, s.answer? = some text ∧ KeySet.parse (Text.trim text) = .ok keys

/-- A message may be sent: a request for keys while there are none, and a test under the keys that
were entered last. -/
def Allows (s : Standing) (contents : Fields) : Prop :=
  contents = Message.requestAuth.toFields ∧ s.keys = .empty ∨
    contents = Message.testAuth.toFields ∧ s.IsCandidate s.keys

/-- Some keys may be set: none, or those that were entered last. -/
def AllowsKeys (s : Standing) (keys : KeySet) : Prop := keys = .empty ∨ s.IsCandidate keys

theorem IsCandidate.ne_empty {keys : KeySet} (h : s.IsCandidate keys) : keys ≠ .empty := by
  rintro rfl
  obtain ⟨text, -, hparse⟩ := h
  exact (KeySet.usable_of_parse hparse).1 rfl

/-- Made into bodies under the keys that it was sent with, a request is in the clear and a test is
sealed. -/
theorem Allows.shown {contents : Fields} {text body : String}
    (hallows : s.Allows contents)
    (hshown : s.keys = .empty ∧ body = text ∨
      s.keys ≠ .empty ∧ Codec.SealedUnder s.keys text body) :
    (contents = Message.requestAuth.toFields → body = text) ∧
      (contents = Message.testAuth.toFields →
        s.IsCandidate s.keys ∧ Codec.SealedUnder s.keys text body) := by
  rcases hallows with ⟨hrequest, hempty⟩ | ⟨htest, hcandidate⟩
  · refine ⟨fun _ => ?_, fun htest => absurd (hrequest.symm.trans htest) requestAuth_ne_testAuth⟩
    obtain ⟨-, hclear⟩ := hshown.resolve_right fun h => h.1 hempty
    exact hclear
  · refine ⟨fun hrequest => absurd (hrequest.symm.trans htest) requestAuth_ne_testAuth, fun _ => ?_⟩
    obtain ⟨-, hsealed⟩ := hshown.resolve_left fun h => hcandidate.ne_empty h.1
    exact ⟨hcandidate, hsealed⟩

/-- The standing after a person was asked for a key. -/
def enter (s : Standing) (answer : BusResult String) : Standing :=
  { s with answer? := answer.toOption.or s.answer? }

/-- The standing after some replies, with what was asked of the connection on the way. -/
def after (s : Standing) (replies : List Reply) (calls : List Call) : Standing where
  keys := (calls.filterMap Call.keys?).getLast?.getD s.keys
  answer? := (replies.filterMap Reply.text?).getLast?.or s.answer?

theorem after_append (s : Standing) (replies replies' : List Reply) (calls calls' : List Call) :
    s.after (replies ++ replies') (calls ++ calls') =
      (s.after replies calls).after replies' calls' := by
  simp only [after, List.filterMap_append, List.getLast?_append, Option.or_assoc,
    Option.getD_or]

end Standing

namespace Program

variable {α : Type} {s : Standing}

/-- The program requests only what it may, whatever the answers. -/
inductive Obeys : Standing → Program α → Prop where
  | done {s : Standing} (a : α) : Obeys s (.done a)
  | queue {s : Standing} {contents : Fields} {next : BusResult Unit → Program α} :
      s.Allows contents → (∀ r, Obeys s (next r)) → Obeys s (.queue contents next)
  | await {s : Standing} {limit : Option Nat} {accepts : Message → Bool}
      {next : Awaited → Program α} :
      (∀ r, Obeys s (next r)) → Obeys s (.await limit accepts next)
  | sleep {s : Standing} {ms : Nat} {next : Program α} : Obeys s next → Obeys s (.sleep ms next)
  | setKeys {s : Standing} {keys : KeySet} {next : Program α} :
      s.AllowsKeys keys → Obeys { s with keys := keys } next → Obeys s (.setKeys keys next)
  | ask {s : Standing} {script : Option KeyAnswer} {next : BusResult String → Program α} :
      (∀ answer, Obeys (s.enter answer) (next answer)) → Obeys s (.ask script next)

variable {p p' : Program α}

/-- A program that obeys still does after the reply to its request. -/
theorem Obeys.after (h : Obeys s p) {r : Reply} {call? : Option Call}
    (hafter : p.after r = some (call?, p')) : Obeys (s.after [r] call?.toList) p' := by
  cases h with
  | done a => cases hafter
  | queue hallows hnext => cases r <;> cases hafter <;> exact hnext _
  | @await _ limit accepts next hnext =>
    cases r with
    | heard e =>
      cases hafter
      -- the wait goes on unless the message is accepted
      simp only [Program.afterEnvelope]
      split
      · exact hnext _
      · exact .await hnext
    | _ => cases limit <;> cases hafter <;> exact hnext _
  | sleep hnext =>
    cases r <;> cases hafter
    exact hnext
  | setKeys hallows hnext =>
    cases r <;> cases hafter
    exact hnext
  | @ask _ script next hnext =>
    cases r with
    | entered answer =>
      have hstanding : s.after [.entered answer] [] = s.enter answer := by cases answer <;> rfl
      -- without a script only a failure is an answer
      cases script <;> cases answer <;> cases hafter <;> exact hstanding ▸ hnext _
    | _ => cases script <;> cases hafter

/-- A program that obeys goes on obeying, whatever the replies. -/
theorem Obeys.play (h : Obeys s p) {replies : List Reply} {calls : List Call}
    (hplay : p.play replies = some (calls, p')) : Obeys (s.after replies calls) p' := by
  induction replies generalizing s p calls with
  | nil =>
    cases hplay
    exact h
  | cons r replies ih =>
    obtain ⟨call?, next, rest, hafter, hnext, rfl⟩ := play_cons_iff.1 hplay
    -- what the first reply makes of the standing is what the others start from
    rw [← List.singleton_append, Standing.after_append]
    exact ih (h.after hafter) hnext

end Program

namespace Handshake

open Program

/-! ## The program for a participant without a key -/

variable {s : Standing}

/-- What a participant does after a test: only when nobody confirmed the keys it asks again. -/
def afterTest (settings : Settings) (id : String) (rest : List KeyAnswer) :
    BusResult Unit → Program (BusResult Unit)
  | .ok _ => .done (.ok ())
  | .error .authTimeout => (requestUntilValid settings id rest).run
  | .error e => .done (.error e)

/-- What a participant does with keys that were entered. -/
def tryKeys (settings : Settings) (id : String) (rest : List KeyAnswer) (keys : KeySet) :
    Program (BusResult Unit) :=
  .setKeys keys (if settings.trustKey then .done (.ok ())
    else (askConfirmation id settings.authTimeout).bind (afterTest settings id rest))

/-- What a participant does with the text that was entered. -/
def tryText (settings : Settings) (id : String) (rest : List KeyAnswer) (text : String) :
    Program (BusResult Unit) :=
  match KeySet.parse (Text.trim text) with
  | .error e => .done (.error e)
  | .ok keys => tryKeys settings id rest keys

/-- One attempt to get keys. -/
theorem run_requestUntilValid (settings : Settings) (id : String) (answer : KeyAnswer)
    (rest : List KeyAnswer) :
    (requestUntilValid settings id (answer :: rest)).run =
      .setKeys .empty (.queue Message.requestAuth.toFields fun
        | .error e => .done (.error e)
        | .ok _ => .sleep requestSettle (.ask (some answer) fun
          | .error e => .done (.error e)
          | .ok text => tryText settings id rest text)) := by
  refine congrArg (Program.setKeys .empty) (queue_congr ?_ fun _ => rfl)
  refine congrArg (Program.sleep _) (ask_congr (fun text => ?_) fun _ => rfl)
  simp only [tryText, Program.bind, ExceptT.bindCont, pure, ExceptT.pure, ExceptT.mk]
  generalize KeySet.parse (Text.trim text) = parsed
  cases parsed with
  | error e => rfl
  | ok keys =>
    refine congrArg (Program.setKeys keys) ?_
    cases settings.trustKey with
    | true => rfl
    | false =>
      change Program.bind (Program.bind (testAuth id settings.authTimeout).run _) _ = _
      rw [run_testAuth]
      apply queue_congr
      · exact await_congr (fun _ => rfl) rfl rfl
      · intro e
        cases e <;> rfl

theorem obeys_afterTest {settings : Settings} {id : String} {rest : List KeyAnswer}
    (h : Obeys s (requestUntilValid settings id rest).run) (r : BusResult Unit) :
    Obeys s (afterTest settings id rest r) := by
  unfold afterTest
  split
  · exact .done _
  · exact h
  · exact .done _

/-- A test is sent under the keys that were entered last. -/
theorem obeys_tryText {settings : Settings} {id : String} {rest : List KeyAnswer}
    (h : ∀ s : Standing, Obeys s (requestUntilValid settings id rest).run) (text : String) :
    Obeys (s.enter (.ok text)) (tryText settings id rest text) := by
  unfold tryText
  split
  · exact .done _
  · next keys hparse =>
    have hcandidate : (s.enter (.ok text)).IsCandidate keys := ⟨text, rfl, hparse⟩
    refine .setKeys (.inr hcandidate) ?_
    split
    · exact .done _
    · refine .queue (.inr ⟨rfl, hcandidate⟩) fun sent => ?_
      cases sent with
      | error e => exact obeys_afterTest (h _) _
      | ok _ =>
        refine .await fun awaited => ?_
        cases awaited <;> exact obeys_afterTest (h _) _

/-- One attempt after another: the keys are taken away before the next request. -/
theorem obeys_requestUntilValid (settings : Settings) (id : String) (answers : List KeyAnswer) :
    Obeys s (requestUntilValid settings id answers).run := by
  induction answers generalizing s with
  | nil =>
    refine .setKeys (.inl rfl) (.queue (.inl ⟨rfl, rfl⟩) fun sent => ?_)
    cases sent with
    | error e => exact .done _
    | ok _ =>
      refine .sleep (.ask fun entered => ?_)
      cases entered <;> exact .done _
  | cons answer rest ih =>
    rw [run_requestUntilValid]
    refine .setKeys (.inl rfl) (.queue (.inl ⟨rfl, rfl⟩) fun sent => ?_)
    cases sent with
    | error e => exact .done _
    | ok _ =>
      refine .sleep (.ask fun entered => ?_)
      cases entered with
      | error e => exact .done _
      | ok text => exact obeys_tryText (fun _ => ih) text

/-- Whoever has no key configured requests only what it may. -/
theorem obeys_establishKeys {settings : Settings} (hnone : configuredKey? settings = none)
    (id : String) (role : Role) (answers : List KeyAnswer) :
    Obeys s (establishKeys settings id role answers).run := by
  rw [establishKeys, hnone]
  exact obeys_requestUntilValid settings id answers

/-- A participant that gets its keys: a caller of its connection. -/
abbrev Applicant := Caller (BusResult Unit)

namespace Applicant

open Caller (Journal Runs queue? dequeue? keysSet? queued dequeued written)

/-! ## Along a run -/

variable {p p₀ : Applicant} {journal : Journal (BusResult Unit)}
  {st : Stage Applicant (Nat × Caller.Move) Connection.Event}

/-- The texts that were entered, in order. -/
def entered (journal : Journal (BusResult Unit)) : List String :=
  (Caller.replies journal).filterMap Reply.text?

/-- The standing of a participant after a journal. -/
def standing (journal : Journal (BusResult Unit)) (p : Applicant) : Standing :=
  ⟨p.connection.keys, (entered journal).getLast?⟩

/-- A participant may go on with its program. -/
abbrev Disciplined (journal : Journal (BusResult Unit)) (p : Applicant) : Prop :=
  Obeys (standing journal p) p.program

/-- Along every run a participant without a configured key goes on as it may. -/
theorem disciplined {settings : Settings} (hnone : configuredKey? settings = none) {id : String}
    {role : Role} {answers : List KeyAnswer} {c : Connection}
    (h : Runs (.start c (establishKeys settings id role answers).run) journal p) :
    Disciplined journal p := by
  -- The run plays the program, and what judges the next request is read off the play.
  obtain ⟨calls, hplay, hkeys⟩ := Caller.keys_of_play h rfl
  have hobeys : Obeys (Standing.after ⟨c.keys, none⟩ (Caller.replies journal) calls) p.program :=
    (obeys_establishKeys hnone id role answers).play hplay
  rw [Disciplined, standing, hkeys]
  simpa only [Standing.after, Option.or_none, entered, Caller.start] using hobeys

/-- A message is sent only while it may be. -/
theorem allows_of_queue {o : Outgoing} (h : Disciplined journal st.before)
    (hq : queue? st = some o) : (standing journal st.before).Allows o.contents := by
  obtain ⟨next, hprogram | hprogram⟩ := Caller.program_of_queue hq
  · rw [Disciplined, hprogram] at h
    cases h with
    | queue hallows => exact hallows
  · rw [Disciplined, hprogram] at h
    cases h

/-- Keys are set only when they may be. -/
theorem allowsKeys_of_keysSet {keys : KeySet} (h : Disciplined journal st.before)
    (hset : keysSet? st = some keys) : (standing journal st.before).AllowsKeys keys := by
  obtain ⟨next, hprogram⟩ := Caller.program_of_keysSet hset
  rw [Disciplined, hprogram] at h
  cases h with
  | setKeys hallows => exact hallows

/-- The keys that are entered are those of one of the texts. -/
def IsEntered (journal : Journal (BusResult Unit)) (keys : KeySet) : Prop :=
  ∃ text ∈ entered journal, KeySet.parse (Text.trim text) = .ok keys

theorem IsEntered.append {keys : KeySet} (h : IsEntered journal keys)
    (after : Journal (BusResult Unit)) : IsEntered (journal ++ after) keys := by
  obtain ⟨text, htext, hparse⟩ := h
  refine ⟨text, ?_, hparse⟩
  rw [entered, Caller.replies_append, List.filterMap_append]
  exact List.mem_append_left _ htext

theorem isEntered_of_isCandidate {keys : KeySet}
    (h : (standing journal p).IsCandidate keys) : IsEntered journal keys := by
  obtain ⟨text, hlast, hparse⟩ := h
  exact ⟨text, List.mem_of_getLast? hlast, hparse⟩

/-- What a participant sets its keys to was entered before. -/
theorem isEntered_of_keysSet {settings : Settings} (hnone : configuredKey? settings = none)
    {id : String} {role : Role} {answers : List KeyAnswer} {c : Connection} {keys : KeySet}
    (h : Runs (.start c (establishKeys settings id role answers).run) journal p)
    (hst : st ∈ journal) (hset : keysSet? st = some keys) :
    keys = .empty ∨ IsEntered journal keys := by
  obtain ⟨before, after, rfl⟩ := List.append_of_mem hst
  rcases allowsKeys_of_keysSet (disciplined hnone (h.split rfl).1) hset with hempty | hcandidate
  · exact .inl hempty
  · exact .inr ((isEntered_of_isCandidate hcandidate).append _)

/-! ## Main theorem -/

/-- Every body on the wire is of a request for keys that was sent while there were none, or of a
test that was sent under the keys which were entered last.  The queue keeps its order.

A body shows the keys of the moment when its message was taken from the queue: without keys it is
the text of the message, otherwise it is sealed under keys that were entered before.  If no keys
were set in the meantime, a request is in the clear and a test is sealed under the keys that it
tests. -/
theorem shown_by_keys_when_taken {settings : Settings} (hnone : configuredKey? settings = none)
    {id : String} {role : Role} {answers : List KeyAnswer} {codec : Codec}
    {capacity delay began : Nat} {keys : KeySet}
    (h : Runs (.start (.start codec capacity delay keys began)
      (establishKeys settings id role answers).run) journal p)
    {body : String} (hbody : body ∈ written journal) :
    ∃ (front between after : Journal (BusResult Unit))
      (sending taking : Stage Applicant (Nat × Caller.Move) Connection.Event)
      (d : Connection.Dequeue),
      journal = front ++ sending :: between ++ taking :: after ∧
      queue? sending = some d.message ∧ dequeue? taking = some d ∧
      (queued front).length = (dequeued (front ++ sending :: between)).length ∧
      (standing front sending.before).Allows d.message.contents ∧
      (d.keys = .empty ∧ body = (codec.tag d.occasion.sent d.message.contents).write ∨
        IsEntered (front ++ sending :: between) d.keys ∧
          Codec.SealedUnder d.keys (codec.tag d.occasion.sent d.message.contents).write body) ∧
      ((∀ st ∈ between, keysSet? st = none) →
        (d.message.contents = Message.requestAuth.toFields →
          body = (codec.tag d.occasion.sent d.message.contents).write) ∧
        (d.message.contents = Message.testAuth.toFields →
          (standing front sending.before).IsCandidate d.keys ∧
          Codec.SealedUnder d.keys (codec.tag d.occasion.sent d.message.contents).write body)) := by
  obtain ⟨before, taking, after, d, bodies, rfl, hdequeue, hprepare, hmem⟩ :=
    Caller.exists_dequeue_of_written h hbody
  obtain ⟨front, sending, between, rfl, hqueue, hcount⟩ := Caller.exists_queued h hdequeue
  have hbefore := (h.split rfl).1
  have hallows := allows_of_queue (disciplined hnone (hbefore.split rfl).1) hqueue
  have hsince := Caller.keys_since_queue hbefore hqueue
  rw [← Caller.keys_of_dequeue hdequeue] at hsince
  have hshown := Codec.shown_of_prepare hprepare hmem
  refine ⟨front, between, after, sending, taking, d, rfl, hqueue, hdequeue, hcount, hallows, ?_, ?_⟩
  -- Sealed under keys: either those in force when the message was sent, and then it is a test, or
  -- those that were set since.
  · rcases hshown with hclear | ⟨hsome, hsealed⟩
    · exact .inl hclear
    · refine .inr ⟨?_, hsealed⟩
      rcases hsince with hsame | ⟨st, hst, hset⟩
      · rw [hsame] at hsome ⊢
        rcases hallows with ⟨-, hempty⟩ | ⟨-, hcandidate⟩
        · exact absurd hempty hsome
        · exact (isEntered_of_isCandidate hcandidate).append _
      · exact (isEntered_of_keysSet hnone hbefore (by simp [hst]) hset).resolve_left hsome
  · intro hundisturbed
    -- Undisturbed, the message is made into bodies under the keys that it was sent with.
    have hsame : d.keys = sending.before.connection.keys := by
      rcases hsince with hsame | ⟨st, hst, hset⟩
      · exact hsame
      · rw [hundisturbed st hst] at hset
        cases hset
    rw [hsame] at hshown ⊢
    exact hallows.shown hshown

/-! ## A newcomer -/

/-- A key, as a person enters it. -/
def pastedKey : String := "0123456789abcdefghijklmnopqrstuv"

/-- The codec of the newcomer. -/
def newcomerCodec : Codec := ⟨"c", ⟨none, none⟩⟩

/-- The text of a message of the newcomer. -/
def newcomerText (m : Message) : String := (newcomerCodec.tag default m.toFields).write

/-- The connection of the newcomer, which makes no pauses. -/
def newcomerConnection : Connection := .start newcomerCodec 4 0 .empty 0

/-- A participant at the start. -/
def newcomer : Applicant :=
  .start newcomerConnection (establishKeys .default "c" .client [.text pastedKey]).run

/-- The newcomer asks a person for a key. -/
def prompting : Program (BusResult Unit) :=
  .ask (some (.text pastedKey)) fun
    | .error e => .done (.error e)
    | .ok text => tryText .default "c" [] text

/-- The newcomer sends its request for keys. -/
def requesting : Program (BusResult Unit) :=
  .queue Message.requestAuth.toFields fun
    | .error e => .done (.error e)
    | .ok _ => .sleep requestSettle prompting

/-- The newcomer tests the keys that were entered. -/
def testing : Program (BusResult Unit) :=
  (askConfirmation "c" 10000).bind (afterTest .default "c" [])

/-- The newcomer waits for the keys to be confirmed. -/
def waiting : Program (BusResult Unit) :=
  (awaitConfirmation "c" 10000).bind (afterTest .default "c" [])

theorem newcomer_eq : newcomer = .start newcomerConnection (.setKeys .empty requesting) :=
  congrArg (Caller.start _) (run_requestUntilValid ..)

theorem tryText_pastedKey :
    tryText .default "c" [] pastedKey = .setKeys ⟨[pastedKey]⟩ testing := by
  have hparse : KeySet.parse (Text.trim pastedKey) = .ok ⟨[pastedKey]⟩ := by decide +kernel
  rw [tryText, hparse]
  rfl

/-- A message of the newcomer can be sealed under the key, with any block of random bytes. -/
theorem prepare_pastedKey (m : Message) (iv : List UInt8) :
    ∃ sealed, newcomerCodec.prepare ⟨default, [iv]⟩ m.toFields ⟨[pastedKey]⟩ = .ok [sealed] ∧
      Codec.SealedUnder ⟨[pastedKey]⟩ (newcomerText m) sealed ∧ sealed ≠ newcomerText m := by
  have hsize : Aes.isKeySize (utf8 pastedKey).length = true := by decide +kernel
  obtain ⟨sealed, hclose⟩ := Sealed.close_ok hsize iv (utf8 (newcomerText m))
  refine ⟨sealed, ?_, ⟨pastedKey, List.mem_singleton_self _, _, hclose⟩,
    Codec.ne_write_of_close hclose⟩
  simp [Codec.prepare, KeySet.isEmpty, Codec.sealAll, newcomerText] at hclose ⊢
  rw [hclose]

/-- The connection of the newcomer when the key is set, with what waits in its queues. -/
def keyed (inbound : List Envelope) (outbound : List Outgoing) : Connection :=
  { newcomerConnection with keys := ⟨[pastedKey]⟩, inbound := inbound, outbound := outbound }

theorem step_prepare {m : Message} {iv : List UInt8} {sealed : String} {inbound : List Envelope}
    {rest : List Outgoing} {program : Program (BusResult Unit)}
    (hprepare : newcomerCodec.prepare ⟨default, [iv]⟩ m.toFields ⟨[pastedKey]⟩ = .ok [sealed]) :
    Caller.step (.start (keyed inbound (⟨m.toFields, none⟩ :: rest)) program)
        (0, .work (.prepare ⟨default, [iv]⟩)) =
      some (.start { keyed inbound rest with inFlight := some ⟨[sealed], 0, none⟩ } program,
        [.prepared ⟨m.toFields, none⟩ [sealed]]) := by
  simp [Caller.step, Caller.turn?, Caller.start, Connection.act, Connection.Action.isByCaller,
    Connection.step, Connection.prepareNext, keyed, newcomerConnection, Connection.start, hprepare,
    Flush.heed]

/-- The link of the newcomer is up while it asks for keys, is given some and tests them. -/
theorem runs_newcomer :
    ∃ (journal : Journal (BusResult Unit)) (p : Applicant) (sealed : String),
      Runs newcomer journal p ∧ written journal = [newcomerText .requestAuth, sealed] ∧
      Codec.SealedUnder ⟨[pastedKey]⟩ (newcomerText .testAuth) sealed := by
  obtain ⟨sealed, hprepare, hunder, -⟩ := prepare_pastedKey .testAuth (List.replicate 16 0)
  let request : Outgoing := ⟨Message.requestAuth.toFields, none⟩
  let test : Outgoing := ⟨Message.testAuth.toFields, none⟩
  -- the request is written before anybody is asked for a key
  have hset : Caller.step newcomer (0, .proceed) =
      some (.start newcomerConnection requesting, []) := by
    rw [newcomer_eq]
    rfl
  have hqueued : Caller.step (.start newcomerConnection requesting) (0, .proceed) =
      some (.start { newcomerConnection with outbound := [request] }
        (.sleep requestSettle prompting), []) := rfl
  have hprepared : Caller.step (.start { newcomerConnection with outbound := [request] }
      (.sleep requestSettle prompting)) (0, .work (.prepare default)) =
      some (.start { newcomerConnection with
          inFlight := some ⟨[newcomerText .requestAuth], 0, none⟩ }
        (.sleep requestSettle prompting), [.prepared request [newcomerText .requestAuth]]) := rfl
  have hasked : Runs newcomer _ (.start newcomerConnection (tryText .default "c" [] pastedKey)) :=
    ((((((Run.start.move hset).move hqueued).move hprepared).move
      (m := (0, .work (.write true))) rfl).move (m := (0, .work .finish)) rfl).move
      (m := (0, .reply .rested)) rfl).move (m := (0, .reply (.entered (.ok pastedKey)))) rfl
  -- the key is set, and nothing changes it before the test is written
  have hkeyed : Caller.step (.start newcomerConnection (tryText .default "c" [] pastedKey))
      (0, .proceed) = some (.start (keyed [] []) testing, []) := by
    rw [tryText_pastedKey]
    rfl
  have htested : Caller.step (.start (keyed [] []) testing) (0, .proceed) =
      some (.start (keyed [] [test]) waiting, []) := rfl
  refine ⟨_, _, sealed, (((hasked.move hkeyed).move htested).move (step_prepare hprepare)).move
    (m := (0, .work (.write true))) rfl, ?_, hunder⟩
  simp only [written, eventsOf_snoc]
  rfl

/-- The newcomer's request for keys is on the wire in the clear, and its test is sealed under the
key that was entered. -/
theorem shown_by_keys_when_taken_newcomer :
    ∃ (journal : Journal (BusResult Unit)) (p : Applicant) (sealed : String),
      configuredKey? .default = none ∧ Runs newcomer journal p ∧
      written journal = [newcomerText .requestAuth, sealed] ∧
      Codec.SealedUnder ⟨[pastedKey]⟩ (newcomerText .testAuth) sealed ∧
      ∀ body ∈ written journal,
        ∃ (front between after : Journal (BusResult Unit))
          (sending taking : Stage Applicant (Nat × Caller.Move) Connection.Event)
          (d : Connection.Dequeue),
          journal = front ++ sending :: between ++ taking :: after ∧
          queue? sending = some d.message ∧ dequeue? taking = some d ∧
          (queued front).length = (dequeued (front ++ sending :: between)).length ∧
          (standing front sending.before).Allows d.message.contents ∧
          (d.keys = .empty ∧ body = (newcomerCodec.tag d.occasion.sent d.message.contents).write ∨
            IsEntered (front ++ sending :: between) d.keys ∧
              Codec.SealedUnder d.keys (newcomerCodec.tag d.occasion.sent d.message.contents).write
                body) ∧
          ((∀ st ∈ between, keysSet? st = none) →
            (d.message.contents = Message.requestAuth.toFields →
              body = (newcomerCodec.tag d.occasion.sent d.message.contents).write) ∧
            (d.message.contents = Message.testAuth.toFields →
              (standing front sending.before).IsCandidate d.keys ∧
              Codec.SealedUnder d.keys (newcomerCodec.tag d.occasion.sent d.message.contents).write
                body)) := by
  obtain ⟨journal, p, sealed, hrun, hwritten, hunder⟩ := runs_newcomer
  have hnone : configuredKey? .default = none := rfl
  have hstart : Runs (.start (.start newcomerCodec 4 0 .empty 0)
      (establishKeys .default "c" .client [.text pastedKey]).run) journal p := hrun
  refine ⟨journal, p, sealed, hnone, hrun, hwritten, hunder, ?_⟩
  intro body hbody
  exact shown_by_keys_when_taken hnone hstart hbody

/-- The link of the newcomer is down while it asks for keys, is given some and tests them.  So its
request goes out sealed under the keys that it was to bring.  The test waits until it is given up,
and goes out in the clear. -/
theorem request_sealed_test_in_the_clear :
    ∃ (journal : Journal (BusResult Unit)) (p : Applicant) (sealed : String),
      configuredKey? .default = none ∧ Runs newcomer journal p ∧
      eventsOf journal =
        [.delivered .reconnected,
          .prepared ⟨Message.requestAuth.toFields, none⟩ [sealed], .wrote sealed, .completed none,
          .prepared ⟨Message.testAuth.toFields, none⟩ [newcomerText .testAuth],
          .wrote (newcomerText .testAuth)] ∧
      Codec.SealedUnder ⟨[pastedKey]⟩ (newcomerText .requestAuth) sealed ∧
      sealed ≠ newcomerText .requestAuth := by
  obtain ⟨sealed, hprepare, hunder, hne⟩ := prepare_pastedKey .requestAuth (List.replicate 16 0)
  let request : Outgoing := ⟨Message.requestAuth.toFields, none⟩
  let test : Outgoing := ⟨Message.testAuth.toFields, none⟩
  let again : Program (BusResult Unit) := (requestKey none >>= fun _ => throw .closed).run
  let opening : Connection := { newcomerConnection with phase := .opening }
  -- the link is down, and the request waits
  have hlost : Caller.step newcomer (0, .work .loseLink) =
      some (.start opening (.setKeys .empty requesting), []) := by
    rw [newcomer_eq]
    rfl
  have hqueued : Caller.step (.start opening requesting) (0, .proceed) =
      some (.start { opening with outbound := [request] } (.sleep requestSettle prompting), []) :=
    rfl
  have hentered : Runs newcomer _
      (.start { opening with outbound := [request] } (tryText .default "c" [] pastedKey)) :=
    ((((Run.start.move hlost).move (m := (0, .proceed)) rfl).move hqueued).move
      (m := (0, .reply .rested)) rfl).move (m := (0, .reply (.entered (.ok pastedKey)))) rfl
  -- the keys are set, and the test waits behind the request
  have hset : Caller.step
      (.start { opening with outbound := [request] } (tryText .default "c" [] pastedKey))
      (0, .proceed) =
      some (.start { opening with outbound := [request], keys := ⟨[pastedKey]⟩ } testing, []) := by
    rw [tryText_pastedKey]
    rfl
  have hreopened : Runs newcomer _ (.start (keyed [.reconnected] [request, test]) waiting) :=
    (((hentered.move hset).move (m := (0, .proceed)) rfl).move
      (m := (0, .work (.opened true))) rfl).move (m := (0, .work .announce)) rfl
  have hwrote : Runs newcomer _ (.start (keyed [.reconnected] [test]) waiting) :=
    ((hreopened.move (step_prepare hprepare)).move (m := (0, .work (.write true))) rfl).move
      (m := (0, .work .finish)) rfl
  -- nobody answers, and the keys are taken away
  have hclear : Caller.step
      (.start { keyed [.reconnected] [test] with keys := .empty } again)
      (0, .work (.prepare default)) =
      some (.start { keyed [.reconnected] [] with
          keys := .empty, inFlight := some ⟨[newcomerText .testAuth], 0, none⟩ } again,
        [.prepared test [newcomerText .testAuth]]) := rfl
  have hend := (((hwrote.move (m := (0, .reply .expired)) rfl).move (m := (0, .proceed)) rfl).move
    hclear).move (m := (0, .work (.write true))) rfl
  refine ⟨_, _, sealed, rfl, hend, ?_, hunder, hne⟩
  simp only [eventsOf_snoc]
  rfl

end Applicant

end Handshake

end MessageBus
