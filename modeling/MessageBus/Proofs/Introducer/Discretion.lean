import MessageBus.Proofs.Introducer.Network
import MessageBus.Proofs.Message.Locality
import Mathlib.Data.List.Forall2

/-! # Keys stay out of what an introducer says

    An introducer that is asked for its keys puts them on the clipboard, for a
    person to hand on.  Over the bus it says what any other introducer would say
    in its place, whatever keys that one has: neither its election nor any of
    its confirmations depends on them.

    What an introducer goes through is a diary: the start, silences, and the
    envelopes that it takes, each with how its deeds end at that moment.  How
    copying the keys ends may well depend on the keys.

    * `face_of_not_asks`, `face_of_asks`: the keys matter only to who is asked
      for them.
    * `said_eq_of_alike`: two introducers with different keys say the same. -/

namespace MessageBus.Introducer

/-! ## The life of an introducer -/

/-- What an introducer is faced with, and how its deeds end then. -/
inductive Occurrence where
  | startup
  | silence
  | received (envelope : Envelope) (succeeds : Deed → Bool)

/-- The reaction to an occurrence. -/
def face (keys : KeySet) (e : Election) : Occurrence → Election × List Effect
  | .startup => observe e .startup
  | .silence => observe e .silence
  | .received envelope succeeds => receive keys succeeds e envelope

/-- What an introducer with some keys does next. -/
def live (keys : KeySet) (e : Election) (o : Occurrence) : Option (Election × List Effect) :=
  some (face keys e o)

/-- What an introducer went through and did. -/
abbrev Diary := List (Stage Election Occurrence Effect)

/-- Some keys and a level lead to a diary and a state of the election. -/
abbrev Lives (keys : KeySet) (level : Binary64) (diary : Diary) (e : Election) : Prop :=
  Run (live keys) (.start level) diary e

/-- The messages that an introducer handed to its connection, in order. -/
def said (diary : Diary) : List Message := (eventsOf diary).filterMap Effect.message?

@[simp] theorem said_snoc (diary : Diary) (st : Stage Election Occurrence Effect) :
    said (diary ++ [st]) = said diary ++ st.events.filterMap Effect.message? := by
  simp [said]

/-! ## Requests for keys -/

/-- Whether an envelope is a request for keys by somebody. -/
def isKeyRequest (envelope : Envelope) : Bool :=
  match envelope.message, envelope.sender? with
  | .ok .requestAuth, some _ => true
  | _, _ => false

/-- Whether an introducer in some state is asked for its keys. -/
def asks (e : Election) : Occurrence → Bool
  | .received envelope _ => e.isActive && isKeyRequest envelope
  | _ => false

/-- What an introducer does with its keys when it is asked for them. -/
def handOver (keys : KeySet) : Occurrence → List Effect
  | .received _ succeeds =>
    if keys.isEmpty then [] else [.did (.copy keys.joined) (succeeds (.copy keys.joined))]
  | _ => []

variable {keys keys₁ keys₂ : KeySet} {e e₁ e₂ : Election} {o o₁ o₂ : Occurrence}

/-- The signal that the link is up again asks for nothing. -/
theorem message_of_isReconnected {envelope : Envelope} (h : envelope.isReconnected = true) :
    envelope.message = .ok .reconnected := by
  simp only [Envelope.isReconnected, Bool.and_eq_true, beq_iff_eq] at h
  exact Envelope.message_of_memberless rfl h.2

theorem isReconnected_of_message {envelope : Envelope} {m : Message}
    (h : envelope.message = .ok m) (hm : m ≠ .reconnected) : envelope.isReconnected = false := by
  rw [← Bool.not_eq_true]
  intro hsignal
  rw [message_of_isReconnected hsignal] at h
  exact hm (Except.ok.inj h).symm

/-- Whoever is not asked for its keys acts as it would with any others. -/
theorem face_of_not_asks (h : asks e o = false) (keys₁ keys₂ : KeySet) :
    face keys₁ e o = face keys₂ e o := by
  cases o with
  | startup | silence => rfl
  | received envelope succeeds =>
    cases hmessage : envelope.message with
    | error err => simp only [face, receive, hmessage]
    | ok m =>
      by_cases hm : m = .requestAuth
      · subst hm
        -- the request is ignored on standby, and when nobody makes it
        cases hactive : e.isActive <;> cases hsender : envelope.sender? <;>
          simp_all [face, receive, asks, isKeyRequest]
      · cases m <;> first | exact absurd rfl hm | simp only [face, receive, hmessage, serve]

/-- Whoever is asked for its keys copies them, if it has any, and says nothing. -/
theorem face_of_asks (h : asks e o = true) (keys : KeySet) :
    face keys e o = (e, handOver keys o) := by
  cases o with
  | startup | silence => cases h
  | received envelope succeeds =>
    simp only [asks, isKeyRequest, Bool.and_eq_true] at h
    obtain ⟨hactive, hrequest⟩ := h
    split at hrequest
    · next origin hmessage hsender =>
      have hbus := isReconnected_of_message hmessage nofun
      simp only [face, receive, hbus, hmessage, hactive, hsender, handOver]
      cases hkeys : keys.isEmpty <;> simp [serve, perform, hkeys]
    · cases hrequest

/-- Copying is nothing that is said. -/
theorem said_handOver (keys : KeySet) (o : Occurrence) :
    (handOver keys o).filterMap Effect.message? = [] := by
  cases o with
  | startup | silence => rfl
  | received envelope succeeds =>
    simp only [handOver]
    split <;> rfl

/-! ## Two lives -/

/-- Two occurrences that are the same, except perhaps for how copying the keys
    would end. -/
inductive Alike : Occurrence → Occurrence → Prop where
  | startup : Alike .startup .startup
  | silence : Alike .silence .silence
  | received {envelope : Envelope} {succeeds₁ succeeds₂ : Deed → Bool} :
      (envelope.message ≠ .ok .requestAuth → succeeds₁ = succeeds₂) →
      Alike (.received envelope succeeds₁) (.received envelope succeeds₂)

/-- What shows of the keys at one stage of two lives: nothing, unless the
    introducer is asked for them. -/
structure Shows (keys₁ keys₂ : KeySet) (st₁ st₂ : Stage Election Occurrence Effect) : Prop where
  before : st₁.before = st₂.before
  unasked : asks st₁.before st₁.move = false → st₁.events = st₂.events
  asked : asks st₁.before st₁.move = true →
    st₁.events = handOver keys₁ st₁.move ∧ st₂.events = handOver keys₂ st₂.move

theorem Alike.asks (h : Alike o₁ o₂) (e : Election) : asks e o₁ = asks e o₂ := by
  cases h <;> rfl

/-- Alike occurrences have the same effects on who is not asked for its keys. -/
theorem Alike.face_of_not_asks (h : Alike o₁ o₂) (hasks : Introducer.asks e o₁ = false)
    (keys : KeySet) : face keys e o₁ = face keys e o₂ := by
  cases h with
  | startup | silence => rfl
  | @received envelope succeeds₁ succeeds₂ hother =>
    by_cases hrequest : envelope.message = .ok .requestAuth
    · cases hactive : e.isActive <;> cases hsender : envelope.sender? <;>
        simp_all [face, receive, Introducer.asks, isKeyRequest]
    · rw [hother hrequest]

/-- Alike occurrences lead to the same state and the same messages. -/
theorem shows_of_alike (h : Alike o₁ o₂) (e : Election) (keys₁ keys₂ : KeySet) :
    (face keys₁ e o₁).1 = (face keys₂ e o₂).1 ∧
      (face keys₁ e o₁).2.filterMap Effect.message?
        = (face keys₂ e o₂).2.filterMap Effect.message? ∧
      Shows keys₁ keys₂ ⟨e, o₁, (face keys₁ e o₁).2⟩ ⟨e, o₂, (face keys₂ e o₂).2⟩ := by
  cases hasks : asks e o₁ with
  | false =>
    have hsame : face keys₁ e o₁ = face keys₂ e o₂ :=
      (face_of_not_asks hasks keys₁ keys₂).trans (h.face_of_not_asks hasks keys₂)
    rw [hsame]
    refine ⟨rfl, rfl, rfl, fun _ => rfl, fun hasked => ?_⟩
    rw [hasks] at hasked
    cases hasked
  | true =>
    have hasks₂ : asks e o₂ = true := (h.asks e).symm.trans hasks
    rw [face_of_asks hasks, face_of_asks hasks₂]
    refine ⟨rfl, by rw [said_handOver, said_handOver], rfl, fun hother => ?_, fun _ => ⟨rfl, rfl⟩⟩
    rw [hasks] at hother
    cases hother

theorem forall₂_snoc_left {α β : Type} {R : α → β → Prop} {as : List α} {a : α} {bs : List β}
    (h : List.Forall₂ R (as ++ [a]) bs) :
    ∃ front b, bs = front ++ [b] ∧ List.Forall₂ R as front ∧ R a b := by
  induction as generalizing bs with
  | nil =>
    obtain ⟨b, _, hab, hnil, rfl⟩ := List.forall₂_cons_left_iff.mp h
    exact ⟨[], b, by rw [List.forall₂_nil_left_iff.mp hnil]; rfl, .nil, hab⟩
  | cons x as ih =>
    obtain ⟨y, ys, hxy, hrest, rfl⟩ := List.forall₂_cons_left_iff.mp h
    obtain ⟨front, b, rfl, hfront, hab⟩ := ih hrest
    exact ⟨y :: front, b, rfl, .cons hxy hfront, hab⟩

/-! ## Main theorem -/

/-- Two introducers of the same level that go through the same say the same, whatever keys
they have, and their elections take the same course.  Their deeds are the same as well, except where
one in office is asked for its keys by somebody: then all that it does is to copy its keys to the
clipboard, if it has any. -/
theorem said_eq_of_alike {level : Binary64} {keys₁ keys₂ : KeySet} {diary₁ diary₂ : Diary}
    {e₁ e₂ : Election} (h₁ : Lives keys₁ level diary₁ e₁) (h₂ : Lives keys₂ level diary₂ e₂)
    (halike : List.Forall₂ (fun st₁ st₂ => Alike st₁.move st₂.move) diary₁ diary₂) :
    said diary₁ = said diary₂ ∧ e₁ = e₂ ∧ List.Forall₂ (Shows keys₁ keys₂) diary₁ diary₂ := by
  induction h₁ generalizing diary₂ e₂ with
  | start =>
    obtain rfl := List.forall₂_nil_left_iff.mp halike
    exact ⟨rfl, (Run.of_nil h₂).symm, .nil⟩
  | @move diary₁ e e₁ o₁ effects₁ _ hstep ih =>
    -- Both lives are cut before their last occurrence, up to which the states agree.
    obtain ⟨front, ⟨e', o₂, effects₂⟩, rfl, hfront, hmove⟩ := forall₂_snoc_left halike
    obtain ⟨hrun, hstep₂⟩ := h₂.of_snoc
    obtain ⟨hsaid, rfl, hshows⟩ := ih hrun hfront
    obtain ⟨hstate, hmessages, hshow⟩ := shows_of_alike hmove e keys₁ keys₂
    have hface₁ : face keys₁ e o₁ = (e₁, effects₁) := Option.some.inj hstep
    have hface₂ : face keys₂ e o₂ = (e₂, effects₂) := Option.some.inj hstep₂
    rw [hface₁, hface₂] at hstate hmessages hshow
    refine ⟨?_, hstate, ?_⟩
    · rw [said_snoc, said_snoc, hsaid, hmessages]
    · exact List.rel_append hshows (.cons hshow .nil)

/-- A message of a client, as others receive it. -/
def fromClient (m : Message) : Envelope := .received (m.toFields.insert "id" (.str "client")) ""

/-- One introducer has a key and the other has none.  Both are asked for keys, and the one that has
a key fails to copy it; then both copy a text. -/
theorem said_eq_of_alike_keyless :
    ∃ (diary₁ diary₂ : Diary) (e₁ e₂ : Election),
      Lives ⟨["0123456789abcdef"]⟩ Binary64.zero diary₁ e₁ ∧
      Lives .empty Binary64.zero diary₂ e₂ ∧
      List.Forall₂ (fun st₁ st₂ => Alike st₁.move st₂.move) diary₁ diary₂ ∧
      eventsOf diary₁ = [.send (.introducerPresent Binary64.zero), .send .introducerRollCall,
        .did (.copy "0123456789abcdef") false, .did (.copy "hi") true,
        .send (.dataCopied "client")] ∧
      eventsOf diary₂ = [.send (.introducerPresent Binary64.zero), .send .introducerRollCall,
        .did (.copy "hi") true, .send (.dataCopied "client")] ∧
      said diary₁ = said diary₂ ∧ e₁ = e₂ ∧
      List.Forall₂ (Shows ⟨["0123456789abcdef"]⟩ .empty) diary₁ diary₂ := by
  have hstart : ∀ keys : KeySet, live keys (.start Binary64.zero) .startup
      = some (⟨true, Binary64.zero⟩, [.send (.introducerPresent Binary64.zero),
        .send .introducerRollCall]) := fun _ => rfl
  have hkeyed : live ⟨["0123456789abcdef"]⟩ ⟨true, Binary64.zero⟩
      (.received (fromClient .requestAuth) fun _ => false)
      = some (⟨true, Binary64.zero⟩, [.did (.copy "0123456789abcdef") false]) := by
    decide +kernel
  have hkeyless : live .empty ⟨true, Binary64.zero⟩
      (.received (fromClient .requestAuth) fun _ => true)
      = some (⟨true, Binary64.zero⟩, []) := by
    decide +kernel
  have hcopy : ∀ keys : KeySet, live keys ⟨true, Binary64.zero⟩
      (.received (fromClient (.copyData "hi")) fun _ => true)
      = some (⟨true, Binary64.zero⟩, [.did (.copy "hi") true, .send (.dataCopied "client")]) := by
    intro keys
    have hasks : asks ⟨true, Binary64.zero⟩
        (.received (fromClient (.copyData "hi")) fun _ => true) = false := by
      decide +kernel
    rw [live, face_of_not_asks hasks keys .empty]
    decide +kernel
  have h₁ := ((Run.start.move (hstart ⟨["0123456789abcdef"]⟩)).move hkeyed).move (hcopy _)
  have h₂ := ((Run.start.move (hstart .empty)).move hkeyless).move (hcopy _)
  have hrequest : (fromClient .requestAuth).message = .ok .requestAuth := by decide +kernel
  refine ⟨_, _, _, _, h₁, h₂, ?_, rfl, rfl, said_eq_of_alike h₁ h₂ ?_⟩ <;>
    exact .cons .startup (.cons (.received fun hother => absurd hrequest hother)
      (.cons (.received fun _ => rfl) .nil))

end MessageBus.Introducer
