import Mathlib.Data.List.Perm.Basic
import MessageBus.Proofs.Introducer.Network

/-! # The bus falls silent

    Introducers answer each other: a roll call makes everyone announce itself, and
    everyone gets to hear of that.  But nobody answers an announcement, so what is
    on the way when nothing else happens any more settles what is yet to come,
    in whichever order it is handled.

    What carries the argument is a weight: an announcement on the way is one
    thing to handle, a roll call is one and all that its answer makes.  Each
    delivery takes away one, and more only where an introducer would hear its own
    roll call, which it ignores.

    A message goes over the bus as one body for each key, and each of them is
    handled on its own.  Everything is counted by bodies, and `copies` is how many
    bodies a message has.

    * `deliver_cases`: what a delivery adds.
    * `weight_step`: what it takes away.
    * `weight_run`: what is left after any deliveries.
    * `isCarriedBy_broadcasts`: what a message goes over the bus as.
    * `deliveries_le`: how many deliveries there can be. -/

namespace MessageBus.Introducer

/-! ## Introducers that only answer -/

/-- A body that is on the way to an introducer. -/
structure Letter where
  recipient : String
  body : Broadcast

/-- Introducers, known by their ids, and what is on the way to any of them. -/
structure Assembly where
  host : String → HostInfo
  election : String → Election
  pending : List Letter

/-- A delivery: which of the letters on the way is handled, whether deeds
    succeed, and the bodies that the messages it triggers are made into. -/
structure Delivery where
  index : Nat
  succeeds : Deed → Bool
  bodies : Message → List Broadcast

/-- Whether some bodies are what a message goes over the bus as. -/
def isCarriedBy (keys : KeySet) (copies : Nat) (sender : Codec) (message : Message)
    (bodies : List Broadcast) : Bool :=
  bodies.length = copies &&
    bodies.all fun b => b.sender = sender && b.message = message && b.isLegible keys

namespace Assembly

section
variable (keys : KeySet) (ids : List String) (copies : Nat)

/-- Some bodies on the way to everyone but their sender. -/
def toOthers (sender : String) (bodies : List Broadcast) : List Letter :=
  (ids.erase sender).flatMap fun other => bodies.map fun b => ⟨other, b⟩

/-- The reaction of the recipient of a letter. -/
def reaction (s : Assembly) (succeeds : Deed → Bool) (letter : Letter) : Election × List Effect :=
  hear ⟨letter.recipient, s.host letter.recipient⟩ keys succeeds (s.election letter.recipient)
    (utf8 letter.body.body)

/-- The transition for a delivery: the recipient reacts, and what it broadcasts is
    on the way to all the others. -/
def step (s : Assembly) (d : Delivery) : Option (Assembly × List Letter) :=
  match s.pending[d.index]? with
  | none => none
  | some letter =>
    let sender : Codec := ⟨letter.recipient, s.host letter.recipient⟩
    let (e, effects) := s.reaction keys d.succeeds letter
    let messages := effects.filterMap Effect.message?
    if messages.all fun m => isCarriedBy keys copies sender m (d.bodies m) then
      some ({ s with
        election := fun id => if id = letter.recipient then e else s.election id
        pending := s.pending.eraseIdx d.index ++
          messages.flatMap fun m => toOthers ids letter.recipient (d.bodies m) }, [letter])
    else none

end

end Assembly

/-! ## What is on the way -/

/-- Whether a letter is an announcement. -/
def Letter.isPresence (letter : Letter) : Bool :=
  match letter.body.message with
  | .introducerPresent _ => true
  | _ => false

/-- Whether a letter is a roll call. -/
def Letter.isRollCall (letter : Letter) : Bool :=
  match letter.body.message with
  | .introducerRollCall => true
  | _ => false

/-- Whether a letter is on its way back to its sender. -/
def Letter.isEcho (letter : Letter) : Bool := letter.recipient = letter.body.sender.id

/-- A letter of the election: a legible body that is on the way to an introducer. -/
structure Letter.IsPlain (keys : KeySet) (ids : List String) (letter : Letter) : Prop where
  attached : letter.recipient ∈ ids
  legible : letter.body.isLegible keys = true
  election : letter.body.message = .introducerRollCall ∨
    ∃ level, letter.body.message = .introducerPresent level

/-- A letter of the election is an announcement or a roll call, and never both. -/
theorem Letter.IsPlain.isPresence {keys : KeySet} {ids : List String} {letter : Letter}
    (h : letter.IsPlain keys ids) : letter.isPresence = !letter.isRollCall := by
  rcases h.election with hmessage | ⟨level, hmessage⟩
  · simp [Letter.isPresence, isRollCall, hmessage]
  · simp [Letter.isPresence, isRollCall, hmessage]

namespace Assembly

/-- How many announcements are on the way to somebody. -/
def presences (s : Assembly) : Nat := s.pending.countP Letter.isPresence

/-- How many roll calls are on the way to somebody. -/
def rollCalls (s : Assembly) : Nat := s.pending.countP Letter.isRollCall

/-- What is yet to be handled: each roll call is answered with an announcement
    that goes to all the others. -/
def weight (ids : List String) (copies : Nat) (s : Assembly) : Nat :=
  s.presences + (1 + copies * (ids.length - 1)) * s.rollCalls

/-- Nothing but letters of the election is on the way. -/
def IsPlain (keys : KeySet) (ids : List String) (s : Assembly) : Prop :=
  ∀ letter ∈ s.pending, letter.IsPlain keys ids

/-- Nothing is on the way back to its sender. -/
def HasNoEcho (s : Assembly) : Prop := ∀ letter ∈ s.pending, letter.isEcho = false

variable {keys : KeySet} {ids : List String} {copies : Nat} {s s' : Assembly} {d : Delivery}
  {letter : Letter} {handled : List Letter}

/-! ## What a delivery adds -/

/-- An echo is not heard at all. -/
theorem messages_echo (h : letter.IsPlain keys ids) (hecho : letter.isEcho = true)
    (succeeds : Deed → Bool) :
    (s.reaction keys succeeds letter).2.filterMap Effect.message? = [] := by
  have hid : letter.recipient = letter.body.sender.id := by simpa [Letter.isEcho] using hecho
  rw [reaction, letter.body.hear_own keys succeeds _ h.legible hid h.election]
  rfl

/-- An announcement is not answered. -/
theorem messages_presence (h : letter.IsPlain keys ids) (hcall : letter.isRollCall = false)
    (succeeds : Deed → Bool) :
    (s.reaction keys succeeds letter).2.filterMap Effect.message? = [] := by
  by_cases hecho : letter.isEcho = true
  · exact messages_echo h hecho succeeds
  · have hid : letter.recipient ≠ letter.body.sender.id := by simpa [Letter.isEcho] using hecho
    rcases h.election with hmessage | ⟨level, hmessage⟩
    · simp [Letter.isRollCall, hmessage] at hcall
    · rw [reaction, letter.body.hear_presence keys succeeds _ h.legible hid hmessage]
      split <;> rfl

/-- A roll call is answered with the level. -/
theorem messages_rollCall (h : letter.IsPlain keys ids) (hcall : letter.isRollCall = true)
    (hecho : letter.isEcho = false) (succeeds : Deed → Bool) :
    (s.reaction keys succeeds letter).2.filterMap Effect.message?
      = [.introducerPresent (s.election letter.recipient).level] := by
  have hid : letter.recipient ≠ letter.body.sender.id := by simpa [Letter.isEcho] using hecho
  rcases h.election with hmessage | ⟨level, hmessage⟩
  · rw [reaction, letter.body.hear_rollCall keys succeeds _ h.legible hid hmessage]
    rfl
  · simp [Letter.isRollCall, hmessage] at hcall

/-- What a delivery does to what is on the way. -/
theorem deliver_cases (hs : s.IsPlain keys ids)
    (h : s.step keys ids copies d = some (s', handled)) :
    ∃ letter, s.pending[d.index]? = some letter ∧ handled = [letter] ∧
      (((letter.isRollCall = true → letter.isEcho = true) ∧
          s'.pending = s.pending.eraseIdx d.index) ∨
        (letter.isRollCall = true ∧ letter.isEcho = false ∧ ∃ sender level bodies,
          sender.id = letter.recipient ∧
          isCarriedBy keys copies sender (.introducerPresent level) bodies = true ∧
          s'.pending = s.pending.eraseIdx d.index ++ toOthers ids sender.id bodies)) := by
  simp only [step] at h
  split at h
  · cases h
  · next letter hletter =>
    split at h
    · next hcarried =>
      cases h
      refine ⟨letter, hletter, rfl, ?_⟩
      have hplain := hs letter (List.mem_of_getElem? hletter)
      by_cases hanswer : letter.isRollCall = true ∧ letter.isEcho = false
      · obtain ⟨hcall, hecho⟩ := hanswer
        have hmessages := messages_rollCall (s := s) hplain hcall hecho d.succeeds
        rw [hmessages, List.all_cons, Bool.and_eq_true] at hcarried
        refine .inr ⟨hcall, hecho, _, _, _, rfl, hcarried.1, ?_⟩
        simp only [hmessages, List.flatMap_cons, List.flatMap_nil, List.append_nil]
      · have hecho : letter.isRollCall = true → letter.isEcho = true := by simpa using hanswer
        have hmessages : (s.reaction keys d.succeeds letter).2.filterMap Effect.message? = [] := by
          by_cases hcall : letter.isRollCall = true
          · exact messages_echo hplain (hecho hcall) d.succeeds
          · exact messages_presence hplain (by simpa using hcall) d.succeeds
        refine .inl ⟨hecho, ?_⟩
        simp only [hmessages, List.flatMap_nil, List.append_nil]
    · cases h

/-! ## What it takes away -/

theorem mem_toOthers {sender : String} {bodies : List Broadcast} (hids : ids.Nodup)
    (h : letter ∈ toOthers ids sender bodies) :
    letter.recipient ∈ ids ∧ letter.recipient ≠ sender ∧ letter.body ∈ bodies := by
  obtain ⟨other, hother, h⟩ := List.mem_flatMap.mp h
  obtain ⟨b, hb, rfl⟩ := List.mem_map.mp h
  obtain ⟨hne, hmem⟩ := hids.mem_erase_iff.mp hother
  exact ⟨hmem, hne, hb⟩

theorem length_toOthers {sender : String} (hsender : sender ∈ ids) (bodies : List Broadcast) :
    (toOthers ids sender bodies).length = bodies.length * (ids.length - 1) := by
  have hsum : ∀ others : List String,
      (others.flatMap fun other => bodies.map (Letter.mk other)).length
        = bodies.length * others.length := by
    intro others
    induction others with
    | nil => rfl
    | cons other others ih =>
      rw [List.flatMap_cons, List.length_append, ih, List.length_map, List.length_cons,
        Nat.mul_succ, Nat.add_comm]
  rw [toOthers, hsum, List.length_erase_of_mem hsender]

/-- What is triggered are announcements, to others than their sender. -/
theorem isPlain_toOthers {sender : Codec} {level : Binary64} {bodies : List Broadcast}
    (hids : ids.Nodup)
    (hcarried : isCarriedBy keys copies sender (.introducerPresent level) bodies = true)
    (hletter : letter ∈ toOthers ids sender.id bodies) :
    letter.IsPlain keys ids ∧ letter.isEcho = false ∧ letter.isRollCall = false := by
  obtain ⟨hmem, hne, hbody⟩ := mem_toOthers hids hletter
  simp only [isCarriedBy, Bool.and_eq_true, decide_eq_true_eq, List.all_eq_true] at hcarried
  obtain ⟨⟨hsender, hmessage⟩, hlegible⟩ := hcarried.2 letter.body hbody
  refine ⟨⟨hmem, hlegible, .inr ⟨level, hmessage⟩⟩, ?_, ?_⟩
  · simpa [Letter.isEcho, hsender] using hne
  · simp [Letter.isRollCall, hmessage]

/-- Of what is on the way, one letter and the others. -/
theorem countP_pending (hletter : s.pending[d.index]? = some letter) (p : Letter → Bool) :
    s.pending.countP p = (s.pending.eraseIdx d.index).countP p + if p letter then 1 else 0 := by
  obtain ⟨hindex, rfl⟩ := List.getElem?_eq_some_iff.mp hletter
  rw [← (List.getElem_cons_eraseIdx_perm hindex).countP_eq p, List.countP_cons]

/-- A letter that is not answered takes its weight with it: one for an announcement,
    and no less for a roll call. -/
theorem weight_unanswered (copies : Nat) (hletter : s.pending[d.index]? = some letter)
    (hplain : letter.IsPlain keys ids) (hpending : s'.pending = s.pending.eraseIdx d.index) :
    s'.weight ids copies + 1 ≤ s.weight ids copies ∧
      (letter.isRollCall = false → s'.weight ids copies + 1 = s.weight ids copies) := by
  have hpresences := countP_pending hletter Letter.isPresence
  have hrollCalls := countP_pending hletter Letter.isRollCall
  rw [hplain.isPresence] at hpresences
  simp only [weight, presences, rollCalls, hpending, hpresences, hrollCalls]
  cases letter.isRollCall with
  | false =>
    simp only [Bool.not_false, if_true, Bool.false_eq_true, if_false, Nat.add_zero]
    omega
  | true =>
    simp only [Bool.not_true, if_true, Bool.false_eq_true, if_false, Nat.add_zero, Nat.mul_succ]
    refine ⟨by omega, nofun⟩

/-- A roll call that is answered leaves an announcement to each of the others
    behind. -/
theorem weight_answered (hletter : s.pending[d.index]? = some letter)
    (hplain : letter.IsPlain keys ids) (hcall : letter.isRollCall = true) {new : List Letter}
    (hnew : ∀ letter ∈ new, letter.IsPlain keys ids ∧ letter.isRollCall = false)
    (hlength : new.length = copies * (ids.length - 1))
    (hpending : s'.pending = s.pending.eraseIdx d.index ++ new) :
    s'.weight ids copies + 1 = s.weight ids copies := by
  have hpresences := countP_pending hletter Letter.isPresence
  have hrollCalls := countP_pending hletter Letter.isRollCall
  rw [hplain.isPresence, hcall, Bool.not_true, if_neg Bool.false_ne_true] at hpresences
  rw [hcall, if_pos rfl] at hrollCalls
  have hall : new.countP Letter.isPresence = copies * (ids.length - 1) := by
    rw [← hlength, List.countP_eq_length]
    intro letter hmem
    obtain ⟨hplain, hnone⟩ := hnew letter hmem
    rw [hplain.isPresence, hnone, Bool.not_false]
  have hnone : new.countP Letter.isRollCall = 0 :=
    List.countP_eq_zero.mpr fun letter hmem => by simp [(hnew letter hmem).2]
  simp only [weight, presences, rollCalls, hpending, List.countP_append]
  simp only [hpresences, hrollCalls, hall, hnone, Nat.add_zero, Nat.mul_succ]
  omega

/-- A delivery takes one away from the weight, and what is on the way stays of the
    election.  Only an echo may take away more. -/
theorem weight_step (hids : ids.Nodup) (hs : s.IsPlain keys ids)
    (h : s.step keys ids copies d = some (s', handled)) :
    s'.IsPlain keys ids ∧ s'.weight ids copies + 1 ≤ s.weight ids copies ∧
      (s.HasNoEcho → s'.HasNoEcho ∧ s'.weight ids copies + 1 = s.weight ids copies) := by
  obtain ⟨letter, hletter, -, hcases⟩ := deliver_cases hs h
  have hmem := List.mem_of_getElem? hletter
  have hplain := hs letter hmem
  have hrest : ∀ letter ∈ s.pending.eraseIdx d.index, letter ∈ s.pending :=
    fun letter => List.mem_of_mem_eraseIdx
  rcases hcases with ⟨hecho, hpending⟩ |
    ⟨hcall, -, sender, level, bodies, hsender, hcarried, hpending⟩
  · -- the letter is gone, and nothing comes of it
    obtain ⟨hle, heq⟩ := weight_unanswered copies hletter hplain hpending
    refine ⟨?_, hle, fun hnone => ⟨?_, heq ?_⟩⟩
    · intro other hother
      rw [hpending] at hother
      exact hs other (hrest other hother)
    · intro other hother
      rw [hpending] at hother
      exact hnone other (hrest other hother)
    · by_contra hcall
      have hfalse := hecho (by simpa using hcall)
      rw [hnone letter hmem] at hfalse
      cases hfalse
  · -- a roll call is gone, and its answer is on the way to all the others
    have hnew : ∀ new ∈ toOthers ids sender.id bodies,
        new.IsPlain keys ids ∧ new.isEcho = false ∧ new.isRollCall = false :=
      fun new hmem => isPlain_toOthers hids hcarried hmem
    have hlength : (toOthers ids sender.id bodies).length = copies * (ids.length - 1) := by
      simp only [isCarriedBy, Bool.and_eq_true, decide_eq_true_eq] at hcarried
      rw [length_toOthers (hsender ▸ hplain.attached), hcarried.1]
    have heq := weight_answered hletter hplain hcall
      (fun other hother => ⟨(hnew other hother).1, (hnew other hother).2.2⟩) hlength hpending
    refine ⟨?_, Nat.le_of_eq heq, fun hnone => ⟨?_, heq⟩⟩
    · intro other hother
      rw [hpending] at hother
      exact (List.mem_append.mp hother).elim (fun h => hs other (hrest other h))
        fun h => (hnew other h).1
    · intro other hother
      rw [hpending] at hother
      exact (List.mem_append.mp hother).elim (fun h => hnone other (hrest other h))
        fun h => (hnew other h).2.1

/-- Any deliveries, one after the other, take as much away from the weight as there
    are, or more. -/
theorem weight_run {trace : List (Stage Assembly Delivery Letter)} (hids : ids.Nodup)
    (hs : s.IsPlain keys ids) (h : Run (step keys ids copies) s trace s') :
    s'.IsPlain keys ids ∧ trace.length + s'.weight ids copies ≤ s.weight ids copies ∧
      (s.HasNoEcho → s'.HasNoEcho ∧
        trace.length + s'.weight ids copies = s.weight ids copies) := by
  induction h with
  | start => exact ⟨hs, Nat.le_of_eq (Nat.zero_add _), fun hnone => ⟨hnone, Nat.zero_add _⟩⟩
  | move _ hstep ih =>
    obtain ⟨hplain, hle, heq⟩ := ih
    obtain ⟨hplain', hstepLe, hstepEq⟩ := weight_step hids hplain hstep
    rw [List.length_append, List.length_singleton]
    refine ⟨hplain', by omega, fun hnone => ?_⟩
    obtain ⟨hnone', heq⟩ := heq hnone
    obtain ⟨hnone'', heq'⟩ := hstepEq hnone'
    exact ⟨hnone'', by omega⟩

/-! ## When nothing is left -/

/-- Every letter of the election weighs something. -/
theorem pending_eq_nil_iff (copies : Nat) (hs : s.IsPlain keys ids) :
    s.pending = [] ↔ s.weight ids copies = 0 := by
  constructor
  · intro hnone
    simp [weight, presences, rollCalls, hnone]
  · intro hzero
    have hpresences : s.presences = 0 := by
      rw [weight] at hzero
      omega
    have hrollCalls : s.rollCalls = 0 := by
      rw [weight, hpresences, Nat.zero_add] at hzero
      rcases Nat.mul_eq_zero.mp hzero with hnone | hnone
      · omega
      · exact hnone
    refine List.eq_nil_iff_forall_not_mem.mpr fun letter hletter => ?_
    rcases (hs letter hletter).election with hmessage | ⟨level, hmessage⟩
    · refine List.countP_eq_zero.mp hrollCalls letter hletter ?_
      simp [Letter.isRollCall, hmessage]
    · refine List.countP_eq_zero.mp hpresences letter hletter ?_
      simp [Letter.isPresence, hmessage]

/-- The text of a message is a body that carries it, whatever the keys. -/
def clear (sender : Codec) (message : Message) : Broadcast :=
  let occasion : Occasion := default
  ⟨sender, occasion, message, (sender.tag occasion.sent message.toFields).write⟩

theorem isCarriedBy_clear (sender : Codec) (message : Message) :
    isCarriedBy keys copies sender message (List.replicate copies (clear sender message))
      = true := by
  have hlegible : (clear sender message).isLegible keys = true := Codec.isLegible_self _ _
  have hsender : (clear sender message).sender = sender := rfl
  have hmessage : (clear sender message).message = message := rfl
  simp [isCarriedBy, hlegible, hsender, hmessage]

/-- With no key, or with one that can seal, a message goes over the bus as a single
    body. -/
theorem isCarriedBy_broadcasts (hkeys : keys.IsSingle) {occasion : Occasion}
    (hfits : occasion.fits keys = true) (sender : Codec) (message : Message) :
    isCarriedBy keys 1 sender message (broadcasts keys sender occasion message) = true := by
  obtain ⟨body, hbroadcasts, hlegible⟩ := broadcasts_single hkeys hfits sender message
  rw [hbroadcasts]
  simp [isCarriedBy, hlegible]

/-- Whatever is on the way can be delivered next. -/
theorem exists_delivery (hletter : letter ∈ s.pending) :
    ∃ d s', s.step keys ids copies d = some (s', [letter]) := by
  obtain ⟨index, hindex⟩ := List.getElem?_of_mem hletter
  refine ⟨⟨index, fun _ => true, fun m => List.replicate copies
    (clear ⟨letter.recipient, s.host letter.recipient⟩ m)⟩, ?_⟩
  simp only [step, hindex]
  rw [if_pos (List.all_eq_true.mpr fun m _ => isCarriedBy_clear _ m)]
  exact ⟨_, rfl⟩

/-! ## Main theorem -/

/-- Introducers with ids of their own, whatever their elections, and any letters of
    the election on the way: however the letters are delivered, and what they
    trigger after them, with a body for every message there are no more deliveries
    than announcements on the way and, for each roll call, introducers; after that
    many nothing is left, and as long as something is on the way any of it can be
    delivered next.

    With any number of bodies for a message, a roll call makes for as many
    deliveries more as its answer has bodies that go to the others.  Unless an
    introducer hears its own roll call there are exactly that many. -/
theorem deliveries_le (hids : ids.Nodup) (hs : s.IsPlain keys ids) :
    (∀ trace s', Run (step keys ids 1) s trace s' →
      trace.length ≤ s.presences + ids.length * s.rollCalls ∧
      (trace.length = s.presences + ids.length * s.rollCalls → s'.pending = []) ∧
      ∀ letter ∈ s'.pending, ∃ d s'', s'.step keys ids 1 d = some (s'', [letter])) ∧
    ∀ copies trace s', Run (step keys ids copies) s trace s' →
      trace.length + s'.weight ids copies ≤
        s.presences + (1 + copies * (ids.length - 1)) * s.rollCalls ∧
      (s.HasNoEcho → trace.length + s'.weight ids copies =
        s.presences + (1 + copies * (ids.length - 1)) * s.rollCalls) := by
  refine ⟨?_, ?_⟩
  · intro trace s' h
    obtain ⟨hplain, hweight, -⟩ := weight_run hids hs h
    have htotal : s.weight ids 1 = s.presences + ids.length * s.rollCalls := by
      rw [weight, Nat.one_mul]
      rcases Nat.eq_zero_or_pos s.rollCalls with hnone | hsome
      · rw [hnone, Nat.mul_zero, Nat.mul_zero]
      · -- a roll call is on the way to somebody
        obtain ⟨letter, hletter, -⟩ := List.countP_pos_iff.mp hsome
        have hlength := List.length_pos_of_mem (hs letter hletter).attached
        rw [Nat.add_comm 1, Nat.sub_add_cancel hlength]
    rw [← htotal, pending_eq_nil_iff 1 hplain]
    refine ⟨by omega, by omega, fun letter hletter => exists_delivery hletter⟩
  · intro copies trace s' h
    obtain ⟨-, hle, heq⟩ := weight_run hids hs h
    exact ⟨hle, fun hnone => (heq hnone).2⟩

/-- Of three introducers one was called by another and is yet to hear of the level of
    the third: four deliveries are to come, and three after the roll call was
    answered. -/
theorem deliveries_le_three :
    let ids := ["a", "b", "c"]
    let calling := Letter.mk "b" (clear ⟨"a", default⟩ .introducerRollCall)
    let announcing := Letter.mk "b" (clear ⟨"c", default⟩ (.introducerPresent (.ofInt 7)))
    let s : Assembly := ⟨fun _ => default, fun _ => .start (.ofInt 5), [announcing, calling]⟩
    (ids.Nodup ∧ s.IsPlain .empty ids ∧ s.HasNoEcho) ∧ s.presences = 1 ∧ s.rollCalls = 1 ∧
    ∃ (trace : List (Stage Assembly Delivery Letter)) (s' : Assembly),
      Run (step .empty ids 1) s trace s' ∧ eventsOf trace = [calling] ∧
      trace.length ≤ 1 + 3 * 1 ∧ trace.length + s'.weight ids 1 = 4 ∧ s'.weight ids 1 = 3 := by
  intro ids calling announcing s
  have hids : ids.Nodup := by decide
  have hlegible : ∀ sender message, (clear sender message).isLegible .empty = true :=
    fun _ _ => Codec.isLegible_self _ _
  have hcalling : calling.IsPlain .empty ids := ⟨by decide, hlegible _ _, .inl rfl⟩
  have hannouncing : announcing.IsPlain .empty ids := ⟨by decide, hlegible _ _, .inr ⟨_, rfl⟩⟩
  have hs : s.IsPlain .empty ids := by
    intro letter hletter
    rcases List.mem_pair.mp hletter with rfl | rfl
    · exact hannouncing
    · exact hcalling
  have hnone : s.HasNoEcho := by
    intro letter hletter
    rcases List.mem_pair.mp hletter with rfl | rfl
    · rfl
    · rfl
  obtain ⟨hone, hany⟩ := deliveries_le hids hs
  obtain ⟨d, s', hstep⟩ := (hone [] s .start).2.2 calling (by simp [s])
  have hrun := Run.start.move hstep
  have hexact : 1 + s'.weight ids 1 = 1 + (1 + 1 * 2) * 1 := (hany 1 _ _ hrun).2 hnone
  refine ⟨⟨hids, hs, hnone⟩, rfl, rfl, _, s', hrun, rfl, (hone _ _ hrun).1, hexact, ?_⟩
  omega

end Assembly

end MessageBus.Introducer
