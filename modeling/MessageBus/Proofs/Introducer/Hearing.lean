import MessageBus.Introducer
import MessageBus.Proofs.Message.RoundTrip

/-! # What introducers hear of each other

    An introducer tells its level as a number in JSON text, and whoever reads
    the text takes the number that the reader makes of it.  For most levels that
    is the level itself, but the reader rounds more than once, so some levels
    are heard as a neighbour.  `heard?` is the level that is heard.

    A message goes over the bus as one body for each key, and every body is
    heard on its own.

    * `Broadcast.hear_presence`: an announcement acts as the presence of the level
      heard.
    * `Broadcast.hear_rollCall`: a roll call acts as a roll call. -/

namespace MessageBus.Introducer

open Json

/-- The level that others read from an announcement; `none` when they can make
    nothing of it. -/
def heard? (level : Binary64) : Option Binary64 :=
  match reread? (Message.levelJson level) with
  | some (.num (.int i)) => some (Binary64.ofInt i)
  | some (.num (.float x)) => some x
  | _ => none

/-- The reaction to a body from the bus. -/
def hear (codec : Codec) (keys : KeySet) (succeeds : Deed → Bool) (e : Election)
    (body : Bytes) : Election × List Effect :=
  match codec.parse body keys with
  | some envelope => receive keys succeeds e envelope
  | none => (e, [])

/-- One body of a message on the bus, with what it was made from. -/
structure Broadcast where
  sender : Codec
  occasion : Occasion
  message : Message
  body : String

/-- The text that was sealed in the body. -/
def Broadcast.text (b : Broadcast) : String :=
  (b.sender.tag b.occasion.sent b.message.toFields).write

/-- Whether everyone with the keys reads the body as its text. -/
def Broadcast.isLegible (keys : KeySet) (b : Broadcast) : Bool :=
  Codec.isLegible keys b.text b.body

/-- What a message goes over the bus as; nothing when it cannot be sealed. -/
def broadcasts (keys : KeySet) (sender : Codec) (occasion : Occasion) (message : Message) :
    List Broadcast :=
  match sender.prepare occasion message.toFields keys with
  | .ok bodies => bodies.map fun body => ⟨sender, occasion, message, body⟩
  | .error _ => []

/-! ## Messages of the election -/

theorem toFields_presence (level : Binary64) :
    (Message.introducerPresent level).toFields
      = [("level", Message.levelJson level), ("type", .str "IntroducerPresent")] := by
  have h₁ : ¬ "level" = "type" := by decide
  have h₂ : "level" < "type" := by decide
  simp [Message.toFields, Table.ofList, Message.members, Message.typeName, Table.insert, h₂]

theorem membersDepth_presence (level : Binary64) :
    membersDepth (Message.introducerPresent level).toFields = 0 := by
  rw [toFields_presence]
  unfold Message.levelJson
  split <;> rfl

/-! ## Reading them -/

/-- The members of an announcement as they come back, with any value for the
    level. -/
def announced (value : Json) : Fields := [("level", value), ("type", .str "IntroducerPresent")]

theorem level_notMem_marks : "level" ∉ Codec.marks := by decide

section announced
variable (c : Codec) (sent : Timestamp) (value : Json)

theorem sorted_announced : Table.Sorted (c.tag sent (announced value)) := by
  apply Codec.sorted_tag
  have hlt : "level" < "type" := by decide
  exact List.pairwise_pair.mpr hlt

theorem type_announced :
    (c.tag sent (announced value)).text? "type" = some "IntroducerPresent" := by
  rw [Fields.text?, Codec.get_tag_of_ne _ _ _ (by decide)]
  rfl

theorem level_announced : (c.tag sent (announced value)).get? "level" = some value := by
  rw [Codec.get_tag_of_ne _ _ _ level_notMem_marks]
  rfl

/-- A number is read as the level. -/
theorem ofFields_announced_number (h : Message.MemberKind.level.accepts value = true) :
    Message.ofFields (c.tag sent (announced value))
      = .ok (.introducerPresent (Message.levelMember (announced value) "level")) := by
  have hadmits : ∀ f ∈ Message.form "IntroducerPresent",
      f.admits ((c.tag sent (announced value)).get? f.name) = true := by
    intro f hf
    obtain rfl := List.mem_singleton.mp hf
    rw [Message.required, level_announced]
    exact h
  rw [Message.ofFields_eq (type_announced c sent value) (sorted_announced c sent value) hadmits]
  simp only [Message.build, Message.levelMember, level_announced]
  rfl

/-- Anything else is no announcement. -/
theorem ofFields_announced_other (h : Message.MemberKind.level.accepts value = false) :
    ∃ e, Message.ofFields (c.tag sent (announced value)) = .error e := by
  apply (Message.ofFields_eq_error_iff (sorted_announced c sent value)).mpr
  refine .inr ⟨_, type_announced c sent value, _, List.mem_singleton_self _, ?_⟩
  rw [Message.required, level_announced]
  exact h

end announced

/-! ## Hearing them -/

variable (keys : KeySet) (succeeds : Deed → Bool) (e : Election)

theorem receive_presence {contents : Fields} {level : Binary64}
    (h : Message.ofFields contents = .ok (.introducerPresent level)) (raw : String) :
    receive keys succeeds e (.received contents raw) = observe e (.presence level) := by
  have hmessage : (Envelope.received contents raw).message = .ok (.introducerPresent level) :=
    Envelope.message_eq_ok_iff.mpr h
  simp [receive, Envelope.isReconnected_received, hmessage]

theorem receive_rollCall {contents : Fields}
    (h : Message.ofFields contents = .ok .introducerRollCall) (raw : String) :
    receive keys succeeds e (.received contents raw) = observe e .rollCall := by
  have hmessage : (Envelope.received contents raw).message = .ok .introducerRollCall :=
    Envelope.message_eq_ok_iff.mpr h
  simp [receive, Envelope.isReconnected_received, hmessage]

theorem receive_malformed {contents : Fields} {c : Message.Malformed}
    (h : Message.ofFields contents = .error c) (raw : String) :
    receive keys succeeds e (.received contents raw) = (e, []) := by
  have hmessage : (Envelope.received contents raw).message
      = .error (.malformedMessage c.message) := by
    simp only [Envelope.message, Envelope.received, h]
  simp [receive, Envelope.isReconnected_received, hmessage]

theorem membersDepth_presence_lt (level : Binary64) :
    membersDepth (Message.introducerPresent level).toFields < Reader.maxDepth := by
  rw [membersDepth_presence]
  decide

/-- A level that cannot be read back is heard by nobody. -/
theorem parse_presence_none {level : Binary64} (h : reread? (Message.levelJson level) = none)
    (sender receiver : Codec) (sent : Timestamp) (keys : KeySet) :
    receiver.parse (utf8 (sender.tag sent (Message.introducerPresent level).toFields).write) keys
      = none := by
  have hmem : ("level", Message.levelJson level)
      ∈ (Message.introducerPresent level).toFields := by
    rw [toFields_presence]
    exact List.mem_cons_self ..
  exact Codec.parse_tag_none sender receiver sent keys hmem level_notMem_marks h
    (membersDepth_presence_lt level)

theorem rereadMembers_presence (level : Binary64) {value : Json}
    (h : reread? (Message.levelJson level) = some value) :
    rereadMembers? (Message.introducerPresent level).toFields = some (announced value) := by
  rw [toFields_presence, rereadMembers?, h]
  rfl

/-- In the clear an announcement acts as the presence of the level that is
    heard. -/
theorem hear_presence {sender receiver : Codec} (hid : receiver.id ≠ sender.id)
    (sent : Timestamp) (level : Binary64) :
    hear receiver keys succeeds e
        (utf8 (sender.tag sent (Message.introducerPresent level).toFields).write)
      = match heard? level with
        | some l => observe e (.presence l)
        | none => (e, []) := by
  cases hread : reread? (Message.levelJson level) with
  | none => simp only [hear, parse_presence_none hread, heard?, hread]
  | some value =>
    have hparse := Codec.parse_tag hid sent keys (rereadMembers_presence level hread)
      (Message.sorted_toFields _) (membersDepth_presence_lt level)
    simp only [hear, hparse]
    -- a level that is not finite is written as null, which is no level
    by_cases haccepts : Message.MemberKind.level.accepts value = true
    · rw [receive_presence keys succeeds e (ofFields_announced_number sender sent value haccepts)]
      cases value with
      | num n => cases n <;> simp [heard?, hread, announced, Message.levelMember, Table.get?_cons]
      | _ => cases haccepts
    · have haccepts : Message.MemberKind.level.accepts value = false := by simpa using haccepts
      obtain ⟨c, hc⟩ := ofFields_announced_other sender sent value haccepts
      rw [receive_malformed keys succeeds e hc]
      cases value with
      | num n => cases haccepts
      | _ => simp only [heard?, hread]

/-- In the clear a roll call acts as a roll call. -/
theorem hear_rollCall {sender receiver : Codec} (hid : receiver.id ≠ sender.id)
    (sent : Timestamp) :
    hear receiver keys succeeds e
        (utf8 (sender.tag sent Message.introducerRollCall.toFields).write)
      = observe e .rollCall := by
  have hread : rereadMembers? Message.introducerRollCall.toFields
      = some Message.introducerRollCall.toFields := rfl
  have hparse := Codec.parse_tag hid sent keys hread (Message.sorted_toFields _) (by decide)
  simp only [hear, hparse]
  have hlevel : Message.introducerRollCall.HasFiniteLevel := Message.hasFiniteLevel_of_none rfl
  have hmessage := Message.ofFields_tag hlevel sender sent
  exact receive_rollCall keys succeeds e hmessage _

/-- A legible body is heard as its text. -/
theorem Broadcast.hear_eq_text {b : Broadcast} (h : b.isLegible keys = true) (receiver : Codec) :
    hear receiver keys succeeds e (utf8 b.body) = hear receiver keys succeeds e (utf8 b.text) := by
  simp only [hear, Codec.parse, Codec.decode_of_isLegible h]

/-- An announcement acts as the presence of the level that is heard. -/
theorem Broadcast.hear_presence {b : Broadcast} {level : Binary64} {receiver : Codec}
    (h : b.isLegible keys = true) (hid : receiver.id ≠ b.sender.id)
    (hmessage : b.message = .introducerPresent level) :
    hear receiver keys succeeds e (utf8 b.body)
      = match heard? level with
        | some l => observe e (.presence l)
        | none => (e, []) := by
  rw [b.hear_eq_text keys succeeds e h, Broadcast.text, hmessage,
    Introducer.hear_presence keys succeeds e hid]

/-- A roll call acts as a roll call. -/
theorem Broadcast.hear_rollCall {b : Broadcast} {receiver : Codec}
    (h : b.isLegible keys = true) (hid : receiver.id ≠ b.sender.id)
    (hmessage : b.message = .introducerRollCall) :
    hear receiver keys succeeds e (utf8 b.body) = observe e .rollCall := by
  rw [b.hear_eq_text keys succeeds e h, Broadcast.text, hmessage,
    Introducer.hear_rollCall keys succeeds e hid]

/-- Nobody hears what it says itself. -/
theorem Broadcast.hear_own {b : Broadcast} {receiver : Codec} (h : b.isLegible keys = true)
    (hid : receiver.id = b.sender.id)
    (hmessage : b.message = .introducerRollCall ∨ ∃ level, b.message = .introducerPresent level) :
    hear receiver keys succeeds e (utf8 b.body) = (e, []) := by
  have hparse : receiver.parse (utf8 b.text) keys = none := by
    rw [Broadcast.text]
    rcases hmessage with hmessage | ⟨level, hmessage⟩
    · rw [hmessage]
      have hread : rereadMembers? Message.introducerRollCall.toFields
          = some Message.introducerRollCall.toFields := rfl
      exact Codec.parse_tag_self hid _ keys hread (Message.sorted_toFields _) (by decide)
    · rw [hmessage]
      cases hread : reread? (Message.levelJson level) with
      | none => exact parse_presence_none hread _ _ _ _
      | some value =>
        exact Codec.parse_tag_self hid _ keys (rereadMembers_presence level hread)
          (Message.sorted_toFields _) (membersDepth_presence_lt level)
  rw [b.hear_eq_text keys succeeds e h, hear, hparse]

/-- The signal that the link is up again acts as such. -/
theorem receive_reconnected : receive keys succeeds e .reconnected = observe e .reconnected := by
  simp [receive, Envelope.isReconnected_reconnected]

/-! ## Sending them -/

/-- What is known of everything that a message goes over the bus as. -/
theorem mem_broadcasts {keys : KeySet} {sender : Codec} {occasion : Occasion} {message : Message}
    {b : Broadcast} (h : b ∈ broadcasts keys sender occasion message) :
    b.sender = sender ∧ b.message = message := by
  unfold broadcasts at h
  split at h
  · obtain ⟨body, -, rfl⟩ := List.mem_map.mp h
    exact ⟨rfl, rfl⟩
  · cases h

/-- With keys that can seal, every message goes over the bus. -/
theorem broadcasts_ne_nil {keys : KeySet} (hkeys : keys.CanSeal) (sender : Codec)
    (occasion : Occasion) (message : Message) : broadcasts keys sender occasion message ≠ [] := by
  obtain ⟨body, rest, hok⟩ := sender.prepare_ok hkeys occasion message.toFields
  simp [broadcasts, hok]

/-- With a single key, or none, every message has one body, and it is legible. -/
theorem broadcasts_single {keys : KeySet} (hkeys : keys.IsSingle) {occasion : Occasion}
    (hfits : occasion.fits keys = true) (sender : Codec) (message : Message) :
    ∃ body, broadcasts keys sender occasion message = [⟨sender, occasion, message, body⟩] ∧
      Broadcast.isLegible keys ⟨sender, occasion, message, body⟩ = true := by
  obtain ⟨body, hok, hlegible⟩ := sender.prepare_single hkeys hfits message.toFields
  exact ⟨body, by simp [broadcasts, hok], hlegible⟩

end MessageBus.Introducer
