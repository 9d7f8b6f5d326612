import MessageBus.Proofs.Codec.RoundTrip
import MessageBus.Proofs.Introducer.Hearing

/-! # What is said in a handshake

    A client asks whether its keys work, an introducer confirms that they do,
    and apart from that introducers talk about their election.  Whoever can
    read such a message knows its sender, the sender itself gets to see nothing
    of it, and a question and a confirmation are read as what was sent.

    A body is only read by who holds its key, as long as it opens to no object
    with another one.

    * `envelope_of_parse`: what is known of everything that is read.
    * `parse_eq_of_ne`: a question and a confirmation are read as such.
    * `Carries.parse_eq`, `Carries.parse_none`: who can read a body. -/

namespace MessageBus

namespace Message

/-- What introducers say of their election. -/
def IsElectionTalk (m : Message) : Prop :=
  m = .introducerRollCall ∨ ∃ level, m = .introducerPresent level

/-- What is said in a handshake. -/
def IsHandshakeTalk (m : Message) : Prop :=
  m = .testAuth ∨ (∃ origin, m = .authValid origin) ∨ m.IsElectionTalk

theorem toFields_authValid (origin : String) :
    (Message.authValid origin).toFields
      = [("origin", .str origin), ("type", .str "AuthValid")] := by
  have h : "origin" < "type" := by decide
  simp [toFields, Table.ofList, members, typeName, Table.insert, h]

end Message

namespace Codec

open Json Introducer

variable {c r : Codec} {m : Message}

/-! ## In the clear -/

/-- What is said is read as an object, or not at all. -/
theorem reread_handshakeTalk (hm : m.IsHandshakeTalk) :
    membersDepth m.toFields < Reader.maxDepth ∧
      ((∃ contents : Fields, rereadMembers? m.toFields = some contents) ∨
        ∀ (c r : Codec) (sent : Timestamp) (keys : KeySet),
          r.parse (utf8 (c.tag sent m.toFields).write) keys = none) := by
  rcases hm with rfl | ⟨origin, rfl⟩ | rfl | ⟨level, rfl⟩
  · exact ⟨by decide, .inl ⟨_, rfl⟩⟩
  · rw [Message.toFields_authValid]
    have hdepth : membersDepth [("origin", .str origin), ("type", .str "AuthValid")] = 0 := rfl
    exact ⟨by rw [hdepth]; decide, .inl ⟨_, rfl⟩⟩
  · exact ⟨by decide, .inl ⟨_, rfl⟩⟩
  · refine ⟨membersDepth_presence_lt level, ?_⟩
    cases hread : reread? (Message.levelJson level) with
    | none => exact .inr (parse_presence_none hread)
    | some value =>
      exact .inl ⟨_, rereadMembers_presence level hread⟩

/-- Whoever reads something is somebody else, and knows who said it. -/
theorem envelope_of_parse (hm : m.IsHandshakeTalk) {sent : Timestamp} {keys : KeySet}
    {e : Envelope} (h : r.parse (utf8 (c.tag sent m.toFields).write) keys = some e) :
    r.id ≠ c.id ∧ e.sender? = some c.id ∧ e.isReconnected = false := by
  obtain ⟨hdepth, ⟨contents, hread⟩ | hnone⟩ := reread_handshakeTalk hm
  · by_cases hid : r.id = c.id
    · rw [parse_tag_self hid sent keys hread (Message.sorted_toFields m) hdepth] at h
      cases h
    · rw [parse_tag hid sent keys hread (Message.sorted_toFields m) hdepth] at h
      cases h
      exact ⟨hid, id_tag c sent contents, Envelope.isReconnected_received _ _⟩
  · rw [hnone] at h
    cases h

/-- In the clear a question and a confirmation are read as such, with any keys. -/
theorem parse_eq_of_ne (hid : r.id ≠ c.id) (hm : m = .testAuth ∨ ∃ origin, m = .authValid origin)
    (sent : Timestamp) :
    ∃ e, (∀ keys, r.parse (utf8 (c.tag sent m.toFields).write) keys = some e) ∧
      e.message = .ok m := by
  have htalk : m.IsHandshakeTalk := by
    rcases hm with hm | hm
    · exact .inl hm
    · exact .inr (.inl hm)
  have hlevel : m.HasFiniteLevel := by
    rcases hm with rfl | ⟨origin, rfl⟩ <;> exact Message.hasFiniteLevel_of_none rfl
  have hread : rereadMembers? m.toFields = some m.toFields := by
    rcases hm with rfl | ⟨origin, rfl⟩
    · rfl
    · rw [Message.toFields_authValid]
      rfl
  have hdepth := (reread_handshakeTalk htalk).1
  have hparse := fun keys => parse_tag hid sent keys hread (Message.sorted_toFields m) hdepth
  refine ⟨_, hparse, ?_⟩
  exact Envelope.message_eq_ok_iff.mpr (Message.ofFields_tag hlevel c sent)

/-! ## Sealed -/

/-- The body was sealed with a key for a message, and opens to no object with any other key at
    hand. -/
structure Carries (c : Codec) (others : List String) (m : Message) (key body : String) : Prop where
  made : ∃ sent : Timestamp, IsSealed (c.tag sent m.toFields).write key body
  wrong : ∀ other ∈ others, other ≠ key → openAny? (utf8 body) [other] = none

variable {others : List String} {key body : String} {keys : KeySet}

/-- Whoever holds the key reads what was sealed. -/
theorem Carries.parse_eq (h : Carries c others m key body) (hkeys : keys.keys ⊆ others)
    (hkey : key ∈ keys.keys) (r : Codec) :
    ∃ sent : Timestamp,
      r.parse (utf8 body) keys = r.parse (utf8 (c.tag sent m.toFields).write) keys := by
  obtain ⟨sent, vector, hvector, hclose⟩ := h.made
  refine ⟨sent, ?_⟩
  have hlegible := isLegible_sealed hkey hvector _ hclose
    fun other hother hne => h.wrong other (hkeys hother) hne
  rw [parse, parse, decode_of_isLegible hlegible]

/-- Nobody else reads anything. -/
theorem Carries.parse_none (h : Carries c others m key body) (hkeys : keys.keys ⊆ others)
    (hkey : key ∉ keys.keys) (r : Codec) : r.parse (utf8 body) keys = none := by
  obtain ⟨sent, vector, -, hclose⟩ := h.made
  have hwrong : ∀ other ∈ keys.keys, openAny? (utf8 body) [other] = none := by
    intro other hother
    refine h.wrong other (hkeys hother) ?_
    rintro rfl
    exact hkey hother
  rw [parse, decode_sealed_none hclose hwrong]

/-- Every usable key has a body that carries the message. -/
theorem carries_of_prepare {occasion : Occasion} {bodies : List String} (hsome : keys.keys ≠ [])
    (hfits : occasion.fits keys = true)
    (hprepare : c.prepare occasion m.toFields keys = .ok bodies)
    (hwrong : List.Forall₂
      (fun key body => ∀ other ∈ others, other ≠ key → openAny? (utf8 body) [other] = none)
      (keys.keys.filter isUsable) bodies) :
    List.Forall₂ (Carries c others m) (keys.keys.filter isUsable) bodies := by
  obtain ⟨made, hsealed, hmade⟩ := c.prepare_sealed hsome hfits m.toFields
  rw [hprepare] at hmade
  split at hmade
  · cases hmade
  · cases hmade
    refine List.Forall₂.mp ?_ hsealed hwrong
    intro key body hbody hothers
    exact ⟨⟨occasion.sent, hbody⟩, hothers⟩

/-- With a single key a question or a confirmation has one body, which the other reads and the
    sender does not. -/
theorem exists_body_of_single (hid : r.id ≠ c.id) (hkeys : keys.IsSingle) {occasion : Occasion}
    (hfits : occasion.fits keys = true) (hm : m = .testAuth ∨ ∃ origin, m = .authValid origin) :
    ∃ body e, c.prepare occasion m.toFields keys = .ok [body] ∧
      r.parse (utf8 body) keys = some e ∧ e.message = .ok m ∧ e.sender? = some c.id ∧
      e.isReconnected = false ∧ c.parse (utf8 body) keys = none := by
  obtain ⟨body, hprepare, hlegible⟩ := c.prepare_single hkeys hfits m.toFields
  have hread : ∀ reader : Codec, reader.parse (utf8 body) keys
      = reader.parse (utf8 (c.tag occasion.sent m.toFields).write) keys := by
    intro reader
    rw [parse, parse, decode_of_isLegible hlegible]
  have htalk : m.IsHandshakeTalk := by
    rcases hm with hm | hm
    · exact .inl hm
    · exact .inr (.inl hm)
  obtain ⟨e, hparse, hmessage⟩ := parse_eq_of_ne hid hm occasion.sent
  have he := hparse keys
  obtain ⟨-, hsender, hbus⟩ := envelope_of_parse htalk he
  refine ⟨body, e, hprepare, (hread r).trans he, hmessage, hsender, hbus, ?_⟩
  rw [hread, ← Option.not_isSome_iff_eq_none]
  intro hsome
  obtain ⟨own, hown⟩ := Option.isSome_iff_exists.mp hsome
  exact (envelope_of_parse htalk hown).1 rfl

end Codec

end MessageBus
