import MessageBus.Codec
import MessageBus.Proofs.Json.Objects

/-! # Bodies in the clear

    Without keys the body of a message is the text of its object with the marks
    of the sender.  Such a body begins with a brace, so every participant reads
    it as it is, whatever keys it holds; and everyone but the sender gets the
    object with its marks.

    * `parse_eq_some_iff`, `sender_parse`: what gets through of what a body holds.
    * `decode_write`: what a body in the clear holds.
    * `parse_tag`: what another participant makes of it.
    * `parse_tag_none`: an object of which something cannot be read back is
      dropped. -/

namespace MessageBus.Codec

open Json

/-! ## The marks of the sender -/

/-- The members that a sender sets. -/
def marks : List String := ["id", "hostname", "ip", "sent"]

/-- What every mark keeps, the marked object keeps. -/
theorem tag_induction {P : Fields → Prop} (c : Codec) (sent : Timestamp) {contents : Fields}
    (hmark : ∀ fields name s, name ∈ marks → P fields →
      P (fields.insert name (.str s)))
    (h : P contents) : P (c.tag sent contents) := by
  have htext : ∀ fields name text?, name ∈ marks → P fields →
      P (insertText? fields name text?) := by
    intro fields name text? hname hfields
    cases text? with
    | none => exact hfields
    | some s => exact hmark fields name s hname hfields
  unfold tag
  -- in the order in which the marks are set, the last one first
  refine hmark _ _ _ (by decide) ?_
  refine htext _ _ _ (by decide) ?_
  refine htext _ _ _ (by decide) ?_
  exact hmark _ _ _ (by decide) h

theorem sorted_tag (c : Codec) (sent : Timestamp) {contents : Fields}
    (h : Table.Sorted contents) : Table.Sorted (c.tag sent contents) :=
  tag_induction c sent (fun _ name s _ hs => Table.sorted_insert hs name (.str s)) h

theorem membersDepth_tag (c : Codec) (sent : Timestamp) (contents : Fields) :
    membersDepth (c.tag sent contents) ≤ membersDepth contents := by
  refine tag_induction (P := fun fields => membersDepth fields ≤ membersDepth contents) c sent ?_
    (Nat.le_refl _)
  intro fields name s _ h
  have hinsert := membersDepth_insert fields name (.str s)
  simp only [depth] at hinsert
  omega

/-- A member that is no mark is not touched. -/
theorem get_tag_of_ne (c : Codec) (sent : Timestamp) (contents : Fields) {name : String}
    (h : name ∉ marks) :
    (c.tag sent contents).get? name = contents.get? name := by
  refine tag_induction (P := fun fields => fields.get? name = contents.get? name) c sent ?_ rfl
  intro fields mark s hmark hfields
  have hne : name ≠ mark := by
    rintro rfl
    exact h hmark
  rw [Table.get?_insert_ne _ _ hne, hfields]

theorem mem_tag_of_ne (c : Codec) (sent : Timestamp) {contents : Fields}
    {entry : String × Json} (h : entry ∈ contents)
    (hne : entry.1 ∉ marks) : entry ∈ c.tag sent contents := by
  refine tag_induction (P := fun fields => entry ∈ fields) c sent ?_ h
  intro fields mark s hmark hfields
  refine Table.mem_insert_of_ne _ hfields ?_
  rintro rfl
  exact hne hmark

theorem id_tag (c : Codec) (sent : Timestamp) (contents : Fields) :
    (c.tag sent contents).text? "id" = some c.id := by
  have hget : (c.tag sent contents).get? "id" = some (.str c.id) := by
    have htext : ∀ (fields : Fields) (name : String) (text? : Option String), "id" ≠ name →
        (insertText? fields name text?).get? "id" = fields.get? "id" := by
      intro fields name text? hne
      cases text? with
      | none => rfl
      | some s => exact Table.get?_insert_ne _ _ hne
    unfold tag
    rw [Table.get?_insert_ne _ _ (by decide), htext _ _ _ (by decide), htext _ _ _ (by decide),
      Table.get?_insert]
  rw [Fields.text?, hget]

theorem rereadMembers_tag (c : Codec) (sent : Timestamp) {contents contents' : Fields}
    (h : rereadMembers? contents = some contents') :
    rereadMembers? (c.tag sent contents) = some (c.tag sent contents') := by
  have hmark : ∀ {fields fields' : Fields} (name s : String),
      rereadMembers? fields = some fields' →
      rereadMembers? (fields.insert name (.str s)) = some (fields'.insert name (.str s)) :=
    fun _ _ hf => rereadMembers_insert hf rfl
  have htext : ∀ {fields fields' : Fields} (name : String) (text? : Option String),
      rereadMembers? fields = some fields' →
      rereadMembers? (insertText? fields name text?) = some (insertText? fields' name text?) := by
    intro fields fields' name text? hf
    cases text? with
    | none => exact hf
    | some s => exact hmark name s hf
  exact hmark _ _ (htext _ _ (htext _ _ (hmark _ _ h)))

/-! ## What gets through -/

theorem readObject_eq_some_iff {body : Bytes} {raw : String} {fields : Fields} :
    readObject? body = some (raw, fields) ↔
      body = utf8 raw ∧ Json.readObject? raw = some fields := by
  simp only [readObject?, Option.bind_eq_bind, Option.bind_eq_some_iff]
  constructor
  · rintro ⟨raw', hraw, fields', hfields, heq⟩
    cases heq
    exact ⟨(Bytes.utf8_of_text? hraw).symm, hfields⟩
  · rintro ⟨rfl, hfields⟩
    exact ⟨raw, Bytes.text?_utf8 raw, fields, hfields, rfl⟩

/-- Of what a body holds all gets through but an echo. -/
theorem parse_eq_some_iff {c : Codec} {body : Bytes} {keys : KeySet} {e : Envelope} :
    c.parse body keys = some e ↔
      ∃ raw fields, decode? body keys = some (raw, fields) ∧
        fields.text? "id" ≠ some c.id ∧ e = .received fields raw := by
  cases hdecode : decode? body keys with
  | none => simp [parse, hdecode]
  | some entry =>
    simp only [parse, hdecode, Option.some.injEq]
    constructor
    · intro h
      split at h
      · cases h
      · next hother =>
        cases h
        exact ⟨_, _, rfl, hother, rfl⟩
    · rintro ⟨raw, fields, rfl, hother, rfl⟩
      rw [if_neg hother]

/-- What a participant reads does not come from itself. -/
theorem sender_parse {c : Codec} {body : Bytes} {keys : KeySet} {e : Envelope}
    (h : c.parse body keys = some e) : e.sender? ≠ some c.id := by
  obtain ⟨raw, fields, -, hother, rfl⟩ := parse_eq_some_iff.mp h
  exact hother

/-- What a participant reads is no signal, whatever type it claims. -/
theorem isReconnected_parse {c : Codec} {body : Bytes} {keys : KeySet} {e : Envelope}
    (h : c.parse body keys = some e) : e.isReconnected = false := by
  obtain ⟨raw, fields, -, -, rfl⟩ := parse_eq_some_iff.mp h
  exact Envelope.isReconnected_received fields raw

/-! ## Reading the body -/

theorem utf8_brace (cs : List Char) :
    utf8 (String.ofList ('\x7b' :: cs)) = openBrace :: utf8 (String.ofList cs) := by
  simp [utf8, String.toByteArray_ofList]
  rfl

/-- The text of an object begins with a brace. -/
theorem write_eq_brace (fields : Fields) : ∃ cs, fields.write = String.ofList ('\x7b' :: cs) := by
  cases fields with
  | nil => exact ⟨_, rfl⟩
  | cons first rest => exact ⟨_, rfl⟩

/-- A body that begins with a brace is read as it is. -/
theorem decode_brace {body : Bytes}
    (hbrace : body.find? (fun b => !Bytes.isBlank b) = some openBrace) (keys : KeySet) :
    decode? body keys = readObject? body := by
  simp only [decode?, hbrace, if_true]

theorem find_write (fields : Fields) :
    (utf8 fields.write).find? (fun b => !Bytes.isBlank b) = some openBrace := by
  obtain ⟨cs, hcs⟩ := write_eq_brace fields
  rw [hcs, utf8_brace, List.find?_cons_of_pos (by decide)]

/-- A text in the clear is read as it is. -/
theorem decode_clear (fields : Fields) (keys : KeySet) :
    decode? (utf8 fields.write) keys = readObject? (utf8 fields.write) :=
  decode_brace (find_write fields) keys

/-- What a text in the clear holds is what comes back of the object. -/
theorem decode_write (fields : Fields) (keys : KeySet) (h : membersDepth fields < Reader.maxDepth) :
    decode? (utf8 fields.write) keys
      = (rereadMembers? fields).map fun ms => (fields.write, Table.ofList ms) := by
  rw [decode_clear]
  simp only [readObject?, Bytes.text?_utf8, Option.bind_eq_bind, Option.bind_some,
    readObject_write fields h]
  cases rereadMembers? fields <;> rfl

/-- The text of a marked object holds the object with its marks, the contents as
    they come back. -/
theorem decode_tag (c : Codec) (sent : Timestamp) (keys : KeySet) {contents contents' : Fields}
    (hread : rereadMembers? contents = some contents') (hs : Table.Sorted contents)
    (h : membersDepth contents < Reader.maxDepth) :
    decode? (utf8 (c.tag sent contents).write) keys
      = some ((c.tag sent contents).write, c.tag sent contents') := by
  have hdepth : membersDepth (c.tag sent contents) < Reader.maxDepth :=
    Nat.lt_of_le_of_lt (membersDepth_tag c sent contents) h
  have hsorted := sorted_tag c sent (sorted_of_rereadMembers hread hs)
  rw [decode_write _ _ hdepth, rereadMembers_tag c sent hread, Option.map_some,
    Table.ofList_eq hsorted]

/-- Another participant gets the object with its marks, the contents as they
    come back. -/
theorem parse_tag {c r : Codec} (hid : r.id ≠ c.id) (sent : Timestamp) (keys : KeySet)
    {contents contents' : Fields} (hread : rereadMembers? contents = some contents')
    (hs : Table.Sorted contents) (h : membersDepth contents < Reader.maxDepth) :
    r.parse (utf8 (c.tag sent contents).write) keys
      = some (.received (c.tag sent contents') (c.tag sent contents).write) := by
  have hne : ¬ some c.id = some r.id := by
    intro he
    exact hid (Option.some.inj he).symm
  rw [parse, decode_tag c sent keys hread hs h]
  simp only [id_tag, hne, if_false]

/-- Nobody reads what it says itself. -/
theorem parse_tag_self {c r : Codec} (hid : r.id = c.id) (sent : Timestamp) (keys : KeySet)
    {contents contents' : Fields} (hread : rereadMembers? contents = some contents')
    (hs : Table.Sorted contents) (h : membersDepth contents < Reader.maxDepth) :
    r.parse (utf8 (c.tag sent contents).write) keys = none := by
  rw [parse, decode_tag c sent keys hread hs h]
  simp only [id_tag, hid, if_true]

/-- Where a member besides the marks cannot be read back, nobody gets anything. -/
theorem parse_tag_none (c r : Codec) (sent : Timestamp) (keys : KeySet) {contents : Fields}
    {entry : String × Json} (hmem : entry ∈ contents)
    (hne : entry.1 ∉ marks) (hread : reread? entry.2 = none)
    (h : membersDepth contents < Reader.maxDepth) :
    r.parse (utf8 (c.tag sent contents).write) keys = none := by
  have hdepth : membersDepth (c.tag sent contents) < Reader.maxDepth :=
    Nat.lt_of_le_of_lt (membersDepth_tag c sent contents) h
  have hnone := rereadMembers_eq_none (mem_tag_of_ne c sent hmem hne) hread
  rw [parse, decode_write _ _ hdepth, hnone, Option.map_none]

end MessageBus.Codec
