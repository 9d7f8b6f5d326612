import MessageBus.Proofs.Codec.Sealing
import MessageBus.Proofs.Message.Forms

/-! # Messages read back

    A message is written as an object with its type and its members, each under
    a name of its own.  Whatever else is put into that object under other names,
    the message is read back as it was.  The marks of a sender have other names
    too, so they take nothing from a message.

    * `get?_toFields_iff`: what the object of a message holds.
    * `ofFields_of_shows`: an object that shows a message reads as it.
    * `Shows.tag`: a marked object still shows it.
    * `message_of_extended`: the message of an envelope with anything besides. -/

namespace MessageBus

namespace Table

variable {α : Type}

/-- A table of entries with different names holds just these. -/
theorem get?_ofList_iff {entries : List (String × α)} (h : (entries.map Prod.fst).Nodup)
    {name : String} {value : α} :
    (ofList entries).get? name = some value ↔ (name, value) ∈ entries := by
  show (overlay entries []).get? name = some value ↔ _
  rw [get?_overlay]
  show (get? entries.reverse name).or none = some value ↔ _
  rw [Option.or_none]
  constructor
  · intro hget
    exact List.mem_reverse.mp (mem_of_get? hget)
  · intro hmem
    obtain ⟨found, hfound⟩ := exists_get?_of_mem (List.mem_reverse.mpr hmem)
    -- another entry of that name would be one too many
    have hsame := List.inj_on_of_nodup_map h (List.mem_reverse.mp (mem_of_get? hfound)) hmem rfl
    rw [hfound, (Prod.mk.inj hsame).2]

end Table

namespace Message

variable {m : Message} {fields : Fields}

/-! ## What the object of a message holds -/

/-- The members of a message have different names, and none is the type. -/
theorem nodup_toFields (m : Message) :
    ((("type", Json.str m.typeName) :: m.members).map Prod.fst).Nodup := by
  cases m <;> simp [members, typeName]

theorem sorted_toFields (m : Message) : Table.Sorted m.toFields := Table.sorted_ofList _

theorem get?_toFields_iff {name : String} {value : Json} :
    m.toFields.get? name = some value ↔
      (name, value) ∈ ("type", Json.str m.typeName) :: m.members :=
  Table.get?_ofList_iff (nodup_toFields m)

/-- An object shows all that the object of a message holds. -/
def Shows (fields : Fields) (m : Message) : Prop :=
  ∀ name value, m.toFields.get? name = some value → fields.get? name = some value

theorem Shows.type (h : Shows fields m) : fields.text? "type" = some m.typeName :=
  Fields.text?_eq_some_iff.mpr (h _ _ (get?_toFields_iff.mpr List.mem_cons_self))

theorem Shows.member (h : Shows fields m) {shown : String × Json} (hshown : shown ∈ m.members) :
    fields.get? shown.1 = some shown.2 :=
  h _ _ (get?_toFields_iff.mpr (List.mem_cons_of_mem _ hshown))

theorem shows_toFields (m : Message) : Shows m.toFields m := fun _ _ h => h

/-! ## Reading it back -/

theorem levelMember_levelJson {level : Binary64} (hlevel : level.isFinite = true) {name : String}
    (h : fields.get? name = some (levelJson level)) : levelMember fields name = level := by
  unfold levelMember
  rw [h, levelJson, if_pos hlevel]

/-- What is built from an object that shows a message is that message. -/
theorem build_of_shows (hm : m.HasFiniteLevel) (h : Shows fields m) :
    build m.typeName fields = m := by
  have hmember : ∀ name value, (name, value) ∈ m.members → fields.get? name = some value :=
    fun name value hmem => h.member hmem
  have htext : ∀ name s, (name, Json.str s) ∈ m.members → textMember fields name = s := by
    intro name s hmem
    simp [textMember, Fields.text?, hmember name _ hmem]
  have hlevel : ∀ name level, (name, levelJson level) ∈ m.members → m.level? = some level →
      levelMember fields name = level :=
    fun name level hmem hlevel => levelMember_levelJson (hm level hlevel) (hmember name _ hmem)
  cases m with
  | copyData d | dataCopied d | openUrl d | urlOpened d | authValid d =>
    simp only [build, typeName, htext _ d List.mem_cons_self]
  | notification i t l u =>
    show notification (textMember fields _) (textMember fields _) (levelMember fields _)
      (textMember fields _) = _
    rw [htext "notification-id" i (by simp [members]), htext "message" t (by simp [members]),
      hlevel "level" l (by simp [members]) rfl, htext "url" u (by simp [members])]
  | notificationDisplayed o i l =>
    show notificationDisplayed (textMember fields _) (textMember fields _)
      (levelMember fields _) = _
    rw [htext "origin" o (by simp [members]), htext "notification-id" i (by simp [members]),
      hlevel "level" l (by simp [members]) rfl]
  | introducerPresent l =>
    show introducerPresent (levelMember fields _) = _
    rw [hlevel "level" l List.mem_cons_self rfl]
  | trigger n s ok =>
    show trigger (textMember fields _) (textMember fields _) (flagMember fields _) = _
    rw [htext "trigger" n (by simp [members]), htext "from" s (by simp [members])]
    simp [flagMember, hmember "success" (.bool ok) (by simp [members])]
  | stream i d =>
    show stream (textMember fields _) (textMember fields _) = _
    rw [htext "identifier" i (by simp [members]), htext "data" d (by simp [members])]
  | requestAuth | testAuth | introducerRollCall | reconnected | unknown => rfl

/-- An object that shows a message is read as that message. -/
theorem ofFields_of_shows (hm : m.HasFiniteLevel) (hs : Table.Sorted fields)
    (h : Shows fields m) : ofFields fields = .ok m := by
  have hadmits : ∀ f ∈ form m.typeName, f.admits (fields.get? f.name) = true := by
    apply (forall_form_iff hm).mpr
    intro shown hshown
    rw [h.member hshown]
    exact rfl
  rw [ofFields_eq h.type hs hadmits, build_of_shows hm h]

/-! ## What is put besides -/

/-- The marks of a sender are no members of a message. -/
theorem notMem_marks {name : String} {value : Json} (h : m.toFields.get? name = some value) :
    name ∉ Codec.marks := by
  have hnames : ∀ name' ∈ (("type", Json.str m.typeName) :: m.members).map Prod.fst,
      name' ∉ Codec.marks := by
    cases m <;> simp [members, typeName, Codec.marks]
  exact hnames name (List.mem_map_of_mem (get?_toFields_iff.mp h))

/-- Marks take nothing from a message. -/
theorem Shows.tag (h : Shows fields m) (c : Codec) (sent : Timestamp) :
    Shows (c.tag sent fields) m := by
  intro name value hget
  rw [Codec.get_tag_of_ne c sent fields (notMem_marks hget)]
  exact h name value hget

/-- The object of a message that its sender marked is read as the message. -/
theorem ofFields_tag (hm : m.HasFiniteLevel) (c : Codec) (sent : Timestamp) :
    ofFields (c.tag sent m.toFields) = .ok m :=
  ofFields_of_shows hm (Codec.sorted_tag c sent (sorted_toFields m)) ((shows_toFields m).tag c sent)

/-- Entries of other names take nothing from a message. -/
theorem shows_overlay {extra : List (String × Json)}
    (hnew : ∀ entry ∈ extra, m.toFields.get? entry.1 = none) :
    Shows (Table.overlay extra m.toFields) m := by
  intro name value hget
  rw [Table.get?_overlay, hget]
  have hnone : Table.get? extra.reverse name = none := by
    cases hextra : Table.get? extra.reverse name with
    | none => rfl
    | some other =>
      have hfree := hnew _ (List.mem_reverse.mp (Table.mem_of_get? hextra))
      rw [hget] at hfree
      cases hfree
  rw [hnone, Option.none_or]

/-! ## Main theorem -/

/-- A message is read back from its object with any entries of other names besides, and the type
that the object names is the name of its kind.  The marks of a sender leave all of this as it is,
and what the sender writes, in the clear or sealed, is the marked object. -/
theorem message_of_extended (hm : m.HasFiniteLevel) {extra : List (String × Json)}
    (hnew : ∀ entry ∈ extra, m.toFields.get? entry.1 = none) (raw : String) :
    let contents := Table.overlay extra m.toFields
    (Envelope.received contents raw).message = .ok m ∧
    (Envelope.received contents raw).type? = some m.typeName ∧
    ∀ (c : Codec) (occasion : Occasion),
      Shows (c.tag occasion.sent contents) m ∧
      (Envelope.received (c.tag occasion.sent contents) raw).message = .ok m ∧
      ∀ (keys : KeySet) (bodies : List String), c.prepare occasion contents keys = .ok bodies →
        ∀ body ∈ bodies, body = (c.tag occasion.sent contents).write ∨
          Codec.SealedUnder keys (c.tag occasion.sent contents).write body := by
  intro contents
  have hs : Table.Sorted contents := Table.sorted_overlay extra (sorted_toFields m)
  have hshows : Shows contents m := shows_overlay hnew
  have hmessage : ∀ fields : Fields, Table.Sorted fields → Shows fields m →
      (Envelope.received fields raw).message = .ok m := by
    intro fields hs hshows
    exact Envelope.message_eq_ok_iff.mpr (ofFields_of_shows hm hs hshows)
  refine ⟨hmessage contents hs hshows, hshows.type, fun c occasion => ?_⟩
  have htag := hshows.tag c occasion.sent
  refine ⟨htag, hmessage _ (Codec.sorted_tag c occasion.sent hs) htag, ?_⟩
  intro keys bodies hprepare body hbody
  rcases Codec.shown_of_prepare hprepare hbody with ⟨-, hclear⟩ | ⟨-, hsealed⟩
  · exact .inl hclear
  · exact .inr hsealed

/-- A notification that somebody marked before, with values of all kinds. -/
theorem message_of_extended_notification :
    let m : Message := .notification "n" "tea" .zero ""
    let extra : List (String × Json) :=
      [("id", .num (.int 7)), ("sent", .null), ("hostname", .arr [.bool true]), ("Level", .str "")]
    m.HasFiniteLevel ∧ (∀ entry ∈ extra, m.toFields.get? entry.1 = none) ∧
      (Envelope.received (Table.overlay extra m.toFields) "").message = .ok m := by
  intro m extra
  have hm : m.HasFiniteLevel := by
    intro level hlevel
    cases hlevel
    decide
  have hnew : ∀ entry ∈ extra, m.toFields.get? entry.1 = none := by
    decide +kernel
  exact ⟨hm, hnew, (message_of_extended hm hnew "").1⟩

end Message

end MessageBus
