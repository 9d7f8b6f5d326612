import MessageBus.Proofs.Message.Forms

/-! # What the typed message of an envelope depends on

    The typed message is read off the type and the members that its form names.
    An envelope whose type is not known has a message all the same, and one
    whose type has no members has it whatever else it says.  What goes wrong, and
    how that is worded, depends on nothing else either.

    * `exists_error_iff`: when there is no message.
    * `message_of_unknown`, `message_of_memberless`: when there is one in any case.
    * `message_congr`: what makes no difference.
    * `message_total_and_local`: all of it. -/

namespace MessageBus.Envelope

open Message

variable {e e' : Envelope}

/-- There is no message without a type, and none where a member of the type is missing that may
not be, or of another kind than such messages are written with. -/
theorem exists_error_iff (hs : Table.Sorted e.contents) :
    (∃ err, e.message = .error err) ↔
      e.type? = none ∨
      ∃ m : Message, m.HasFiniteLevel ∧ e.type? = some m.typeName ∧
        ∃ shown ∈ m.members, ¬ Fits m.typeName shown (e.contents.get? shown.1) := by
  rw [message_eq_error_iff, ofFields_eq_error_iff hs]
  show e.type? = none ∨ _ ↔ _
  apply or_congr_right
  constructor
  · intro ⟨type, htype, f, hf, hadmits⟩
    obtain ⟨m, hm, rfl⟩ := exists_typeName_of_mem_form hf
    refine ⟨m, hm, htype, ?_⟩
    by_contra hfits
    -- were there a value for each, each member of the form would admit what is there
    have hall := (forall_form_iff hm).mpr fun shown hshown => by
      by_contra hne
      exact hfits ⟨shown, hshown, hne⟩
    rw [hall f hf] at hadmits
    cases hadmits
  · intro ⟨m, hm, htype, shown, hshown, hfits⟩
    refine ⟨m.typeName, htype, ?_⟩
    by_contra hnone
    apply hfits
    refine (forall_form_iff hm).mp ?_ shown hshown
    intro f hf
    by_contra hadmits
    exact hnone ⟨f, hf, by simpa using hadmits⟩

/-- A type without members has its message, whatever else there is. -/
theorem message_of_memberless {m : Message} (hm : m.members = [])
    (htype : e.type? = some m.typeName) : e.message = .ok m := by
  have hread : e.contents.text? "type" = some m.typeName := htype
  have hform : form m.typeName = [] ∧ build m.typeName e.contents = m := by
    cases m with
    | requestAuth | testAuth | introducerRollCall | reconnected | unknown => exact ⟨rfl, rfl⟩
    | _ => cases hm
  have hwrong : wrongMember? [] e.contents = none := wrongMember_eq_none (by simp)
  have hmissing : missingMember? [] e.contents = none := rfl
  apply message_eq_ok_iff.mpr
  simp only [ofFields, hread, hform, hwrong, hmissing]

/-- A type that no message has reads as unknown. -/
theorem message_of_unknown {type : String} (htype : e.type? = some type)
    (hunknown : ∀ m : Message, m ≠ .unknown → m.typeName ≠ type) (hs : Table.Sorted e.contents) :
    e.message = .ok .unknown := by
  have hform : ∀ f ∈ form type, f.admits (e.contents.get? f.name) = true := by
    intro f hf
    obtain ⟨m, -, rfl⟩ := exists_typeName_of_mem_form hf
    obtain rfl : m = .unknown := by
      by_contra hne
      exact hunknown m hne rfl
    cases hf
  apply message_eq_ok_iff.mpr
  rw [ofFields_eq htype hs hform]
  congr 1
  by_contra hne
  exact hunknown _ hne (typeName_build hne)

/-- Members that the type does not name make no difference. -/
theorem message_congr (hs : Table.Sorted e.contents) (hs' : Table.Sorted e'.contents)
    (htype : e'.type? = e.type?)
    (h : ∀ m : Message, e.type? = some m.typeName →
      ∀ shown ∈ m.members, e'.contents.get? shown.1 = e.contents.get? shown.1) :
    e'.message = e.message := by
  have hread : ofFields e'.contents = ofFields e.contents := by
    apply ofFields_congr hs' hs htype
    intro type hread f hf
    obtain ⟨m, hm, rfl⟩ := exists_typeName_of_mem_form hf
    obtain ⟨shown, hshown, hdescribes⟩ := exists_of_forall₂_of_mem (forms_members hm) hf
    rw [hdescribes.name]
    exact h m (htype.symm.trans hread) shown hshown
  unfold message
  rw [hread]

theorem type_eq_some_iff {type : String} :
    e.type? = some type ↔ e.contents.get? "type" = some (.str type) := Fields.text?_eq_some_iff

/-! ## Main theorem -/

/-- There is no message just if the type is missing or no text, or a member that its messages are
written with is of another kind there, or missing though it may not be.  Every type that is not
known reads as unknown, and a type without members reads as its message.  Envelopes that agree on
the type and on the members of that type have the same message, or the same fault in the same
words. -/
theorem message_total_and_local (hs : Table.Sorted e.contents) :
    ((∃ err, e.message = .error err) ↔
      (∀ type, e.contents.get? "type" ≠ some (.str type)) ∨
      ∃ m : Message, m.HasFiniteLevel ∧ e.contents.get? "type" = some (.str m.typeName) ∧
        ∃ shown ∈ m.members, ¬ Fits m.typeName shown (e.contents.get? shown.1)) ∧
    (∀ m : Message, m.HasFiniteLevel → ∀ shown ∈ m.members,
      shown.2.kind ∈ [.string, .number, .boolean]) ∧
    (∀ type, e.contents.get? "type" = some (.str type) →
      (∀ m : Message, m ≠ .unknown → m.typeName ≠ type) → e.message = .ok .unknown) ∧
    (∀ m : Message, m.members = [] → e.contents.get? "type" = some (.str m.typeName) →
      e.message = .ok m) ∧
    (∀ e' : Envelope, Table.Sorted e'.contents →
      e'.contents.get? "type" = e.contents.get? "type" →
      (∀ m : Message, e.contents.get? "type" = some (.str m.typeName) →
        ∀ shown ∈ m.members, e'.contents.get? shown.1 = e.contents.get? shown.1) →
      e'.message = e.message) := by
  have hnone : e.type? = none ↔ ∀ type, e.contents.get? "type" ≠ some (.str type) := by
    rw [Option.eq_none_iff_forall_ne_some]
    exact forall_congr' fun type => not_congr type_eq_some_iff
  refine ⟨?_, ?_, ?_, ?_, ?_⟩
  · rw [exists_error_iff hs, hnone]
    simp only [type_eq_some_iff]
  · exact fun m hm shown => kind_of_mem_members hm
  · intro type htype hunknown
    exact message_of_unknown (type_eq_some_iff.mpr htype) hunknown hs
  · intro m hm htype
    exact message_of_memberless hm (type_eq_some_iff.mpr htype)
  · intro e' hs' htype h
    refine message_congr hs hs' ?_ fun m hm => h m (type_eq_some_iff.mp hm)
    unfold type? Fields.text?
    rw [htype]

/-- A text is asked for and a number is there.  Members beside it change nothing. -/
theorem message_total_and_local_number :
    let e : Envelope := .received [("data", .num (.int 42)), ("type", .str "CopyData")] ""
    let e' : Envelope :=
      .received [("data", .num (.int 42)), ("id", .null), ("type", .str "CopyData")] ""
    Table.Sorted e.contents ∧ Table.Sorted e'.contents ∧
      (∃ err, e.message = .error err) ∧ e'.message = e.message := by
  intro e e'
  have hs : Table.Sorted e.contents := by
    simp only [Table.Sorted, e, received]
    decide
  have hs' : Table.Sorted e'.contents := by
    simp only [Table.Sorted, e', received]
    decide
  obtain ⟨hfails, -, -, -, hlocal⟩ := message_total_and_local hs
  refine ⟨hs, hs', hfails.mpr (.inr ?_), hlocal e' hs' rfl ?_⟩
  · -- any message of that type is written with a text
    refine ⟨.copyData "", hasFiniteLevel_of_none rfl, rfl, ?_⟩
    refine ⟨("data", .str ""), List.mem_cons_self, ?_⟩
    intro hkind
    cases hkind
  · intro m htype shown hshown
    have htype : m.typeName = "CopyData" := by
      have := Option.some.inj htype
      injection this with h
      exact h.symm
    cases m with
    | copyData d =>
      obtain rfl := List.mem_singleton.mp hshown
      rfl
    | _ => simp [Message.typeName] at htype

end MessageBus.Envelope
