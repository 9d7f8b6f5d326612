import Mathlib.Data.List.Forall2
import Mathlib.Data.List.Nodup
import Mathlib.Tactic.ByContra
import MessageBus.Message.Envelope
import MessageBus.Proofs.SortedTable

/-! # What objects are read as messages

    The form of a type names the members that are looked at.  An object is read
    if each of them has a value of its kind, or may be missing and is.  No other
    member matters, neither for the message nor for what is said to be wrong.

    The forms are those of the objects that messages are written as: the same
    names, and the kinds of value that are written there.

    * `ofFields_eq`: what an object of a type is read as.
    * `forms_members`: the form of a message and what it is written as.
    * `ofFields_congr`: only the type and the members of its form matter. -/

namespace MessageBus

theorem exists_of_forall₂_of_mem {α β : Type} {R : α → β → Prop} {as : List α} {bs : List β}
    (h : List.Forall₂ R as bs) {a : α} (ha : a ∈ as) : ∃ b ∈ bs, R a b := by
  induction h with
  | nil => cases ha
  | cons hhead _ ih =>
    rcases List.mem_cons.mp ha with rfl | ha
    · exact ⟨_, List.mem_cons_self .., hhead⟩
    · obtain ⟨b, hb, hab⟩ := ih ha
      exact ⟨b, List.mem_cons_of_mem _ hb, hab⟩

/-! ## Kinds of values -/

/-- The kinds of JSON values. -/
inductive Json.Kind where
  | null
  | boolean
  | number
  | string
  | array
  | object
  deriving DecidableEq, Repr

/-- The kind of a value.  Integers are numbers as any other. -/
def Json.kind : Json → Json.Kind
  | .null => .null
  | .bool _ => .boolean
  | .num _ => .number
  | .str _ => .string
  | .arr _ => .array
  | .obj _ => .object

theorem Fields.text?_eq_some_iff {fields : Fields} {name s : String} :
    fields.text? name = some s ↔ fields.get? name = some (.str s) := by
  unfold Fields.text?
  split <;> simp_all

namespace Message

/-- The level of a message, if it has one. -/
def level? : Message → Option Binary64
  | notification _ _ level _ | notificationDisplayed _ _ level | introducerPresent level =>
    some level
  | _ => none

/-- The level is a number, if there is any. -/
def HasFiniteLevel (m : Message) : Prop := ∀ level, m.level? = some level → level.isFinite = true

theorem hasFiniteLevel_of_none {m : Message} (h : m.level? = none) : m.HasFiniteLevel := by
  intro level hlevel
  rw [h] at hlevel
  cases hlevel

/-- Whether a member of a type may be missing. -/
def mayLack (type name : String) : Bool :=
  (type == "Notification" && name == "url") || (type == "NotificationDisplayed" && name == "level")

/-- Whether a value, or none, does for a member of a message that is written with another. -/
def Fits (type : String) (shown : String × Json) : Option Json → Prop
  | none => mayLack type shown.1 = true
  | some value => value.kind = shown.2.kind

/-! ## Members of a form -/

/-- The kind of value that a form asks for. -/
def MemberKind.json : MemberKind → Json.Kind
  | text => .string
  | level => .number
  | flag => .boolean

theorem MemberKind.accepts_iff (k : MemberKind) (value : Json) :
    k.accepts value = true ↔ value.kind = k.json := by
  cases k <;> cases value <;> simp [accepts, Json.kind, json]

/-- Whether a member may have a value, or be missing. -/
def MemberForm.admits (f : MemberForm) : Option Json → Bool
  | none => f.optional
  | some value => f.kind.accepts value

/-- No form names a member twice. -/
theorem names_nodup (type : String) : ((form type).map (·.name)).Nodup := by
  unfold form
  split <;> decide

theorem eq_of_name_eq {type : String} {f g : MemberForm} (hf : f ∈ form type) (hg : g ∈ form type)
    (hname : f.name = g.name) : f = g :=
  List.inj_on_of_nodup_map (names_nodup type) hf hg hname

variable {forms : List MemberForm} {fields fields' : Fields}

/-! ## The first fault -/

/-- An object whose members have the kinds that the forms ask for has no wrong member. -/
theorem wrongMember_eq_none
    (h : ∀ entry ∈ fields, ∀ f ∈ forms, f.name = entry.1 → f.kind.accepts entry.2 = true) :
    wrongMember? forms fields = none := by
  apply List.findSome?_eq_none_iff.mpr
  rintro ⟨name, value⟩ hmem
  simp only
  split
  · next f hf =>
    have hname : f.name = name := by simpa using List.find?_some hf
    rw [if_pos (h (name, value) hmem f (List.mem_of_find?_eq_some hf) hname)]
  · rfl

/-- A member that is there, of a wrong kind, is a fault. -/
theorem wrongMember_ne_none {type : String} (hs : Table.Sorted fields) {f : MemberForm}
    (hf : f ∈ form type) {value : Json} (hget : fields.get? f.name = some value)
    (hkind : f.kind.accepts value = false) : wrongMember? (form type) fields ≠ none := by
  intro hnone
  have hmem := (Table.get?_eq_some_iff hs).mp hget
  have hsearch := List.findSome?_eq_none_iff.mp hnone _ hmem
  simp only at hsearch
  -- the search finds a form of that name, and there is no other one
  have hfound : ((form type).find? fun g => g.name == f.name).isSome = true :=
    List.find?_isSome.mpr ⟨f, hf, beq_self_eq_true _⟩
  obtain ⟨g, hg⟩ := Option.isSome_iff_exists.mp hfound
  obtain rfl : g = f :=
    eq_of_name_eq (List.mem_of_find?_eq_some hg) hf (by simpa using List.find?_some hg)
  rw [hg] at hsearch
  simp [hkind] at hsearch

theorem missingMember_eq_none_iff :
    missingMember? forms fields = none ↔
      ∀ f ∈ forms, fields.get? f.name = none → f.optional = true := by
  unfold missingMember?
  rw [List.findSome?_eq_none_iff]
  refine forall₂_congr fun f _ => ?_
  cases hget : fields.get? f.name <;> cases hoptional : f.optional <;> simp

/-- An object has no fault just if every member of the form admits what is there. -/
theorem faultless_iff {type : String} (hs : Table.Sorted fields) :
    wrongMember? (form type) fields = none ∧ missingMember? (form type) fields = none ↔
      ∀ f ∈ form type, f.admits (fields.get? f.name) = true := by
  constructor
  · intro ⟨hwrong, hmissing⟩ f hf
    cases hget : fields.get? f.name with
    | none => exact missingMember_eq_none_iff.mp hmissing f hf hget
    | some value =>
      show f.kind.accepts value = true
      by_contra hkind
      exact wrongMember_ne_none hs hf hget (by simpa using hkind) hwrong
  · intro h
    refine ⟨?_, ?_⟩
    · apply wrongMember_eq_none
      intro entry hmem f hf hname
      have hadmits := h f hf
      rw [hname, (Table.get?_eq_some_iff hs).mpr hmem] at hadmits
      exact hadmits
    · apply missingMember_eq_none_iff.mpr
      intro f hf hget
      have hadmits := h f hf
      rwa [hget] at hadmits

/-- What an object of a type is read as, if it is not at fault. -/
theorem ofFields_eq {type : String} (htype : fields.text? "type" = some type)
    (hs : Table.Sorted fields)
    (h : ∀ f ∈ form type, f.admits (fields.get? f.name) = true) :
    ofFields fields = .ok (build type fields) := by
  obtain ⟨hwrong, hmissing⟩ := (faultless_iff hs).mpr h
  simp only [ofFields, htype, hwrong, hmissing]

/-- An object is at fault if it has no type, or some member is not as its form asks. -/
theorem ofFields_eq_error_iff (hs : Table.Sorted fields) :
    (∃ e, ofFields fields = .error e) ↔
      fields.text? "type" = none ∨
      ∃ type, fields.text? "type" = some type ∧
        ∃ f ∈ form type, f.admits (fields.get? f.name) = false := by
  cases htype : fields.text? "type" with
  | none => simp [ofFields, htype]
  | some type =>
    by_cases h : ∀ f ∈ form type, f.admits (fields.get? f.name) = true
    · have hnone : ¬ ∃ f ∈ form type, f.admits (fields.get? f.name) = false := by
        intro ⟨f, hf, hadmits⟩
        rw [h f hf] at hadmits
        cases hadmits
      simp [ofFields_eq htype hs h, hnone]
    · have hfault : ∃ e, ofFields fields = .error e := by
        unfold ofFields
        rw [htype]
        cases hwrong : wrongMember? (form type) fields with
        | some e => exact ⟨e, by simp [hwrong]⟩
        | none =>
          cases hmissing : missingMember? (form type) fields with
          | some e => exact ⟨e, by simp [hwrong, hmissing]⟩
          | none => exact absurd ((faultless_iff hs).mp ⟨hwrong, hmissing⟩) h
      have hsome : ∃ f ∈ form type, f.admits (fields.get? f.name) = false := by
        simpa using h
      simp [hfault, hsome]

/-! ## Forms and what is written -/

/-- A form describes a member of a message that is written. -/
structure Describes (type : String) (f : MemberForm) (shown : String × Json) : Prop where
  name : f.name = shown.1
  kind : f.kind.json = shown.2.kind
  optional : f.optional = mayLack type shown.1

theorem kind_levelJson {level : Binary64} (h : level.isFinite = true) :
    (levelJson level).kind = .number := by
  simp [levelJson, h, Json.kind]

/-- The form of a type describes what messages of that type are written as. -/
theorem forms_members {m : Message} (hm : m.HasFiniteLevel) :
    List.Forall₂ (Describes m.typeName) (form m.typeName) m.members := by
  have hlevel : ∀ level, m.level? = some level → (levelJson level).kind = .number :=
    fun level h => kind_levelJson (hm level h)
  cases m with
  | notification i t level u =>
    have hkind := hlevel level rfl
    exact .cons ⟨rfl, rfl, rfl⟩ (.cons ⟨rfl, rfl, rfl⟩
      (.cons ⟨rfl, hkind.symm, rfl⟩ (.cons ⟨rfl, rfl, rfl⟩ .nil)))
  | notificationDisplayed o i level =>
    have hkind := hlevel level rfl
    exact .cons ⟨rfl, rfl, rfl⟩ (.cons ⟨rfl, rfl, rfl⟩ (.cons ⟨rfl, hkind.symm, rfl⟩ .nil))
  | introducerPresent level => exact .cons ⟨rfl, (hlevel level rfl).symm, rfl⟩ .nil
  | copyData _ | dataCopied _ | openUrl _ | urlOpened _ | authValid _ =>
    exact .cons ⟨rfl, rfl, rfl⟩ .nil
  | stream _ _ => exact .cons ⟨rfl, rfl, rfl⟩ (.cons ⟨rfl, rfl, rfl⟩ .nil)
  | trigger _ _ _ =>
    exact .cons ⟨rfl, rfl, rfl⟩ (.cons ⟨rfl, rfl, rfl⟩ (.cons ⟨rfl, rfl, rfl⟩ .nil))
  | requestAuth | testAuth | introducerRollCall | reconnected | unknown => exact .nil

/-- No message is written with a value that no form asks for. -/
theorem kind_of_mem_members {m : Message} (hm : m.HasFiniteLevel) {shown : String × Json}
    (hshown : shown ∈ m.members) : shown.2.kind ∈ [.string, .number, .boolean] := by
  obtain ⟨f, -, hdescribes⟩ := exists_of_forall₂_of_mem (forms_members hm).flip hshown
  rw [← hdescribes.kind]
  cases f.kind <;> decide

/-- A form admits a value just if it does for the member that is described. -/
theorem Describes.admits_iff {type : String} {f : MemberForm} {shown : String × Json}
    (h : Describes type f shown) (value? : Option Json) :
    f.admits value? = true ↔ Fits type shown value? := by
  cases value? with
  | none => simp [MemberForm.admits, Fits, h.optional]
  | some value => simp [MemberForm.admits, Fits, MemberKind.accepts_iff, h.kind]

/-- The form of a message admits just what does for the members that it is written with. -/
theorem forall_form_iff {m : Message} (hm : m.HasFiniteLevel) :
    (∀ f ∈ form m.typeName, f.admits (fields.get? f.name) = true) ↔
      ∀ shown ∈ m.members, Fits m.typeName shown (fields.get? shown.1) := by
  have hforms := forms_members hm
  generalize form m.typeName = forms at hforms
  generalize m.members = members at hforms
  induction hforms with
  | nil => simp
  | cons hdescribes _ ih =>
    rw [List.forall_mem_cons, List.forall_mem_cons, hdescribes.admits_iff, hdescribes.name]
    exact and_congr_right fun _ => ih

/-- What is read has the type that it is read with, unless that is not known. -/
theorem typeName_build {type : String} (h : build type fields ≠ .unknown) :
    (build type fields).typeName = type := by
  revert h
  unfold build
  split <;> intro h <;> first | rfl | exact absurd rfl h

/-- Only a type that some message has names members. -/
theorem exists_typeName_of_mem_form {type : String} {f : MemberForm} (hf : f ∈ form type) :
    ∃ m : Message, m.HasFiniteLevel ∧ m.typeName = type := by
  -- the message of that type with nothing in its members
  refine ⟨build type [], ?_, ?_⟩
  · intro level hlevel
    have hzero : Binary64.zero.isFinite = true := by decide
    unfold build at hlevel
    split at hlevel <;> simp [level?] at hlevel <;> subst hlevel <;> exact hzero
  · unfold form at hf
    split at hf <;> first | rfl | cases hf

/-! ## What matters -/

theorem wrongMember_congr {forms : List MemberForm} (hs : Table.Sorted fields)
    (hs' : Table.Sorted fields') (h : ∀ f ∈ forms, fields.get? f.name = fields'.get? f.name) :
    wrongMember? forms fields = wrongMember? forms fields' := by
  -- members without a form are passed over
  let p (name : String) : Bool := (forms.find? fun f => f.name == name).isSome
  have hfilter : ∀ table : Fields,
      wrongMember? forms table = wrongMember? forms (table.filter fun entry => p entry.1) := by
    intro table
    induction table with
    | nil => rfl
    | cons entry rest ih =>
      unfold wrongMember? at ih ⊢
      cases hfind : forms.find? fun f => f.name == entry.1 with
      | none =>
        rw [List.filter_cons_of_neg (by simp [p, hfind]), List.findSome?_cons, ih]
        simp only [hfind]
      | some f =>
        rw [List.filter_cons_of_pos (by simp [p, hfind]), List.findSome?_cons,
          List.findSome?_cons, ih]
  rw [hfilter fields, hfilter fields']
  congr 1
  apply Table.eq_of_get? (Table.sorted_filter hs _) (Table.sorted_filter hs' _)
  intro name
  rw [Table.get?_filter, Table.get?_filter]
  by_cases hp : p name = true
  · obtain ⟨f, hfind⟩ := Option.isSome_iff_exists.mp hp
    have hname : f.name = name := by simpa using List.find?_some hfind
    rw [if_pos hp, if_pos hp, ← hname]
    exact h f (List.mem_of_find?_eq_some hfind)
  · rw [if_neg hp, if_neg hp]

theorem missingMember_congr {forms : List MemberForm}
    (h : ∀ f ∈ forms, fields.get? f.name = fields'.get? f.name) :
    missingMember? forms fields = missingMember? forms fields' := by
  induction forms with
  | nil => rfl
  | cons f forms ih =>
    unfold missingMember? at ih ⊢
    rw [List.findSome?_cons, List.findSome?_cons, h f List.mem_cons_self,
      ih fun g hg => h g (List.mem_cons_of_mem _ hg)]

theorem build_congr {type : String}
    (h : ∀ f ∈ form type, fields.get? f.name = fields'.get? f.name) :
    build type fields = build type fields' := by
  unfold build
  split <;> simp_all [form, required, textMember, Fields.text?, levelMember, flagMember]

/-- Only the type and the members of its form matter, also for what is said to be wrong. -/
theorem ofFields_congr (hs : Table.Sorted fields) (hs' : Table.Sorted fields')
    (htype : fields.text? "type" = fields'.text? "type")
    (h : ∀ type, fields.text? "type" = some type →
      ∀ f ∈ form type, fields.get? f.name = fields'.get? f.name) :
    ofFields fields = ofFields fields' := by
  unfold ofFields
  rw [← htype]
  cases hread : fields.text? "type" with
  | none => rfl
  | some type =>
    have hagree := h type hread
    simp only [wrongMember_congr hs hs' hagree, missingMember_congr hagree, build_congr hagree]

end Message

namespace Envelope

variable {e : Envelope}

theorem message_eq_error_iff :
    (∃ err, e.message = .error err) ↔ ∃ c, Message.ofFields e.contents = .error c := by
  unfold message
  cases Message.ofFields e.contents <;> simp

theorem message_eq_ok_iff {m : Message} :
    e.message = .ok m ↔ Message.ofFields e.contents = .ok m := by
  unfold message
  cases Message.ofFields e.contents <;> simp

end Envelope

end MessageBus
