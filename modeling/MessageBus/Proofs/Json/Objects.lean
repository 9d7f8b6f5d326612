import MessageBus.Proofs.Json.Rereading
import MessageBus.Proofs.SortedTable

/-! # Objects built member by member

    Reading back what was written keeps the order of the members and commutes
    with insertion.

    * `sorted_of_rereadMembers`: what comes back is sorted.
    * `rereadMembers_insert`: what comes back after an insertion. -/

namespace MessageBus

/-! ## Members that are read back -/

namespace Json

theorem rereadMembers_eq_none {members : List (String × Json)} {name : String} {value : Json}
    (h : (name, value) ∈ members) (hv : reread? value = none) : rereadMembers? members = none := by
  induction members with
  | nil => cases h
  | cons first rest ih =>
    obtain ⟨n, v⟩ := first
    rcases List.mem_cons.mp h with heq | h
    · cases heq
      simp [rereadMembers?, hv]
    · rw [rereadMembers?, ih h]
      cases reread? v <;> rfl

/-- Reading back keeps the names. -/
theorem names_of_rereadMembers {members members' : List (String × Json)}
    (h : rereadMembers? members = some members') :
    members'.map Prod.fst = members.map Prod.fst := by
  induction members generalizing members' with
  | nil =>
    cases h
    rfl
  | cons first rest ih =>
    obtain ⟨n, v⟩ := first
    rw [rereadMembers?] at h
    cases hfirst : reread? v with
    | none => simp [hfirst] at h
    | some w =>
      cases hrest : rereadMembers? rest with
      | none => simp [hfirst, hrest] at h
      | some ws =>
        obtain rfl : (n, w) :: ws = members' := by simpa [hfirst, hrest] using h
        rw [List.map_cons, List.map_cons, ih hrest]

theorem sorted_of_rereadMembers {fields fields' : Fields}
    (h : rereadMembers? fields = some fields') (hs : Table.Sorted fields) :
    Table.Sorted fields' := by
  have hnames : (fields'.map Prod.fst).Pairwise (· < ·) := by
    rw [names_of_rereadMembers h]
    exact List.pairwise_map.mpr hs
  exact List.pairwise_map.mp hnames

/-- A member is read back as it would be on its own. -/
theorem rereadMembers_insert {fields fields' : Fields} {name : String} {value value' : Json}
    (h : rereadMembers? fields = some fields') (hv : reread? value = some value') :
    rereadMembers? (fields.insert name value) = some (fields'.insert name value') := by
  induction fields generalizing fields' with
  | nil =>
    cases h
    simp [Table.insert, rereadMembers?, hv]
  | cons first rest ih =>
    obtain ⟨n, v⟩ := first
    rw [rereadMembers?] at h
    cases hfirst : reread? v with
    | none => simp [hfirst] at h
    | some w =>
      cases hrest : rereadMembers? rest with
      | none => simp [hfirst, hrest] at h
      | some ws =>
        obtain rfl : (n, w) :: ws = fields' := by simpa [hfirst, hrest] using h
        simp only [Table.insert]
        split
        · simp [rereadMembers?, hv, hfirst, hrest]
        · split
          · simp [rereadMembers?, hv, hrest]
          · simp [rereadMembers?, hfirst, ih hrest]

theorem membersDepth_insert (fields : Fields) (name : String) (value : Json) :
    membersDepth (fields.insert name value) ≤ max (depth value) (membersDepth fields) := by
  induction fields with
  | nil => simp [Table.insert, membersDepth]
  | cons first rest ih =>
    obtain ⟨n, v⟩ := first
    simp only [Table.insert]
    split
    · simp [membersDepth]
    · split
      · simp only [membersDepth]
        omega
      · simp only [membersDepth] at ih ⊢
        omega

end Json

end MessageBus
