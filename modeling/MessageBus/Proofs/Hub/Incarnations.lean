import Mathlib.Data.List.Nodup
import MessageBus.Hub.Registry
import MessageBus.Proofs.SortedTable

/-! # Realms by their incarnations

    A registry keeps every realm that it ever started, in the order of their
    incarnations.  So a realm is known by its incarnation: a change to one leaves
    all others alone, and starting one changes none.

    * `realm?_eq_some_iff`: a look-up finds exactly the realms that were started.
    * `realm?_modify`, `realm?_create`: what it finds after a change. -/

namespace MessageBus.Registry

variable {r : Registry} {m n : Nat} {x : Realm} {change : Realm → Realm}

/-- Incarnations are given out in ascending order. -/
structure Ascending (r : Registry) : Prop where
  ascending : (r.realms.map (·.incarnation)).Pairwise (· < ·)
  le_started : ∀ x ∈ r.realms, x.incarnation ≤ r.started

theorem realm?_eq_some_iff (h : r.Ascending) :
    r.realm? n = some x ↔ x ∈ r.realms ∧ x.incarnation = n := by
  constructor
  · intro hfind
    exact ⟨List.mem_of_find?_eq_some hfind, by simpa using List.find?_some hfind⟩
  · rintro ⟨hx, rfl⟩
    have hsome : (r.realm? x.incarnation).isSome = true :=
      List.find?_isSome.mpr ⟨x, hx, by simp⟩
    obtain ⟨y, hy⟩ := Option.isSome_iff_exists.mp hsome
    have hmem := List.mem_of_find?_eq_some hy
    have heq : y.incarnation = x.incarnation := by simpa using List.find?_some hy
    have hnodup : (r.realms.map (·.incarnation)).Nodup := h.ascending.imp Nat.ne_of_lt
    rw [hy, List.inj_on_of_nodup_map hnodup hmem hx heq]

theorem incarnation_of_realm? (h : r.realm? n = some x) : x.incarnation = n := by
  simpa using List.find?_some h

theorem mem_of_realm? (h : r.realm? n = some x) : x ∈ r.realms := List.mem_of_find?_eq_some h

theorem realm?_of_mem (h : r.Ascending) (hx : x ∈ r.realms) :
    r.realm? x.incarnation = some x := (realm?_eq_some_iff h).mpr ⟨hx, rfl⟩

/-! ## One realm is changed -/

section modify
variable (hchange : ∀ x, (change x).incarnation = x.incarnation)
include hchange

theorem realm?_modify : (r.modify n change).realm? m
    = (r.realm? m).map fun x => if m = n then change x else x := by
  have hkey : ((·.incarnation == m) ∘ fun x : Realm => if x.incarnation = n then change x else x)
      = (·.incarnation == m) := by
    funext x
    by_cases hx : x.incarnation = n <;> simp [hx, hchange]
  rw [realm?, modify, List.find?_map, hkey]
  cases hfind : r.realms.find? (·.incarnation == m) with
  | none => simp [realm?, hfind]
  | some x =>
    have hx : x.incarnation = m := by simpa using List.find?_some hfind
    simp [realm?, hfind, hx]

theorem realm?_modify_self (h : r.realm? n = some x) :
    (r.modify n change).realm? n = some (change x) := by
  simp [realm?_modify hchange, h]

theorem realm?_modify_ne (h : m ≠ n) : (r.modify n change).realm? m = r.realm? m := by
  simp [realm?_modify hchange, h]

theorem incarnations_modify :
    (r.modify n change).realms.map (·.incarnation) = r.realms.map (·.incarnation) := by
  simp only [modify, List.map_map]
  refine List.map_congr_left fun x _ => ?_
  by_cases hx : x.incarnation = n <;> simp [hx, hchange]

theorem Ascending.modify (h : r.Ascending) : (r.modify n change).Ascending := by
  have hsame := incarnations_modify (r := r) (n := n) hchange
  refine ⟨by rw [hsame]; exact h.ascending, fun x hx => ?_⟩
  have hmem : x.incarnation ∈ r.realms.map (·.incarnation) := by
    rw [← hsame]
    exact List.mem_map_of_mem hx
  obtain ⟨y, hy, heq⟩ := List.mem_map.mp hmem
  rw [← heq]
  exact h.le_started y hy

end modify

/-! ## A realm is started -/

variable {name : String}

theorem Ascending.create (h : r.Ascending) : (r.create name).2.Ascending := by
  refine ⟨?_, ?_⟩
  · simp only [Registry.create, List.map_append, List.pairwise_append]
    refine ⟨h.ascending, List.pairwise_singleton _ _, ?_⟩
    intro n hn m hm
    obtain ⟨x, hx, rfl⟩ := List.mem_map.mp hn
    obtain rfl := List.mem_singleton.mp hm
    exact Nat.lt_succ_of_le (h.le_started x hx)
  · intro x hx
    rcases List.mem_append.mp hx with hx | hx
    · exact Nat.le_succ_of_le (h.le_started x hx)
    · obtain rfl := List.mem_singleton.mp hx
      exact Nat.le_refl _

theorem realm?_next (h : r.Ascending) : r.realm? (r.started + 1) = none := by
  apply List.find?_eq_none.mpr
  intro x hx
  have hle := h.le_started x hx
  simp only [beq_iff_eq]
  omega

/-- A new realm is found under the next incarnation, and every other one where
    it was. -/
theorem realm?_create (h : r.Ascending) : (r.create name).2.realm? m
    = if m = r.started + 1 then some (.start name m) else r.realm? m := by
  have hfresh := realm?_next h
  simp only [realm?, create, List.find?_append] at hfresh ⊢
  split
  · next hm =>
    subst hm
    simp [hfresh, Realm.start]
  · next hm =>
    have hother : ((Realm.start name (r.started + 1)).incarnation == m) = false := by
      simpa [Realm.start] using Ne.symm hm
    simp [hother]

end MessageBus.Registry
