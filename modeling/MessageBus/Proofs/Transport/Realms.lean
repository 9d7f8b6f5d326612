import MessageBus.Proofs.Url.Paths
import MessageBus.Transport

/-! # Where the route of a realm leads

    The route of a realm is the path of the address, `pmb` and the name of the
    realm or of a sub-channel.  It is read as any path of an address is: tabs and
    line breaks are dropped, and dot segments lead up.  So the name is gone
    through segment by segment, from below the path of the address.

    * `path_realmUrl`: where the route leads, whatever the name.
    * `realmUrl_eq_iff`: which names share a route.
    * `route_of_isPlain`: the route of a name that is one segment. -/

namespace MessageBus

namespace Url

/-- The characters that are not dropped. -/
def kept (cs : List Char) : List Char := cs.filter fun c => !isDropped c

theorem kept_append (xs ys : List Char) : kept (xs ++ ys) = kept xs ++ kept ys :=
  List.filter_append ..

theorem kept_cons {c : Char} (h : isDropped c = false) (cs : List Char) :
    kept (c :: cs) = c :: kept cs := by
  simp [kept, h]

theorem kept_eq_self {cs : List Char} (h : ∀ c ∈ cs, isDropped c = false) : kept cs = cs :=
  List.filter_eq_self.mpr fun c hc => by simp [h c hc]

/-- A rooted path without its last slashes begins with a slash, unless nothing is left. -/
theorem rdropWhile_render_rooted (segments : List String) :
    (Path.rooted segments).render.toList.rdropWhile (· == '/') = [] ∨
      ∃ rest, (Path.rooted segments).render.toList.rdropWhile (· == '/') = '/' :: rest := by
  have hstart := List.rdropWhile_prefix (· == '/') (Path.rooted segments).render.toList
  rw [toList_render_rooted] at hstart ⊢
  cases htrim : (segments.flatMap fun s => '/' :: s.toList).rdropWhile (· == '/') with
  | nil => exact .inl rfl
  | cons c rest =>
    cases segments with
    | nil => cases htrim
    | cons s segments =>
      rw [htrim, List.flatMap_cons, List.cons_append, List.cons_prefix_cons] at hstart
      exact .inr ⟨rest, by rw [hstart.1]⟩

end Url

namespace Transport

open Url

variable {base : Url} {segments : List String}

/-- The part of the route above the name. -/
def stem (base : Url) : List Char := base.path.render.toList.rdropWhile (· == '/') ++ "/pmb".toList

/-- The segments above the name, the nearest first. -/
def above (base : Url) : List String := (segmentsOf true (kept (stem base).tail)).foldl enter []

/-- The segments of the route of a name, the nearest first. -/
def route (base : Url) (realm : String) (sub : Option String) : List String :=
  (segmentsOf true (kept (channel realm sub).toList)).foldl enter (above base)

theorem realmUrl_eq (base : Url) (realm : String) (sub : Option String) :
    realmUrl base realm sub = base.withPath
      (String.ofList (stem base ++ '/' :: ((channel realm sub).toList ++ ['/']))) := by
  have htext : String.ofList (base.path.render.toList.reverse.dropWhile (· == '/')).reverse
      ++ "/pmb/" ++ channel realm sub ++ "/" =
        String.ofList (stem base ++ '/' :: ((channel realm sub).toList ++ ['/'])) := by
    refine String.toList_inj.mp ?_
    simp [stem, List.rdropWhile]
  rw [realmUrl, htext]

/-- Where the route of a name leads. -/
theorem path_realmUrl (hspecial : isSpecial base.scheme = true)
    (hpath : base.path = .rooted segments) (realm : String) (sub : Option String) :
    (realmUrl base realm sub).path = .rooted ("" :: route base realm sub).reverse := by
  have hslash : isDropped '/' = false := rfl
  -- The part above begins with a slash as well, if only with that of `/pmb`.
  have hstem : stem base = '/' :: (stem base).tail := by
    unfold stem
    rw [hpath]
    rcases rdropWhile_render_rooted segments with h | ⟨rest, h⟩ <;> rw [h] <;> rfl
  have htext : kept (stem base ++ '/' :: ((channel realm sub).toList ++ ['/'])) =
      '/' :: ((kept (stem base).tail ++ '/' :: kept (channel realm sub).toList) ++ ['/']) := by
    rw [hstem, List.cons_append, kept_cons hslash, kept_append, kept_cons hslash, kept_append]
    simp [kept, hslash]
  rw [realmUrl_eq, withPath, hpath]
  simp only [String.toList_ofList]
  rw [hspecial, ← kept, htext, readPath_slashes, segmentsOf_append, List.foldl_append]
  rfl

/-! ## Names that share a route -/

theorem slash_notMem_route {realm : String} {sub : Option String} :
    ∀ s ∈ route base realm sub, '/' ∉ s.toList := by
  intro s hs
  rcases mem_foldl_enter hs with hs | hs
  · rcases mem_foldl_enter hs with hs | hs
    · cases hs
    · exact slash_notMem_segmentsOf hs
  · exact slash_notMem_segmentsOf hs

/-- The text of a URL tells its path from that of the same URL with another path. -/
theorem render_withPath_inj {first second : String} : (base.withPath first).render =
    (base.withPath second).render ↔ (base.withPath first).path.render =
      (base.withPath second).path.render := by
  have hsame : ∀ text, (base.withPath text).render =
      base.scheme ++ ":" ++ base.authority ++ (base.withPath text).path.render ++ base.suffix :=
    fun _ => rfl
  rw [hsame, hsame]
  refine ⟨fun h => ?_, fun h => by rw [h]⟩
  have htext := congrArg String.toList h
  refine String.toList_inj.mp ?_
  simpa using htext

/-- Two names share a route exactly if their segments lead to the same place. -/
theorem realmUrl_eq_iff (hspecial : isSpecial base.scheme = true)
    (hpath : base.path = .rooted segments) {realm₁ realm₂ : String} {sub₁ sub₂ : Option String} :
    (realmUrl base realm₁ sub₁).render = (realmUrl base realm₂ sub₂).render ↔
      route base realm₁ sub₁ = route base realm₂ sub₂ := by
  have hrender : (realmUrl base realm₁ sub₁).render = (realmUrl base realm₂ sub₂).render ↔
      (realmUrl base realm₁ sub₁).path.render = (realmUrl base realm₂ sub₂).path.render := by
    rw [realmUrl_eq, realmUrl_eq]
    exact render_withPath_inj
  have hfree : ∀ {realm sub}, ∀ s ∈ ("" :: route base realm sub).reverse, '/' ∉ s.toList := by
    intro realm sub s hs
    rcases List.mem_cons.mp (List.mem_reverse.mp hs) with rfl | hs
    · exact List.not_mem_nil
    · exact slash_notMem_route s hs
  rw [hrender, path_realmUrl hspecial hpath, path_realmUrl hspecial hpath]
  refine ⟨fun h => ?_, fun h => ?_⟩
  · exact (List.cons.inj (List.reverse_inj.mp (render_rooted_injective hfree hfree h))).2
  · exact congrArg (fun above => (Path.rooted ("" :: above).reverse).render) h

/-! ## Names that are one segment -/

/-- Whether a character is left where it is, inside of the segment that it is in. -/
def IsPlain (c : Char) : Prop := c ≠ '%' ∧ isSlash true c = false ∧ isDropped c = false

instance (c : Char) : Decidable (IsPlain c) := inferInstanceAs (Decidable (_ ∧ _))

/-- A name that is one segment of a path, and the characters of which are all left where they
are. -/
def IsPlainName (name : String) : Prop := ∀ c ∈ name.toList, IsPlain c

instance (name : String) : Decidable (IsPlainName name) := List.decidableBAll IsPlain name.toList

/-- A plain name leads one segment down, unless it is a dot segment. -/
theorem route_of_isPlain {realm : String} {sub : Option String}
    (h : IsPlainName (channel realm sub)) :
    route base realm sub = enter (above base) (encodeSegment (channel realm sub).toList) := by
  rw [route, kept_eq_self fun c hc => (h c hc).2.2, segmentsOf,
    Text.cut_of_none fun c hc => (h c hc).2.1]
  rfl

theorem encodeSegment_injective {xs ys : List Char} (hxs : '%' ∉ xs) (hys : '%' ∉ ys)
    (h : encodeSegment xs = encodeSegment ys) : xs = ys :=
  Percent.encode_injective Percent.ascii_of_not_inPath hxs hys (String.ofList_injective h)

end Transport

end MessageBus
