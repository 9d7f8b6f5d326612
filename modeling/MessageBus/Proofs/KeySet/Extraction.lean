import Mathlib.Data.List.Basic
import MessageBus.KeySet

/-! # The keys in a text

    Keys are read from any text.  What counts are its maximal runs of digits and
    lower-case letters: each run is cut into keys from the left, and what is left
    over at its end is too short for a key.  The scanner goes through the text
    once and knows nothing of runs; here it is measured against them.

    * `scan_run`: the scanner on one run.
    * `scan_eq`: the scanner on a text.
    * `maximalRuns_joined`: keys with commas between them are the runs.
    * `parse_eq_keys_of_runs`: the keys that are read, and that writing and
      reading keys brings them back. -/

namespace MessageBus

namespace Text

/-! ## Runs -/

/-- The maximal runs of items of a kind in a list, in order.  No such item stands
    in front of a run or between two of them, and a run ends only with the list
    or before an item that is not of the kind. -/
inductive MaximalRuns {α : Type} (p : α → Bool) : List α → List (List α) → Prop where
  | none {gap : List α} (hgap : ∀ x ∈ gap, p x = false) : MaximalRuns p gap []
  | run {gap run rest : List α} {runs : List (List α)} (hgap : ∀ x ∈ gap, p x = false)
      (hsome : run ≠ []) (hrun : ∀ x ∈ run, p x = true) (hend : ∀ x ∈ rest.head?, p x = false)
      (hrest : MaximalRuns p rest runs) : MaximalRuns p (gap ++ run ++ rest) (run :: runs)

variable {α : Type} {p : α → Bool} {x : α} {xs : List α} {runs : List (List α)}

/-- A run at the start of a list. -/
theorem MaximalRuns.first {run rest : List α} (hsome : run ≠ []) (hrun : ∀ x ∈ run, p x = true)
    (hend : ∀ x ∈ rest.head?, p x = false) (hrest : MaximalRuns p rest runs) :
    MaximalRuns p (run ++ rest) (run :: runs) := by
  have hrun : MaximalRuns p ([] ++ run ++ rest) (run :: runs) :=
    .run (by simp) hsome hrun hend hrest
  exact hrun

/-- An item of another kind in front changes nothing. -/
theorem MaximalRuns.cons_gap (hx : p x = false) (h : MaximalRuns p xs runs) :
    MaximalRuns p (x :: xs) runs := by
  cases h with
  | none hgap => exact .none (List.forall_mem_cons.mpr ⟨hx, hgap⟩)
  | @run gap run rest runs hgap hsome hrun hend hrest =>
    have hlonger : MaximalRuns p (x :: gap ++ run ++ rest) (run :: runs) :=
      .run (List.forall_mem_cons.mpr ⟨hx, hgap⟩) hsome hrun hend hrest
    exact hlonger

/-- An item of the kind in front makes the first run longer, or is a run of its own. -/
theorem MaximalRuns.cons_run (hx : p x = true) (h : MaximalRuns p xs runs) :
    ∃ runs', MaximalRuns p (x :: xs) runs' := by
  have hnew : (∀ y ∈ xs.head?, p y = false) → MaximalRuns p ([x] ++ xs) ([x] :: runs) :=
    fun hend => .first (by simp) (by simpa using hx) hend h
  cases h with
  | none hgap => exact ⟨_, hnew fun y hy => hgap y (List.mem_of_mem_head? hy)⟩
  | @run gap run rest runs hgap hsome hrun hend hrest =>
    cases gap with
    | nil =>
      have hlonger : MaximalRuns p (x :: run ++ rest) ((x :: run) :: runs) :=
        .first (by simp) (List.forall_mem_cons.mpr ⟨hx, hrun⟩) hend hrest
      exact ⟨_, hlonger⟩
    | cons y gap =>
      refine ⟨_, hnew fun z hz => ?_⟩
      obtain rfl : y = z := by simpa using hz
      exact hgap y (List.mem_cons_self ..)

theorem exists_maximalRuns (p : α → Bool) (xs : List α) : ∃ runs, MaximalRuns p xs runs := by
  induction xs with
  | nil => exact ⟨[], .none (by simp)⟩
  | cons x xs ih =>
    obtain ⟨runs, h⟩ := ih
    cases hx : p x with
    | false => exact ⟨runs, h.cons_gap hx⟩
    | true => exact h.cons_run hx

/-- The items of the runs are items of the kind in the list. -/
theorem MaximalRuns.of_mem {run : List α} (h : MaximalRuns p xs runs) (hrun : run ∈ runs) :
    ∀ x ∈ run, p x = true := by
  induction h with
  | none => cases hrun
  | run _ _ hall _ _ ih =>
    rcases List.mem_cons.mp hrun with rfl | hrun
    · exact hall
    · exact ih hrun

/-- Runs with an item of another kind between them are the runs of what they make up. -/
theorem maximalRuns_intercalate (hx : p x = false) {pieces : List (List α)}
    (h : ∀ piece ∈ pieces, piece ≠ [] ∧ ∀ y ∈ piece, p y = true) :
    MaximalRuns p ([x].intercalate pieces) pieces := by
  induction pieces with
  | nil => exact .none (by simp)
  | cons piece pieces ih =>
    obtain ⟨hsome, hall⟩ := h piece (List.mem_cons_self ..)
    have hrest := ih fun q hq => h q (List.mem_cons_of_mem _ hq)
    cases pieces with
    | nil =>
      rw [List.intercalate_singleton]
      have hlast : MaximalRuns p (piece ++ []) [piece] := .first hsome hall (by simp) hrest
      rwa [List.append_nil] at hlast
    | cons next pieces =>
      rw [List.intercalate_cons_cons, List.append_assoc]
      exact .first hsome hall (by simpa using hx) (hrest.cons_gap hx)

/-! ## Pieces of a run -/

/-- The pieces of a size that fit into a list, cut from the left. -/
def chunks (size : Nat) (xs : List α) : List (List α) :=
  (List.range (xs.length / size)).map fun i => (xs.drop (size * i)).take size

theorem chunks_of_short {size : Nat} (h : xs.length < size) : chunks size xs = [] := by
  rw [chunks, Nat.div_eq_of_lt h]
  rfl

theorem chunks_append {size : Nat} (hsize : 0 < size) {piece : List α} (h : piece.length = size)
    (rest : List α) : chunks size (piece ++ rest) = piece :: chunks size rest := by
  have hcount : (piece ++ rest).length / size = rest.length / size + 1 := by
    rw [List.length_append, h, Nat.add_comm, Nat.add_div_right _ hsize]
  have hfirst : ((piece ++ rest).drop (size * 0)).take size = piece := by
    rw [Nat.mul_zero, List.drop_zero, ← h, List.take_left]
  have hnext : ∀ i, (piece ++ rest).drop (size * (i + 1)) = rest.drop (size * i) := by
    intro i
    rw [Nat.mul_succ, Nat.add_comm, ← List.drop_drop, ← h, List.drop_left]
  rw [chunks, hcount, List.range_succ_eq_map, List.map_cons, List.map_map, chunks, hfirst]
  refine congrArg _ (List.map_congr_left fun i _ => ?_)
  rw [Function.comp_apply, Nat.succ_eq_add_one, hnext]

theorem length_of_mem_chunks {size : Nat} {piece : List α} (h : piece ∈ chunks size xs) :
    piece.length = size := by
  obtain ⟨i, hi, rfl⟩ := List.mem_map.mp h
  -- the next piece begins behind this one, still within the list
  have hfits : size * (i + 1) ≤ xs.length :=
    Nat.le_trans (Nat.mul_le_mul_left size (List.mem_range.mp hi)) (Nat.mul_div_le ..)
  rw [List.length_take, List.length_drop]
  rw [Nat.mul_succ] at hfits
  omega

theorem mem_of_mem_chunks {size : Nat} {piece : List α} (h : piece ∈ chunks size xs)
    (hx : x ∈ piece) : x ∈ xs := by
  obtain ⟨i, -, rfl⟩ := List.mem_map.mp h
  exact List.mem_of_mem_drop (List.mem_of_mem_take hx)

end Text

namespace KeySet

open Text

/-! ## The scanner -/

/-- The keys that are cut from a run. -/
def keysOf (run : List Char) : List String := (chunks keyLength run).map String.ofList

/-- The scanner on the rest of a run, with the characters of the key at hand. -/
theorem scan_run {run rest : List Char} (hrun : ∀ c ∈ run, Identity.isAlphabetic c = true)
    (hend : ∀ c ∈ rest.head?, Identity.isAlphabetic c = false) (held : List Char)
    (hheld : held.length < keyLength) :
    scan held (run ++ rest) = keysOf (held.reverse ++ run) ++ scan [] rest := by
  induction run generalizing held with
  | nil =>
    have hshort : keysOf held.reverse = [] := by
      rw [keysOf, chunks_of_short (by rwa [List.length_reverse])]
      rfl
    rw [List.nil_append, List.append_nil, hshort, List.nil_append]
    cases rest with
    | nil => rfl
    | cons c rest =>
      have hc : Identity.isAlphabetic c = false := hend c (by simp)
      simp [scan, hc]
  | cons c run ih =>
    have hc : Identity.isAlphabetic c = true := hrun c (List.mem_cons_self ..)
    have ih := ih fun d hd => hrun d (List.mem_cons_of_mem _ hd)
    have hmove : held.reverse ++ c :: run = (c :: held).reverse ++ run := by simp
    rw [List.cons_append, scan, if_pos hc, hmove]
    split
    · next hfull =>
      have hpiece : (c :: held).reverse.length = keyLength := by simpa using hfull
      rw [ih [] (by decide), keysOf, keysOf, chunks_append (by decide) hpiece]
      rfl
    · next hroom =>
      refine ih (c :: held) ?_
      rw [List.length_cons]
      omega

/-- Between runs there are no keys. -/
theorem scan_gap {gap : List Char} (hgap : ∀ c ∈ gap, Identity.isAlphabetic c = false)
    (rest : List Char) : scan [] (gap ++ rest) = scan [] rest := by
  induction gap with
  | nil => rfl
  | cons c gap ih =>
    have hc : Identity.isAlphabetic c = false := hgap c (List.mem_cons_self ..)
    rw [List.cons_append, scan, if_neg (by simp [hc]),
      ih fun d hd => hgap d (List.mem_cons_of_mem _ hd)]

/-- The keys in a text are those that are cut from its runs. -/
theorem scan_eq {cs : List Char} {runs : List (List Char)}
    (h : MaximalRuns Identity.isAlphabetic cs runs) : scan [] cs = runs.flatMap keysOf := by
  induction h with
  | @none gap hgap =>
    have hscan := scan_gap hgap []
    rwa [List.append_nil] at hscan
  | @run gap run rest runs hgap _ hrun hend _ ih =>
    rw [List.append_assoc, scan_gap hgap, scan_run hrun hend [] (by decide), ih]
    rfl

/-- Whether a text has the form of a key. -/
def IsKey (key : String) : Prop :=
  key.length = keyLength ∧ ∀ c ∈ key.toList, Identity.isAlphabetic c = true

theorem isKey_of_mem_scan {cs : List Char} {key : String} (h : key ∈ scan [] cs) : IsKey key := by
  obtain ⟨runs, hruns⟩ := exists_maximalRuns Identity.isAlphabetic cs
  rw [scan_eq hruns] at h
  obtain ⟨run, hrun, hkey⟩ := List.mem_flatMap.mp h
  obtain ⟨piece, hpiece, rfl⟩ := List.mem_map.mp hkey
  refine ⟨by rw [String.length_ofList, length_of_mem_chunks hpiece], fun c hc => ?_⟩
  rw [String.toList_ofList] at hc
  exact hruns.of_mem hrun c (mem_of_mem_chunks hpiece hc)

/-! ## Keys with commas between them -/

theorem keysOf_key {key : String} (h : IsKey key) : keysOf key.toList = [key] := by
  have hlength : key.toList.length = keyLength := by rw [String.length_toList, h.1]
  have hchunks := chunks_append (by decide) hlength []
  rw [List.append_nil] at hchunks
  rw [keysOf, hchunks]
  simp [chunks, keyLength]

/-- The keys are the runs of the text that joins them. -/
theorem maximalRuns_joined {keys : List String} (h : ∀ key ∈ keys, IsKey key) :
    MaximalRuns Identity.isAlphabetic (joined ⟨keys⟩).toList (keys.map String.toList) := by
  rw [joined, String.toList_intercalate]
  refine maximalRuns_intercalate (by decide) fun piece hpiece => ?_
  obtain ⟨key, hkey, rfl⟩ := List.mem_map.mp hpiece
  obtain ⟨hlength, hall⟩ := h key hkey
  refine ⟨fun hnone => ?_, hall⟩
  rw [← String.length_toList, hnone] at hlength
  cases hlength

theorem scan_joined {keys : List String} (h : ∀ key ∈ keys, IsKey key) :
    scan [] (joined ⟨keys⟩).toList = keys := by
  rw [scan_eq (maximalRuns_joined h), List.flatMap_map]
  calc keys.flatMap (fun key => keysOf key.toList)
    _ = keys.flatMap fun key => [key] :=
      List.flatMap_congr fun key hkey => keysOf_key (h key hkey)
    _ = keys := List.flatMap_singleton' keys

/-! ## Reading -/

theorem parse_eq_ite (text : String) :
    parse text
      = if scan [] text.toList = [] then .error .invalidKey else .ok ⟨scan [] text.toList⟩ := by
  rw [parse]
  split
  · next hnone => rw [if_pos hnone]
  · next hsome => rw [if_neg hsome]

theorem parse_joined {keys : List String} (hsome : keys ≠ []) (h : ∀ key ∈ keys, IsKey key) :
    parse (joined ⟨keys⟩) = .ok ⟨keys⟩ := by
  rw [parse_eq_ite, scan_joined h, if_neg hsome]

/-- What is read are keys, and at least one. -/
theorem isKey_of_parse {text : String} {keys : KeySet} (h : parse text = .ok keys) :
    keys.keys ≠ [] ∧ ∀ key ∈ keys.keys, IsKey key := by
  rw [parse_eq_ite] at h
  split at h
  · cases h
  · next hsome =>
    obtain rfl := Except.ok.inj h
    exact ⟨hsome, fun key hkey => isKey_of_mem_scan hkey⟩

theorem eq_invalidKey_of_parse {text : String} {e : BusError} (h : parse text = .error e) :
    e = .invalidKey := by
  rw [parse_eq_ite] at h
  split at h
  · exact (Except.error.inj h).symm
  · cases h

/-! ## Main theorem -/

/-- The keys that are read from a text are, run by run, the pieces of 32
    characters from the start of each maximal run of digits and lower-case
    letters; a text without any is refused.  Keys with commas between them are
    read as they are, and so what was read from a text is read again. -/
theorem parse_eq_keys_of_runs (text : String) :
    (∃ runs, MaximalRuns Identity.isAlphabetic text.toList runs) ∧
    (∀ runs, MaximalRuns Identity.isAlphabetic text.toList runs →
      let keys := runs.flatMap fun run => (chunks 32 run).map String.ofList
      parse text = if keys = [] then .error .invalidKey else .ok ⟨keys⟩) ∧
    (∀ keys : List String, keys ≠ [] →
      (∀ key ∈ keys, key.length = 32 ∧ ∀ c ∈ key.toList, Identity.isAlphabetic c = true) →
      parse (joined ⟨keys⟩) = .ok ⟨keys⟩) ∧
    (∀ keys : KeySet, parse text = .ok keys → parse keys.joined = .ok keys) := by
  refine ⟨exists_maximalRuns _ _, ?_, fun keys hsome hkeys => parse_joined hsome hkeys, ?_⟩
  · intro runs hruns keys
    have hscan : scan [] text.toList = keys := scan_eq hruns
    rw [parse_eq_ite, hscan]
  · intro keys hparse
    obtain ⟨hsome, hkeys⟩ := isKey_of_parse hparse
    exact parse_joined hsome hkeys

/-- A run of seventy characters with a letter outside of ASCII in front, and a run
    that is too short behind a capital. -/
theorem parse_eq_keys_of_runs_seventy :
    let first := "0123456789abcdefghijklmnopqrstuv"
    let second := "wxyz0123456789abcdefghijklmnopqr"
    let text := "é0123456789abcdefghijklmnopqrstuvwxyz0123456789abcdefghijklmnopqrstuvwxAshort"
    let runs := ["0123456789abcdefghijklmnopqrstuvwxyz0123456789abcdefghijklmnopqrstuvwx".toList,
      "short".toList]
    (MaximalRuns Identity.isAlphabetic text.toList runs ∧
      ∀ key ∈ [first, second],
        key.length = 32 ∧ ∀ c ∈ key.toList, Identity.isAlphabetic c = true) ∧
    parse text = .ok ⟨[first, second]⟩ ∧
    parse (joined ⟨[first, second]⟩) = .ok ⟨[first, second]⟩ := by
  intro first second text runs
  have haccent : Identity.isAlphabetic 'é' = false := by decide
  have hcapital : Identity.isAlphabetic 'A' = false := by decide
  have hend : MaximalRuns Identity.isAlphabetic (['A'] ++ "short".toList ++ []) ["short".toList] :=
    .run (by simpa using hcapital) (by decide) (List.all_eq_true.mp (by decide)) (by simp)
      (.none (by simp))
  have htext : text.toList = ['é']
      ++ "0123456789abcdefghijklmnopqrstuvwxyz0123456789abcdefghijklmnopqrstuvwx".toList
      ++ (['A'] ++ "short".toList ++ []) := by decide
  have hruns : MaximalRuns Identity.isAlphabetic text.toList runs := by
    rw [htext]
    exact .run (by simpa using haccent) (by decide) (List.all_eq_true.mp (by decide))
      (by simpa using hcapital) hend
  have hkeys : ∀ key ∈ [first, second],
      key.length = 32 ∧ ∀ c ∈ key.toList, Identity.isAlphabetic c = true := by
    simp only [List.forall_mem_cons, List.not_mem_nil, false_implies, implies_true, and_true,
      ← List.all_eq_true]
    decide
  have hcut : (runs.flatMap fun run => (chunks 32 run).map String.ofList) = [first, second] := by
    decide
  obtain ⟨-, hparse, hjoined, -⟩ := parse_eq_keys_of_runs text
  refine ⟨⟨hruns, hkeys⟩, ?_, hjoined [first, second] (by decide) hkeys⟩
  rw [hparse runs hruns, hcut]
  rfl

end KeySet

end MessageBus
