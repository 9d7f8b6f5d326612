import Mathlib.Data.List.Forall2
import MessageBus.Proofs.Codec.Sealing
import MessageBus.Proofs.Json.Exact

/-! # What arrives of a message

    A message is marked by its sender, written, and sealed once for each usable
    key.  Every one of these steps has its partner at the receiver, so of an
    object without floating-point numbers every body yields the marked object,
    and the text it was sealed from, to whoever holds the key of that body.

    * `get_tag`: what the marks of the sender change.
    * `forall_sealAll`: one body for each usable key, in the order of the keys.
    * `parse_sealed`: a body with its key is read as its text.
    * `parse_prepare`: what every body of a message yields. -/

namespace MessageBus.Codec

open Json

/-! ## The marks of the sender -/

/-- What a sender sets a member to, if it does. -/
def mark? (c : Codec) (sent : Timestamp) (name : String) : Option String :=
  if name = "id" then some c.id
  else if name = "hostname" then c.host.hostname
  else if name = "ip" then c.host.ip
  else if name = "sent" then some sent.render
  else none

theorem get_insertText (fields : Fields) (name other : String) (text? : Option String) :
    (insertText? fields name text?).get? other
      = if other = name then (text?.map Json.str).or (fields.get? other)
        else fields.get? other := by
  cases text? with
  | none => simp [insertText?]
  | some s =>
    split
    · next heq =>
      subst heq
      exact Table.get?_insert fields other (.str s)
    · next hne => exact Table.get?_insert_ne fields (.str s) hne

/-- The marks come in place of what the object said, all else stays. -/
theorem get_tag (c : Codec) (sent : Timestamp) (contents : Fields) (name : String) :
    (c.tag sent contents).get? name
      = ((c.mark? sent name).map Json.str).or (contents.get? name) := by
  -- a mark that is always set is one with a text
  have hset : ∀ (fields : Fields) (mark s : String),
      fields.insert mark (.str s) = insertText? fields mark (some s) := fun _ _ _ => rfl
  simp only [tag, hset, get_insertText, mark?]
  by_cases hid : name = "id"
  · subst hid
    rfl
  by_cases hhost : name = "hostname"
  · subst hhost
    rfl
  by_cases hip : name = "ip"
  · subst hip
    rfl
  by_cases hsent : name = "sent"
  · subst hsent
    rfl
  simp [hid, hhost, hip, hsent]

/-! ## One body for each usable key -/

theorem isUsable_iff (key : String) :
    isUsable key = true ↔ (utf8 key).length ∈ [16, 24, 32] :=
  Sealed.isKeySize_iff

/-- A body that was sealed for a key. -/
def IsSealed (text key body : String) : Prop :=
  ∃ vector : Bytes, vector.length = Sealed.vectorSize ∧
    Sealed.close (utf8 key) vector (utf8 text) = .ok body

/-- Every usable key has its body, and no other key has one. -/
theorem forall_sealAll (text : String) (keys : List String) {vectors : List Bytes}
    (hcount : keys.length ≤ vectors.length)
    (hsizes : ∀ v ∈ vectors, v.length = Sealed.vectorSize) :
    List.Forall₂ (IsSealed text) (keys.filter isUsable) (sealAll text keys vectors) := by
  induction keys generalizing vectors with
  | nil => exact .nil
  | cons key keys ih =>
    obtain ⟨vector, rest, rfl⟩ := List.exists_cons_of_length_pos
      (Nat.lt_of_lt_of_le (Nat.succ_pos keys.length) hcount)
    rw [sealAll]
    cases husable : isUsable key with
    | true =>
      obtain ⟨body, hbody⟩ := Sealed.close_ok husable vector (utf8 text)
      have hrest : List.Forall₂ (IsSealed text) (keys.filter isUsable) (sealAll text keys rest) :=
        ih (Nat.le_of_succ_le_succ hcount) fun v hv => hsizes v (List.mem_cons_of_mem _ hv)
      have hsize := hsizes vector (List.mem_cons_self ..)
      simp only [List.filter_cons, husable, if_true, List.headD_cons, hbody, List.tail_cons]
      exact .cons ⟨vector, hsize, hbody⟩ hrest
    | false =>
      -- such a key uses up no vector
      have hbody : Sealed.close (utf8 key) vector (utf8 text)
          = .error (Sealed.badKeySize (utf8 key).length) :=
        if_neg (by rw [isUsable] at husable; simp [husable])
      have hrest : List.Forall₂ (IsSealed text) (keys.filter isUsable)
          (sealAll text keys (vector :: rest)) := ih (Nat.le_of_succ_le hcount) hsizes
      simpa [List.filter_cons, husable, hbody] using hrest

/-- With keys, a message goes out unless none of them is usable. -/
theorem prepare_sealed (c : Codec) {keys : KeySet} (hkeys : keys.keys ≠ [])
    {occasion : Occasion} (hfits : occasion.fits keys = true) (contents : Fields) :
    ∃ bodies,
      List.Forall₂ (IsSealed (c.tag occasion.sent contents).write)
        (keys.keys.filter isUsable) bodies ∧
      c.prepare occasion contents keys
        = if bodies = [] then .error (.crypto "no key could encrypt the message")
          else .ok bodies := by
  rw [Occasion.fits, Bool.and_eq_true, decide_eq_true_iff, List.all_eq_true] at hfits
  obtain ⟨hcount, hsizes⟩ := hfits
  refine ⟨_, forall_sealAll _ keys.keys hcount fun v hv => beq_iff_eq.mp (hsizes v hv), ?_⟩
  have hempty : keys.isEmpty = false := List.isEmpty_eq_false_iff.mpr hkeys
  simp only [prepare, hempty]
  cases sealAll (c.tag occasion.sent contents).write keys.keys occasion.vectors <;> rfl

/-! ## What a receiver reads -/

/-- A sealed body is read with its key as its text is. -/
theorem parse_sealed (r : Codec) {fields : Fields} {key body : String}
    (h : IsSealed fields.write key body) :
    r.parse (utf8 body) ⟨[key]⟩ = r.parse (utf8 fields.write) ⟨[key]⟩ := by
  obtain ⟨vector, hvector, hclose⟩ := h
  rw [parse, parse, decode_only_key hvector hclose, decode_clear]

/-- Whoever holds the key of a body gets something out of it. -/
theorem exists_decode_of_mem {fields : Fields} {key body : String}
    (h : IsSealed fields.write key body) {keys : KeySet} (hkey : key ∈ keys.keys)
    (hread : (readObject? (utf8 fields.write)).isSome = true) :
    ∃ raw found, decode? (utf8 body) keys = some (raw, found) := by
  obtain ⟨vector, hvector, hclose⟩ := h
  have hany : (openAny? (utf8 body) keys.keys).isSome = true := by
    refine List.findSome?_isSome_iff.mpr ⟨key, hkey, ?_⟩
    rw [Sealed.openWith_close hvector hclose]
    exact hread
  obtain ⟨⟨raw, found⟩, hfound⟩ := Option.isSome_iff_exists.mp hany
  exact ⟨raw, found, (decode_close hclose keys).trans hfound⟩

/-- The text of a marked object without floating-point numbers holds the object. -/
theorem decode_exact (c : Codec) (sent : Timestamp) (keys : KeySet) {contents : Fields}
    (hexact : Exact (.obj contents)) (hdepth : (Json.obj contents).depth ≤ Reader.maxDepth) :
    decode? (utf8 (c.tag sent contents).write) keys
      = some ((c.tag sent contents).write, c.tag sent contents) := by
  rw [Exact] at hexact
  refine decode_tag c sent keys (rereadMembers_exact contents hexact.2) hexact.1 ?_
  simpa only [depth, Nat.lt_iff_add_one_le] using hdepth

/-- Everyone but the sender reads the marked object and its text. -/
theorem parse_exact {c r : Codec} (hid : r.id ≠ c.id) (sent : Timestamp) (keys : KeySet)
    {contents : Fields} (hexact : Exact (.obj contents))
    (hdepth : (Json.obj contents).depth ≤ Reader.maxDepth) :
    r.parse (utf8 (c.tag sent contents).write) keys
      = some (.received (c.tag sent contents) (c.tag sent contents).write) := by
  have hne : ¬ some c.id = some r.id := by
    intro he
    exact hid (Option.some.inj he).symm
  rw [parse, decode_exact c sent keys hexact hdepth]
  simp only [id_tag, hne, if_false]

/-! ## Main theorem -/

/-- The marked object is the given one but for the marks.  Without keys its text
    is the only body, and everyone reads it.  With keys a message goes out just
    if one of them is usable, with one body for each usable key in the order of
    the keys, and whoever holds that key reads the marked object and its text. -/
theorem parse_prepare {c r : Codec} (hid : r.id ≠ c.id) {contents : Fields}
    (hexact : Exact (.obj contents)) (hdepth : (Json.obj contents).depth ≤ 127)
    {keys : KeySet} {occasion : Occasion} (hfits : occasion.fits keys = true) :
    let tagged := c.tag occasion.sent contents
    let text := tagged.write
    (Table.Sorted tagged ∧ ∀ name,
      tagged.get? name = ((c.mark? occasion.sent name).map Json.str).or (contents.get? name)) ∧
    (keys.keys = [] →
      c.prepare occasion contents keys = .ok [text] ∧
      ∀ held : KeySet, r.parse (utf8 text) held = some (.received tagged text)) ∧
    (keys.keys ≠ [] →
      ((∃ message, c.prepare occasion contents keys = .error (.crypto message)) ↔
        ∀ key ∈ keys.keys, (utf8 key).length ∉ [16, 24, 32]) ∧
      ((∃ key ∈ keys.keys, (utf8 key).length ∈ [16, 24, 32]) →
        ∃ bodies, c.prepare occasion contents keys = .ok bodies ∧
          List.Forall₂ (fun key body =>
              IsSealed text key body ∧
              r.parse (utf8 body) ⟨[key]⟩ = some (.received tagged text))
            (keys.keys.filter fun key => (utf8 key).length ∈ [16, 24, 32]) bodies)) := by
  intro tagged text
  have hread : ∀ held : KeySet, r.parse (utf8 text) held = some (.received tagged text) :=
    fun held => parse_exact hid occasion.sent held hexact hdepth
  refine ⟨⟨?_, get_tag c occasion.sent contents⟩, ?_, ?_⟩
  · rw [Exact] at hexact
    exact sorted_tag c occasion.sent hexact.1
  · intro hnone
    exact ⟨by simp [prepare, KeySet.isEmpty, hnone, text, tagged], hread⟩
  · intro hkeys
    obtain ⟨bodies, hsealed, hprepare⟩ := prepare_sealed c hkeys hfits contents
    have hfilter : (keys.keys.filter fun key => (utf8 key).length ∈ [16, 24, 32])
        = keys.keys.filter isUsable := by
      refine List.filter_congr fun key _ => ?_
      rw [Bool.eq_iff_iff, decide_eq_true_iff, isUsable_iff]
    -- there is no body just if there is no usable key
    have hnone : bodies = [] ↔ ∀ key ∈ keys.keys, (utf8 key).length ∉ [16, 24, 32] := by
      rw [← List.length_eq_zero_iff, ← hsealed.length_eq, List.length_eq_zero_iff,
        List.filter_eq_nil_iff]
      simp only [isUsable_iff]
    refine ⟨?_, ?_⟩
    · rw [← hnone, hprepare]
      by_cases h : bodies = []
      · rw [if_pos h]
        exact ⟨fun _ => h, fun _ => ⟨_, rfl⟩⟩
      · rw [if_neg h]
        refine ⟨?_, fun he => absurd he h⟩
        rintro ⟨message, he⟩
        cases he
    · rintro ⟨key, hmem, husable⟩
      have hsome : bodies ≠ [] := fun h => hnone.mp h key hmem husable
      refine ⟨bodies, by rw [hprepare, if_neg hsome], ?_⟩
      rw [hfilter]
      refine hsealed.imp fun key body hbody => ⟨hbody, ?_⟩
      rw [parse_sealed r hbody]
      exact hread ⟨[key]⟩

/-- An object with the least and the greatest integer, nested objects, and an id
    that is not the sender's. -/
def nestedContents : Fields :=
  [("data", .arr [.num (.int (-9223372036854775808)), .num (.int 18446744073709551615),
      .obj [("", .null), ("a\"\n", .bool true)]]),
    ("id", .str "someone")]

/-- Of three keys two are usable, so there are two bodies. -/
theorem parse_prepare_two_of_three_keys :
    let c : Codec := ⟨"a", ⟨some "host", none⟩⟩
    let r : Codec := ⟨"b", ⟨none, none⟩⟩
    let keys : KeySet := ⟨["0123456789abcdef", "short", "0123456789abcdefghijklmnopqrstuv"]⟩
    let occasion : Occasion := ⟨default, List.replicate 3 (List.replicate 16 7)⟩
    let tagged := c.tag occasion.sent nestedContents
    (r.id ≠ c.id ∧ Exact (.obj nestedContents) ∧ (Json.obj nestedContents).depth ≤ 127 ∧
      occasion.fits keys = true) ∧
    ∃ bodies, c.prepare occasion nestedContents keys = .ok bodies ∧
      List.Forall₂ (fun key body =>
          IsSealed tagged.write key body ∧
          r.parse (utf8 body) ⟨[key]⟩ = some (.received tagged tagged.write))
        ["0123456789abcdef", "0123456789abcdefghijklmnopqrstuv"] bodies := by
  intro c r keys occasion tagged
  have hid : r.id ≠ c.id := by decide
  have hexact : Exact (.obj nestedContents) := by
    simp only [nestedContents, Exact, ExactItems, ExactMembers, Table.Sorted]
    decide
  have hdepth : (Json.obj nestedContents).depth ≤ 127 := by decide
  have hfits : occasion.fits keys = true := by decide
  have husable : ∃ key ∈ keys.keys, (utf8 key).length ∈ [16, 24, 32] :=
    ⟨"0123456789abcdef", List.mem_cons_self .., by decide⟩
  exact ⟨⟨hid, hexact, hdepth, hfits⟩,
    ((parse_prepare hid hexact hdepth hfits).2.2 (by decide)).2 husable⟩

end MessageBus.Codec
