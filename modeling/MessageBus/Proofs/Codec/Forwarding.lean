import MessageBus.Proofs.Codec.FirstKey
import MessageBus.Proofs.Json.FirstCharacter

/-! # Texts that are passed on

    Sealing a text and reading the body with the key comes to the same as reading
    the text itself, whatever bytes it is made of: where the text is no message,
    neither is the sealed body.  Blanks are dealt with in different places on the
    two ways, and not all that the bus takes for blanks are blanks to JSON; but in
    the end both read the very same bytes.

    What came out can therefore be handed on in the clear, to whoever, and is
    read as the same message again.  For that the text of a message has to look
    like one in the clear: an object has a brace at its beginning.

    * `find_of_readObject`: the text of an object in the clear.
    * `parse_sealed_eq_clear`: sealed and in the clear, and once more. -/

namespace MessageBus.Codec

variable {c : Codec} {body plain vector : Bytes} {key raw : String} {fields : Fields}
  {e : Envelope} {keys : KeySet}

/-! ## The text of an object -/

/-- What is a blank to JSON is a blank on the bus. -/
theorem utf8EncodeChar_of_isSpace {blank : Char} (h : Json.Reader.isSpace blank = true) :
    ∀ b ∈ String.utf8EncodeChar blank, Bytes.isBlank b = true := by
  simp only [Json.Reader.isSpace, Bool.or_eq_true, beq_iff_eq] at h
  rcases h with ((rfl | rfl) | rfl) | rfl
  all_goals exact List.all_eq_true.mp (by decide)

/-- The text of an object would be taken for a body in the clear. -/
theorem find_of_readObject (h : Json.readObject? raw = some fields) :
    (utf8 raw).find? (fun b => !Bytes.isBlank b) = some openBrace := by
  have hread : Json.read? raw = some (.obj fields) := by
    unfold Json.readObject? at h
    split at h
    · next fields' hread =>
      cases h
      exact hread
    · cases h
  obtain ⟨blanks, first, rest, hraw, hblanks, -, hfirst⟩ := Json.exists_first_of_read hread
  obtain rfl : first = '\x7b' := beq_iff_eq.mp hfirst.symm
  have hbytes : utf8 raw = blanks.flatMap String.utf8EncodeChar ++
      openBrace :: rest.flatMap String.utf8EncodeChar := by
    rw [← String.ofList_toList (s := raw), Base64.utf8_ofList, hraw, List.flatMap_append]
    rfl
  have hnone : (blanks.flatMap String.utf8EncodeChar).find? (fun b => !Bytes.isBlank b) = none := by
    refine List.find?_eq_none.mpr fun b hb => ?_
    obtain ⟨blank, hblank, hmem⟩ := List.mem_flatMap.mp hb
    simp [utf8EncodeChar_of_isSpace (hblanks blank hblank) b hmem]
  rw [hbytes, List.find?_append, hnone, Option.none_or]
  rfl

/-! ## Once more -/

/-- What was read is read again from its text. -/
theorem parse_raw (h : c.parse body keys = some e) (keys' : KeySet) :
    c.parse (utf8 e.raw) keys' = some e := by
  obtain ⟨raw, fields, hdecode, hother, rfl⟩ := parse_eq_some_iff.mp h
  have hread := readObject_of_decode hdecode
  refine parse_eq_some_iff.mpr ⟨raw, fields, ?_, hother, rfl⟩
  exact (decode_brace (find_of_readObject hread) keys').trans
    (readObject_eq_some_iff.mpr ⟨rfl, hread⟩)

/-! ## Main theorem -/

/-- Bytes that begin with a brace are read in the same way in the clear, with any
    keys, and sealed, with the key that sealed them; and what is read from any
    body is read again from its text, with any keys. -/
theorem parse_sealed_eq_clear (c : Codec) :
    (∀ (plain vector : Bytes) (key : String) (keys : KeySet),
      plain.find? (fun b => !Bytes.isBlank b) = some openBrace →
      (utf8 key).length ∈ [16, 24, 32] → vector.length = 16 →
      ∃ wire, Sealed.close (utf8 key) vector plain = .ok wire ∧
        c.parse (utf8 wire) ⟨[key]⟩ = c.parse plain keys) ∧
    ∀ (body : Bytes) (keys : KeySet) (e : Envelope), c.parse body keys = some e →
      ∀ keys' : KeySet, c.parse (utf8 e.raw) keys' = some e := by
  refine ⟨?_, fun body keys e h keys' => parse_raw h keys'⟩
  intro plain vector key keys hbrace hkey hvector
  obtain ⟨wire, hclose⟩ := Sealed.close_ok (Sealed.isKeySize_iff.mpr hkey) vector plain
  refine ⟨wire, hclose, ?_⟩
  rw [parse, parse, decode_only_key hvector hclose, decode_brace hbrace]

/-- A text with blanks around the object, sealed with a key of sixteen bytes, in the
    clear to someone with another key, and handed on without keys. -/
theorem parse_sealed_eq_clear_indented :
    let raw := "\n \x7b\"id\":\"b-1\"\x7d\t"
    let vector : Bytes := List.replicate 16 7
    let key := "0123456789abcdef"
    let reader : Codec := ⟨"a-1", default⟩
    let e : Envelope := .received [("id", .str "b-1")] raw
    ((utf8 raw).find? (fun b => !Bytes.isBlank b) = some openBrace ∧
      (utf8 key).length ∈ [16, 24, 32] ∧ vector.length = 16) ∧
    ∃ wire, Sealed.close (utf8 key) vector (utf8 raw) = .ok wire ∧
      reader.parse (utf8 wire) ⟨[key]⟩ = some e ∧
      reader.parse (utf8 raw) ⟨["fedcba9876543210"]⟩ = some e ∧
      reader.parse (utf8 e.raw) .empty = some e := by
  have hread : Json.readObject? "\n \x7b\"id\":\"b-1\"\x7d\t" = some [("id", .str "b-1")] := by rfl
  intro raw vector key reader e
  have hkey : (utf8 key).length ∈ [16, 24, 32] := by decide
  have hbrace : (utf8 raw).find? (fun b => !Bytes.isBlank b) = some openBrace :=
    find_of_readObject hread
  have hclear : reader.parse (utf8 raw) ⟨["fedcba9876543210"]⟩ = some e := by
    refine parse_eq_some_iff.mpr ⟨raw, _, ?_, by decide, rfl⟩
    rw [decode_brace hbrace, readObject_eq_some_iff]
    exact ⟨rfl, hread⟩
  obtain ⟨hways, hagain⟩ := parse_sealed_eq_clear reader
  obtain ⟨wire, hclose, hwire⟩ := hways (utf8 raw) vector key ⟨["fedcba9876543210"]⟩ hbrace hkey rfl
  have hsealed : reader.parse (utf8 wire) ⟨[key]⟩ = some e := hwire.trans hclear
  exact ⟨⟨hbrace, hkey, rfl⟩, wire, hclose, hsealed, hclear, hagain _ _ e hsealed .empty⟩

end MessageBus.Codec
