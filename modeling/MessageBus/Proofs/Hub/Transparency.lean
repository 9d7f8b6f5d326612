import MessageBus.Hub.Frame
import MessageBus.Proofs.Codec.Forwarding
import MessageBus.Proofs.Json.Spaces

/-! # Frames are handed on as they are read

    The hub brings the text of every frame into one line before it hands it on,
    without a look at what the text is.  Nobody notices: a line break can only
    stand between the parts of a JSON text, where any other space does as well,
    and at the ends of a sealed body, where all that is blank to a reader of
    bodies is blank to the hub.

    * `normalize_normalize`: once is enough.
    * `normalize_write`, `normalize_padded`: texts of objects and sealed bodies.
    * `readObject_normalize`: what a text in the clear is read as.
    * `exists_blanks_around`: a body between blanks, as characters.
    * `normalize_transparent`: what becomes of all of these. -/

namespace MessageBus.Frame

variable {text body : String} {left cs right : List Char} {key vector plain : Bytes}
  {fields : Fields}

/-! ## One line -/

theorem unbreak_cases (c : Char) :
    unbreak c = c ∨ (c = '\n' ∧ Json.Reader.isSpace (unbreak c) = true) := by
  unfold unbreak
  split
  · next hnewline => exact .inr ⟨hnewline, by decide⟩
  · exact .inl rfl

theorem map_unbreak (h : '\n' ∉ cs) : cs.map unbreak = cs := by
  have hsame : ∀ c ∈ cs, unbreak c = c := by
    intro c hc
    refine if_neg ?_
    rintro rfl
    exact h hc
  rw [List.map_congr_left hsame, List.map_id']

theorem normalize_ofList (cs : List Char) :
    normalize (String.ofList cs) = String.ofList (Text.trimChars (cs.map unbreak)) := by
  rw [normalize, String.toList_ofList]

/-- A text that has been brought into one line stays as it is. -/
theorem normalize_normalize (text : String) : normalize (normalize text) = normalize text := by
  have hline := newline_notMem_normalize text
  rw [normalize.eq_1 text, String.toList_ofList] at hline
  rw [normalize.eq_1 text, normalize_ofList, map_unbreak hline, Text.trimChars_trimChars]

/-- Nothing but the blanks around it is taken from a text without blanks. -/
theorem normalize_padded (hleft : ∀ c ∈ left, Text.isBlank c = true)
    (hcs : ∀ c ∈ cs, Text.isBlank c = false) (hright : ∀ c ∈ right, Text.isBlank c = true) :
    normalize (String.ofList (left ++ cs ++ right)) = String.ofList cs := by
  have hblank : ∀ {cs : List Char}, (∀ c ∈ cs, Text.isBlank c = true) →
      ∀ c ∈ cs.map unbreak, Text.isBlank c = true := by
    intro cs hcs c hc
    obtain ⟨d, hd, rfl⟩ := List.mem_map.mp hc
    rcases unbreak_cases d with hsame | ⟨-, hspace⟩
    · rw [hsame]
      exact hcs d hd
    · exact Json.Reader.isBlank_of_isSpace hspace
  have hline : '\n' ∉ cs := fun h => by
    have hnewline := hcs _ h
    revert hnewline
    decide
  rw [normalize_ofList, List.map_append, List.map_append, map_unbreak hline,
    Text.trimChars_padded (hblank hleft) hcs (hblank hright)]

/-! ## Texts of objects -/

/-- The text of an object is handed on as it was written. -/
theorem normalize_write (fields : Fields) : normalize fields.write = fields.write := by
  have hline : '\n' ∉ (Json.obj fields).chars := Json.newline_notMem_chars _
  show normalize (String.ofList _) = _
  rw [normalize_ofList, map_unbreak hline, Json.trimChars_obj]
  rfl

/-- What is read of a text is read of it in one line. -/
theorem readObject_normalize (h : Json.readObject? text = some fields) :
    Json.readObject? (normalize text) = some fields := by
  unfold Json.readObject? at h
  split at h
  · next hread =>
    have hread := Json.read_trimChars (Json.read_map unbreak_cases hread)
    rw [Json.readObject?, normalize, hread]
    exact h
  · cases h

/-! ## Sealed bodies -/

theorem isBlank_encode {bytes : Bytes} {c : Char} (h : c ∈ (Base64.encode bytes).toList) :
    Text.isBlank c = false := by
  have hsymbol : ∀ n < 64, Text.isBlank (Char.ofNat (Base64.symbol n).toNat) = false := by decide
  rw [Base64.encode, String.toList_ofList] at h
  obtain ⟨s, hs, rfl⟩ := List.mem_map.mp h
  rcases Base64.mem_encodeBytes hs with ⟨n, hn, rfl⟩ | rfl
  · exact hsymbol n hn
  · decide

/-- A sealed body has no blanks of any kind. -/
theorem isBlank_close (h : Sealed.close key vector plain = .ok body) :
    ∀ c ∈ body.toList, Text.isBlank c = false := by
  obtain ⟨-, rfl⟩ := Sealed.closeBy_eq_ok_iff.mp h
  exact fun c hc => isBlank_encode hc

theorem normalize_close (h : Sealed.close key vector plain = .ok body) : normalize body = body := by
  have hnone : ∀ c ∈ ([] : List Char), Text.isBlank c = true := by simp
  have hpadded := normalize_padded hnone (isBlank_close h) hnone
  rwa [List.nil_append, List.append_nil, String.ofList_toList] at hpadded

/-! ## Bytes and characters -/

theorem utf8_injective : Function.Injective utf8 := by
  intro s t h
  have hs := Bytes.text?_utf8 s
  rw [h, Bytes.text?_utf8 t] at hs
  exact (Option.some.inj hs).symm

theorem utf8_append (a b : List Char) :
    utf8 (String.ofList (a ++ b)) = utf8 (String.ofList a) ++ utf8 (String.ofList b) := by
  simp only [Base64.utf8_ofList, List.flatMap_append]

/-- Blank bytes are blank characters. -/
theorem exists_blanks {bytes : Bytes} (h : ∀ b ∈ bytes, Bytes.isBlank b = true) :
    ∃ cs, utf8 (String.ofList cs) = bytes ∧ ∀ c ∈ cs, Text.isBlank c = true := by
  have hall : ([0x20, 0x09, 0x0A, 0x0D, 0x0C] : Bytes).all (fun b =>
      String.utf8EncodeChar (Char.ofNat b.toNat) == [b] &&
        Text.isBlank (Char.ofNat b.toNat)) = true := by decide
  have hchar : ∀ b ∈ ([0x20, 0x09, 0x0A, 0x0D, 0x0C] : Bytes),
      String.utf8EncodeChar (Char.ofNat b.toNat) = [b] ∧
        Text.isBlank (Char.ofNat b.toNat) = true := by
    intro b hb
    simpa only [Bool.and_eq_true, beq_iff_eq] using List.all_eq_true.mp hall b hb
  induction bytes with
  | nil => exact ⟨[], rfl, by simp⟩
  | cons b bytes ih =>
    obtain ⟨cs, hbytes, hcs⟩ := ih fun b hb => h b (List.mem_cons_of_mem _ hb)
    obtain ⟨hc, hblank⟩ := hchar b (Bytes.isBlank_iff.mp (h b (List.mem_cons_self ..)))
    refine ⟨Char.ofNat b.toNat :: cs, ?_, List.forall_mem_cons.mpr ⟨hblank, hcs⟩⟩
    rw [Base64.utf8_ofList, List.flatMap_cons, hc, ← Base64.utf8_ofList, hbytes]
    rfl

/-- A text that is some body but for the blanks around it. -/
theorem exists_blanks_around (h : Bytes.trim (utf8 text) = utf8 body) :
    ∃ left right : List Char, (∀ c ∈ left, Text.isBlank c = true) ∧
      (∀ c ∈ right, Text.isBlank c = true) ∧
      text = String.ofList (left ++ body.toList ++ right) := by
  obtain ⟨leftBytes, rightBytes, hleft, hright, hbytes⟩ := Bytes.exists_padding (utf8 text)
  obtain ⟨left, rfl, hleftBlank⟩ := exists_blanks hleft
  obtain ⟨right, rfl, hrightBlank⟩ := exists_blanks hright
  refine ⟨left, right, hleftBlank, hrightBlank, utf8_injective ?_⟩
  rw [hbytes, h, utf8_append, utf8_append, String.ofList_toList]

/-- What opens with some key is a sealed body, and in one line it is that body
    alone. -/
theorem close_normalize (h : Sealed.openWith key (utf8 text) = .ok plain) :
    ∃ vector, Sealed.close key vector plain = .ok (normalize text) ∧
      Bytes.trim (utf8 text) = utf8 (normalize text) := by
  obtain ⟨data, body, -, -, hclose, htrim⟩ :=
    Sealed.closeBy_of_openBy (Sealed.keepsSize_aes key) h
  obtain ⟨left, right, hleft, hright, htext⟩ := exists_blanks_around htrim
  have hbody : normalize text = body := by
    rw [htext, normalize_padded hleft (isBlank_close hclose) hright, String.ofList_toList]
  rw [hbody]
  exact ⟨_, hclose, htrim⟩

/-- The blanks around a body make no difference to those who open it. -/
theorem openAny_congr {wire wire' : Bytes} (h : Bytes.trim wire = Bytes.trim wire')
    (keys : List String) : Codec.openAny? wire keys = Codec.openAny? wire' keys := by
  unfold Codec.openAny? Sealed.openWith Sealed.openBy
  rw [h]

/-- A text that some key opens is opened in the same way in one line. -/
theorem decode_normalize {keys : KeySet} {entry : String × Fields}
    (h : Codec.openAny? (utf8 text) keys.keys = some entry) :
    Codec.decode? (utf8 (normalize text)) keys = some entry := by
  obtain ⟨key, -, hkey⟩ := List.exists_of_findSome?_eq_some h
  split at hkey
  · next plain hopen =>
    obtain ⟨vector, hclose, htrim⟩ := close_normalize hopen
    -- a sealed body is what is left of it between blanks
    have hself : Bytes.trim (utf8 (normalize text)) = utf8 (normalize text) := by
      have hnone : ∀ b ∈ ([] : Bytes), Bytes.isBlank b = true := by simp
      have hpadded := Bytes.trim_padded hnone (Sealed.not_isBlank_of_closeBy hclose) hnone
      rwa [List.nil_append, List.append_nil] at hpadded
    rw [Codec.decode_close hclose, openAny_congr (hself.trans htrim.symm), h]
  · cases hkey

/-! ## Main theorem -/

open Codec in
/-- What goes out is handed on unchanged; what has been handed on once is not
    changed any more; and whatever is read of a text as it came is read of it as
    it is handed on: the same contents, and from a sealed body the same text. -/
theorem normalize_transparent :
    (∀ (codec : Codec) (occasion : Occasion) (contents : Fields) (keys : KeySet)
      (bodies : List String), codec.prepare occasion contents keys = .ok bodies →
      ∀ body ∈ bodies, normalize body = body) ∧
    (∀ text, normalize (normalize text) = normalize text) ∧
    ∀ (codec : Codec) (text : String) (keys : KeySet) (e : Envelope),
      codec.parse (utf8 text) keys = some e →
      ∃ e', codec.parse (utf8 (normalize text)) keys = some e' ∧ e'.contents = e.contents ∧
        e'.isInternal = e.isInternal ∧
        ((utf8 text).find? (fun b => !Bytes.isBlank b) = some openBrace →
          e'.raw = normalize e.raw) ∧
        ((utf8 text).find? (fun b => !Bytes.isBlank b) ≠ some openBrace → e'.raw = e.raw) := by
  refine ⟨?_, normalize_normalize, ?_⟩
  · intro codec occasion contents keys bodies hprepare body hbody
    rcases shown_of_prepare hprepare hbody with ⟨-, rfl⟩ | ⟨-, key, -, vector, hclose⟩
    · exact normalize_write _
    · exact normalize_close hclose
  · intro codec text keys e hparse
    obtain ⟨raw, fields, hdecode, hother, rfl⟩ := parse_eq_some_iff.mp hparse
    -- the first byte that is no blank decides how a body is read
    by_cases hbrace : (utf8 text).find? (fun b => !Bytes.isBlank b) = some openBrace
    · rw [decode_brace hbrace, readObject_eq_some_iff] at hdecode
      obtain ⟨htext, hread⟩ := hdecode
      obtain rfl := utf8_injective htext
      have hnormal := readObject_normalize hread
      have hdecode : decode? (utf8 (normalize text)) keys = some (normalize text, fields) := by
        rw [decode_brace (find_of_readObject hnormal)]
        exact readObject_eq_some_iff.mpr ⟨rfl, hnormal⟩
      refine ⟨.received fields (normalize text), ?_, rfl, rfl, fun _ => rfl,
        fun hsealed => absurd hbrace hsealed⟩
      exact parse_eq_some_iff.mpr ⟨_, _, hdecode, hother, rfl⟩
    · refine ⟨.received fields raw, ?_, rfl, rfl, fun hclear => absurd hclear hbrace, fun _ => rfl⟩
      rw [decode_sealed hbrace] at hdecode
      exact parse_eq_some_iff.mpr ⟨_, _, decode_normalize hdecode, hother, rfl⟩

open Codec in
/-- A message that is sealed, the text of an object with a line break behind the
    colon and another at its end, and that text sealed, with a line break behind
    the body. -/
theorem normalize_transparent_lines :
    let key := "0123456789abcdef"
    let vector : Bytes := List.replicate 16 7
    let text := " \x7b\"id\":\n\"b-1\"\x7d\n"
    let reader : Codec := ⟨"a-1", default⟩
    let sender : Codec := ⟨"b-1", default⟩
    let e : Envelope := .received [("id", .str "b-1")] text
    ∃ body wire framed,
      (sender.prepare ⟨default, [vector]⟩ [] ⟨[key]⟩ = .ok [body] ∧
        reader.parse (utf8 text) .empty = some e ∧
        (utf8 text).find? (fun b => !Bytes.isBlank b) = some openBrace ∧
        Sealed.close (utf8 key) vector (utf8 text) = .ok wire ∧
        framed = String.ofList (wire.toList ++ ['\n']) ∧
        reader.parse (utf8 framed) ⟨[key]⟩ = some e ∧
        (utf8 framed).find? (fun b => !Bytes.isBlank b) ≠ some openBrace) ∧
      normalize body = body ∧ normalize (normalize text) = normalize text ∧
      normalize text = "\x7b\"id\": \"b-1\"\x7d" ∧
      (∃ e', reader.parse (utf8 (normalize text)) .empty = some e' ∧ e'.contents = e.contents ∧
        e'.raw = normalize text) ∧
      ∃ e', reader.parse (utf8 (normalize framed)) ⟨[key]⟩ = some e' ∧ e'.contents = e.contents ∧
        e'.raw = text := by
  have hread : Json.readObject? " \x7b\"id\":\n\"b-1\"\x7d\n" = some [("id", .str "b-1")] := by rfl
  intro key vector text reader sender e
  have hother : Fields.text? [("id", .str "b-1")] "id" ≠ some reader.id := by decide
  have hbrace : (utf8 text).find? (fun b => !Bytes.isBlank b) = some openBrace :=
    find_of_readObject hread
  have hclear : reader.parse (utf8 text) .empty = some e := by
    refine parse_eq_some_iff.mpr ⟨text, _, ?_, hother, rfl⟩
    rw [decode_brace hbrace, readObject_eq_some_iff]
    exact ⟨rfl, hread⟩
  have hsingle : (KeySet.mk [key]).IsSingle := .inr ⟨key, rfl, by decide⟩
  have hfits : (Occasion.mk default [vector]).fits ⟨[key]⟩ = true := by decide
  have hsize : Aes.isKeySize (utf8 key).length = true := by decide
  obtain ⟨body, hbody, -⟩ := prepare_single sender hsingle hfits []
  obtain ⟨wire, hclose⟩ := Sealed.close_ok hsize vector (utf8 text)
  have hframed : utf8 (String.ofList (wire.toList ++ ['\n'])) = utf8 wire ++ [0x0A] := by
    rw [utf8_append, String.ofList_toList]
    rfl
  have hsealed : (utf8 (String.ofList (wire.toList ++ ['\n']))).find? (fun b => !Bytes.isBlank b)
      ≠ some openBrace := by
    have hnone : ([0x0A] : Bytes).find? (fun b => !Bytes.isBlank b) = none := by decide
    rw [hframed, List.find?_append, hnone, Option.or_none]
    exact find_sealed hclose
  have hnone : ∀ b ∈ ([] : Bytes), Bytes.isBlank b = true := by simp
  have hopen : Sealed.openWith (utf8 key) ([] ++ utf8 wire ++ [0x0A]) = .ok (utf8 text) :=
    Sealed.openBy_closeBy (Sealed.keepsSize_aes _) rfl hclose hnone
      (List.forall_mem_singleton.mpr rfl)
  rw [List.nil_append] at hopen
  have hparse : reader.parse (utf8 (String.ofList (wire.toList ++ ['\n']))) ⟨[key]⟩ = some e := by
    refine parse_eq_some_iff.mpr ⟨text, _, ?_, hother, rfl⟩
    rw [decode_sealed hsealed, hframed, openAny?, List.findSome?_singleton, hopen]
    exact readObject_eq_some_iff.mpr ⟨rfl, hread⟩
  obtain ⟨hprepared, htwice, hparsed⟩ := normalize_transparent
  have hclear' : ∃ e', reader.parse (utf8 (normalize text)) .empty = some e' ∧
      e'.contents = e.contents ∧ e'.raw = normalize text := by
    obtain ⟨e', he', hcontents, -, hraw, -⟩ := hparsed reader text .empty e hclear
    exact ⟨e', he', hcontents, hraw hbrace⟩
  have hsealed' : ∃ e', reader.parse (utf8 (normalize (String.ofList (wire.toList ++ ['\n']))))
      ⟨[key]⟩ = some e' ∧ e'.contents = e.contents ∧ e'.raw = text := by
    obtain ⟨e', he', hcontents, -, -, hraw⟩ := hparsed reader _ ⟨[key]⟩ e hparse
    exact ⟨e', he', hcontents, hraw hsealed⟩
  have hline : normalize text = "\x7b\"id\": \"b-1\"\x7d" := by decide
  have hsame : normalize body = body := hprepared _ _ _ _ _ hbody body (List.mem_singleton.mpr rfl)
  refine ⟨body, wire, _, ⟨hbody, hclear, hbrace, hclose, rfl, hparse, hsealed⟩, hsame, htwice text,
    hline, hclear', ?_⟩
  exact hsealed'

end MessageBus.Frame
