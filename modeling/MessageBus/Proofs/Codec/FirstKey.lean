import MessageBus.Proofs.Codec.Sealing

/-! # The first key that opens a body

    A body that does not begin with a brace is opened with the keys in turn.  A
    key fails in one of four ways: the body is no encoding, it is too short, the
    key has no usable size, or what comes out is not the text of an object.  All
    such keys are passed over, and the first other one decides for good: its
    object is what the body holds, even where that is dropped as an echo and a
    later key would have opened the body to something else.

    * `openAny_eq_some_iff`: the key that decides.
    * `openAny_filter`: the keys that do not matter.
    * `parse_by_first_key`: what is read of such a body, and that the other keys
      and their places do not matter. -/

namespace MessageBus.Codec

variable {c : Codec} {body : Bytes} {key : String} {keys : List String} {raw : String}
  {fields : Fields}

/-! ## Opening with one key -/

/-- A key opens a body to a text, and the text is that of an object. -/
def Opens (key : String) (body : Bytes) (raw : String) (fields : Fields) : Prop :=
  Sealed.openWith (utf8 key) body = .ok (utf8 raw) ∧ Json.readObject? raw = some fields

/-- Whether a key opens a body to any object. -/
def Decodes (body : Bytes) (key : String) : Prop := ∃ raw fields, Opens key body raw fields

theorem opens_iff :
    Opens key body raw fields ↔ openAny? body [key] = some (raw, fields) := by
  rw [openAny?, List.findSome?_singleton]
  cases hopen : Sealed.openWith (utf8 key) body with
  | error e => simp [Opens, hopen]
  | ok plain => simp [Opens, hopen, readObject_eq_some_iff]

theorem decodes_iff : Decodes body key ↔ (openAny? body [key]).isSome = true := by
  rw [Option.isSome_iff_exists]
  simp only [Decodes, opens_iff, Prod.exists]

instance : DecidablePred (Decodes body) := fun _ => decidable_of_iff _ decodes_iff.symm

theorem openAny_eq_none_iff : openAny? body [key] = none ↔ ¬ Decodes body key := by
  simp [decodes_iff]

/-! ## Opening with keys in turn -/

theorem openAny_cons (key : String) (keys : List String) :
    openAny? body (key :: keys) = (openAny? body [key]).or (openAny? body keys) := by
  rw [openAny?, ← List.singleton_append, List.findSome?_append]
  rfl

/-- The first key that decodes decides. -/
theorem openAny_eq_some_iff :
    openAny? body keys = some (raw, fields) ↔
      ∃ before key after, keys = before ++ key :: after ∧
        (∀ other ∈ before, ¬ Decodes body other) ∧ Opens key body raw fields := by
  simp only [opens_iff, ← openAny_eq_none_iff, openAny?, List.findSome?_singleton]
  rw [List.findSome?_eq_some_iff]
  constructor
  · rintro ⟨before, key, after, hkeys, hkey, hbefore⟩
    exact ⟨before, key, after, hkeys, hbefore, hkey⟩
  · rintro ⟨before, key, after, hkeys, hbefore, hkey⟩
    exact ⟨before, key, after, hkeys, hkey, hbefore⟩

/-- The keys that do not decode do not matter. -/
theorem openAny_filter (keys : List String) :
    openAny? body (keys.filter (Decodes body ·)) = openAny? body keys := by
  induction keys with
  | nil => rfl
  | cons key keys ih =>
    by_cases hkey : Decodes body key
    · rw [List.filter_cons_of_pos (by simpa using hkey), openAny_cons, ih, ← openAny_cons]
    · rw [List.filter_cons_of_neg (by simpa using hkey), ih, openAny_cons,
        openAny_eq_none_iff.mpr hkey, Option.none_or]

/-! ## Main theorem -/

/-- A body that does not begin with a brace is read with the first key that opens
    it to an object: that object, with its text, gets through unless it names the
    participant as its sender, in which case nothing does, whatever the keys
    behind would make of the body.  The keys that open it to no object do not
    matter, however many there are and wherever they stand.  And no body at all
    is read as a message of the participant itself. -/
theorem parse_by_first_key (c : Codec) (body : Bytes) :
    (body.find? (fun b => !Bytes.isBlank b) ≠ some openBrace →
      (∀ (keys : KeySet) (e : Envelope), c.parse body keys = some e ↔
        ∃ before key after raw fields, keys.keys = before ++ key :: after ∧
          (∀ other ∈ before, ¬ Decodes body other) ∧ Opens key body raw fields ∧
          fields.text? "id" ≠ some c.id ∧ e = .received fields raw) ∧
      (∀ keys keys' : KeySet,
        keys.keys.filter (Decodes body ·) = keys'.keys.filter (Decodes body ·) →
        c.parse body keys = c.parse body keys') ∧
      ∀ before key after raw fields, (∀ other ∈ before, ¬ Decodes body other) →
        Opens key body raw fields → fields.text? "id" = some c.id →
        c.parse body ⟨before ++ key :: after⟩ = none) ∧
    ∀ (keys : KeySet) (e : Envelope), c.parse body keys = some e → e.sender? ≠ some c.id := by
  refine ⟨fun hbrace => ⟨?_, ?_, ?_⟩, ?_⟩
  · intro keys e
    simp only [parse_eq_some_iff, decode_sealed hbrace, openAny_eq_some_iff]
    constructor
    · rintro ⟨raw, fields, ⟨before, key, after, hkeys, hbefore, hopens⟩, hid, he⟩
      exact ⟨before, key, after, raw, fields, hkeys, hbefore, hopens, hid, he⟩
    · rintro ⟨before, key, after, raw, fields, hkeys, hbefore, hopens, hid, he⟩
      exact ⟨raw, fields, ⟨before, key, after, hkeys, hbefore, hopens⟩, hid, he⟩
  · intro keys keys' hfilter
    simp only [parse, decode_sealed hbrace]
    rw [← openAny_filter keys.keys, hfilter, openAny_filter]
  · intro before key after raw fields hbefore hopens hid
    have hdecode : decode? body ⟨before ++ key :: after⟩ = some (raw, fields) := by
      rw [decode_sealed hbrace, openAny_eq_some_iff]
      exact ⟨before, key, after, rfl, hbefore, hopens⟩
    rw [parse, hdecode]
    exact if_pos hid
  · intro keys e h
    exact sender_parse h

/-- A body that was sealed with the second of three keys, the first of which has no
    usable size.  Without the third key, and with the first one behind, it is read
    in the same way; its sender reads nothing. -/
theorem parse_by_first_key_second :
    let key := "0123456789abcdef"
    let raw := "\x7b\"id\":\"b-1\",\"type\":\"TestAuth\"\x7d"
    let fields : Fields := [("id", .str "b-1"), ("type", .str "TestAuth")]
    let reader : Codec := ⟨"a-1", default⟩
    let sender : Codec := ⟨"b-1", default⟩
    ∃ body : Bytes,
      (body.find? (fun b => !Bytes.isBlank b) ≠ some openBrace ∧ ¬ Decodes body "short" ∧
        Opens key body raw fields ∧ fields.text? "id" ≠ some reader.id ∧
        fields.text? "id" = some sender.id) ∧
      reader.parse body ⟨["short", key, "fedcba9876543210"]⟩ = some (.received fields raw) ∧
      reader.parse body ⟨["short", key]⟩ = reader.parse body ⟨[key, "short"]⟩ ∧
      sender.parse body ⟨["short", key, "fedcba9876543210"]⟩ = none ∧
      (Envelope.received fields raw).sender? ≠ some reader.id := by
  have hread : Json.readObject? "\x7b\"id\":\"b-1\",\"type\":\"TestAuth\"\x7d"
      = some [("id", .str "b-1"), ("type", .str "TestAuth")] := by rfl
  intro key raw fields reader sender
  have husable : Aes.isKeySize (utf8 key).length = true := by decide
  have hvector : (List.replicate 16 7 : Bytes).length = Sealed.vectorSize := rfl
  obtain ⟨body, hclose⟩ := Sealed.close_ok husable (List.replicate 16 7) (utf8 raw)
  have hbrace : (utf8 body).find? (fun b => !Bytes.isBlank b) ≠ some openBrace :=
    find_sealed hclose
  have hshort : ¬ Decodes (utf8 body) "short" := by
    rintro ⟨raw', fields', hopen, -⟩
    obtain ⟨data, -, -, hsize, -⟩ := Sealed.openBy_eq_ok_iff.mp hopen
    revert hsize
    decide
  have hopens : Opens key (utf8 body) raw fields := ⟨Sealed.openWith_close hvector hclose, hread⟩
  have hbefore : ∀ other ∈ ["short"], ¬ Decodes (utf8 body) other := by simpa using hshort
  have hother : fields.text? "id" ≠ some reader.id := by decide
  have hown : fields.text? "id" = some sender.id := by decide
  obtain ⟨hfirst, hfilter, -⟩ := (parse_by_first_key reader (utf8 body)).1 hbrace
  have hparse : reader.parse (utf8 body) ⟨["short", key, "fedcba9876543210"]⟩
      = some (.received fields raw) :=
    (hfirst _ _).mpr ⟨["short"], key, _, raw, fields, rfl, hbefore, hopens, hother, rfl⟩
  have hkeys : ["short", key].filter (Decodes (utf8 body) ·)
      = [key, "short"].filter (Decodes (utf8 body) ·) := by
    have hkey : Decodes (utf8 body) key := ⟨raw, fields, hopens⟩
    simp [hshort, hkey]
  refine ⟨utf8 body, ⟨hbrace, hshort, hopens, hother, hown⟩, hparse, hfilter _ _ hkeys, ?_, ?_⟩
  · exact ((parse_by_first_key sender (utf8 body)).1 hbrace).2.2 ["short"] key _ raw fields hbefore
      hopens hown
  · exact (parse_by_first_key reader (utf8 body)).2 _ _ hparse

end MessageBus.Codec
