import MessageBus.Proofs.Codec.ClearText
import MessageBus.Proofs.Cipher.Exactness
import MessageBus.Proofs.KeySet.Extraction

/-! # Sealed bodies

    A body that was sealed with a key opens with that key to the text again.
    Whoever holds several keys tries them in turn, and takes the first object
    that comes out.  So a body is read as if it had come in the clear, unless it
    happens to open to some object with a wrong key.

    * `Sealed.openWith_close`: sealing and opening.
    * `KeySet.usable_of_parse`: keys that were read from a text can seal.
    * `prepare_ok`: with keys that can seal, or none, every message goes out.
    * `decode_sealed`: a body that does not begin with a brace.
    * `isLegible_sealed`: a body is read as its text.
    * `shown_of_prepare`: what goes out is the text, or it is sealed. -/

namespace MessageBus

/-! ## Sealing and opening -/

namespace Sealed

/-- A sealed body opens with its key. -/
theorem openWith_close {key vector plain : Bytes} {body : String}
    (hvector : vector.length = vectorSize) (h : close key vector plain = .ok body) :
    openWith key (utf8 body) = .ok plain := by
  have hnone : ∀ b ∈ ([] : Bytes), Bytes.isBlank b = true := by simp
  have hopen := openBy_closeBy (keepsSize_aes key) hvector h hnone hnone
  rwa [List.nil_append, List.append_nil] at hopen

/-- A key of a usable size seals anything. -/
theorem close_ok {key : Bytes} (hkey : Aes.isKeySize key.length = true)
    (vector plain : Bytes) : ∃ body, close key vector plain = .ok body :=
  ⟨_, if_pos hkey⟩

end Sealed

/-! ## Keys that can seal -/

/-- Messages go out: in the clear without any keys, or sealed with one at least. -/
def KeySet.CanSeal (keys : KeySet) : Prop :=
  keys.keys = [] ∨ ∃ key ∈ keys.keys, Codec.isUsable key = true

/-- No keys at all, or a single one that can seal. -/
def KeySet.IsSingle (keys : KeySet) : Prop :=
  keys.keys = [] ∨ ∃ key, keys.keys = [key] ∧ Codec.isUsable key = true

/-- Whether there is a vector of the right size for every key. -/
def Occasion.fits (occasion : Occasion) (keys : KeySet) : Bool :=
  keys.size ≤ occasion.vectors.length &&
    occasion.vectors.all fun v => v.length == Sealed.vectorSize

theorem Occasion.exists_fits (keys : KeySet) :
    ∃ occasion : Occasion, occasion.fits keys = true := by
  refine ⟨⟨default, List.replicate keys.size (List.replicate Sealed.vectorSize 0)⟩, ?_⟩
  simp [Occasion.fits]

theorem KeySet.IsSingle.canSeal {keys : KeySet} (h : keys.IsSingle) : keys.CanSeal := by
  rcases h with hnone | ⟨key, hone, husable⟩
  · exact .inl hnone
  · exact .inr ⟨key, by rw [hone]; exact List.mem_singleton.mpr rfl, husable⟩

/-- A letter or a digit takes one byte. -/
theorem Identity.utf8Size_of_isAlphabetic {c : Char} (h : isAlphabetic c = true) :
    c.utf8Size = 1 := by
  have hle : c.val ≤ 127 := by
    simp only [isAlphabetic, Bool.or_eq_true, Bool.and_eq_true, decide_eq_true_eq] at h
    rcases h with ⟨-, h⟩ | ⟨-, h⟩
    · exact UInt32.le_trans h (by decide)
    · exact UInt32.le_trans h (by decide)
  exact Char.utf8Size_eq_one_iff.mpr hle

/-- Whatever has the form of a key can seal. -/
theorem KeySet.IsKey.isUsable {key : String} (h : IsKey key) : Codec.isUsable key = true := by
  obtain ⟨hlength, hall⟩ := h
  have hbytes : ∀ l : List Char, (∀ c ∈ l, Identity.isAlphabetic c = true) →
      (l.flatMap String.utf8EncodeChar).length = l.length := by
    intro l hl
    induction l with
    | nil => rfl
    | cons c l ih =>
      have hc := Identity.utf8Size_of_isAlphabetic (hl c (List.mem_cons_self ..))
      have hrest := ih fun c' hc' => hl c' (List.mem_cons_of_mem _ hc')
      simp [List.flatMap_cons, hc, hrest, Nat.add_comm]
  rw [Codec.isUsable, ← String.ofList_toList (s := key), Base64.utf8_ofList, hbytes _ hall,
    String.length_toList, hlength]
  rfl

/-- A text has a key at least, and all that are read from it can seal. -/
theorem KeySet.usable_of_parse {text : String} {keys : KeySet} (h : KeySet.parse text = .ok keys) :
    keys.keys ≠ [] ∧ ∀ key ∈ keys.keys, Codec.isUsable key = true := by
  obtain ⟨hsome, hkeys⟩ := isKey_of_parse h
  exact ⟨hsome, fun key hkey => (hkeys key hkey).isUsable⟩

namespace Codec

/-- Every usable key adds a body. -/
theorem sealAll_ne_nil {text key : String} (keys : List String) (hmem : key ∈ keys)
    (husable : isUsable key = true) (vectors : List Bytes) : sealAll text keys vectors ≠ [] := by
  induction keys generalizing vectors with
  | nil => cases hmem
  | cons first rest ih =>
    rw [sealAll]
    split
    · exact List.cons_ne_nil _ _
    · next hclose =>
      rcases List.mem_cons.mp hmem with rfl | hmem
      · obtain ⟨body, hbody⟩ := Sealed.close_ok husable (vectors.headD []) (utf8 text)
        rw [hbody] at hclose
        cases hclose
      · exact ih hmem vectors

/-- With keys that can seal every message has at least one body. -/
theorem prepare_ok (c : Codec) {keys : KeySet} (hkeys : keys.CanSeal) (occasion : Occasion)
    (contents : Fields) :
    ∃ body rest, c.prepare occasion contents keys = .ok (body :: rest) := by
  rcases hkeys with hnone | ⟨key, hmem, husable⟩
  · refine ⟨(c.tag occasion.sent contents).write, [], ?_⟩
    simp [prepare, KeySet.isEmpty, hnone]
  · have hempty : keys.isEmpty = false := by
      rw [KeySet.isEmpty, List.isEmpty_eq_false_iff]
      exact List.ne_nil_of_mem hmem
    have hsealed : sealAll (c.tag occasion.sent contents).write keys.keys occasion.vectors ≠ [] :=
      sealAll_ne_nil keys.keys hmem husable occasion.vectors
    obtain ⟨body, rest, hbodies⟩ := List.exists_cons_of_ne_nil hsealed
    exact ⟨body, rest, by simp [prepare, hempty, hbodies]⟩

/-! ## Bodies that do not begin with a brace -/

/-- Nothing but blanks opens with no key. -/
theorem openAny_blank {body : Bytes} (hblank : ∀ b ∈ body, Bytes.isBlank b = true)
    (keys : List String) : openAny? body keys = none := by
  refine List.findSome?_eq_none_iff.mpr fun key _ => ?_
  cases hopen : Sealed.openWith (utf8 key) body with
  | error e => rfl
  | ok plain =>
    -- no bytes are too few for a vector
    obtain ⟨data, hdecode, hlong, -⟩ := Sealed.openBy_eq_ok_iff.mp hopen
    rw [Bytes.trim_blank hblank] at hdecode
    cases hdecode
    cases hlong

/-- A body that does not begin with a brace is opened with the keys in turn. -/
theorem decode_sealed {body : Bytes}
    (hbrace : body.find? (fun b => !Bytes.isBlank b) ≠ some openBrace) (keys : KeySet) :
    decode? body keys = openAny? body keys.keys := by
  rw [decode?]
  split
  · next hnone =>
    have hblank : ∀ b ∈ body, Bytes.isBlank b = true := by
      simpa using List.find?_eq_none.mp hnone
    exact (openAny_blank hblank _).symm
  · next b hfind =>
    rw [if_neg]
    rintro rfl
    exact hbrace hfind

/-- No sealed body begins with a brace. -/
theorem find_sealed {key vector plain : Bytes} {body : String}
    (h : Sealed.close key vector plain = .ok body) :
    (utf8 body).find? (fun b => !Bytes.isBlank b) ≠ some openBrace := by
  obtain ⟨-, rfl⟩ := Sealed.closeBy_eq_ok_iff.mp h
  rw [Base64.utf8_encode]
  intro hfind
  exact (Base64.plain_encodeBytes (List.mem_of_find?_eq_some hfind)).2 rfl

theorem decode_close {key vector plain : Bytes} {body : String}
    (h : Sealed.close key vector plain = .ok body) (keys : KeySet) :
    decode? (utf8 body) keys = openAny? (utf8 body) keys.keys :=
  decode_sealed (find_sealed h) keys

/-- With its key alone, a sealed body holds what its text holds. -/
theorem decode_only_key {key body : String} {vector plain : Bytes}
    (hvector : vector.length = Sealed.vectorSize)
    (h : Sealed.close (utf8 key) vector plain = .ok body) :
    decode? (utf8 body) ⟨[key]⟩ = readObject? plain := by
  rw [decode_close h, openAny?, List.findSome?_singleton, Sealed.openWith_close hvector h]

/-! ## Bodies that are read as their text -/

/-- Whether everyone with the keys reads a body as the text it was made from. -/
def isLegible (keys : KeySet) (text body : String) : Bool :=
  (decode? (utf8 body) keys).map Prod.fst == (decode? (utf8 text) keys).map Prod.fst

/-- What a body holds is what its text reads as. -/
theorem readObject_of_decode {body : Bytes} {keys : KeySet} {raw : String} {fields : Fields}
    (h : decode? body keys = some (raw, fields)) : Json.readObject? raw = some fields := by
  unfold decode? at h
  split at h
  · cases h
  · split at h
    · exact (readObject_eq_some_iff.mp h).2
    · obtain ⟨key, -, hkey⟩ := List.exists_of_findSome?_eq_some h
      split at hkey
      · exact (readObject_eq_some_iff.mp hkey).2
      · cases hkey

theorem decode_of_isLegible {keys : KeySet} {text body : String}
    (h : isLegible keys text body = true) :
    decode? (utf8 body) keys = decode? (utf8 text) keys := by
  have hraw := beq_iff_eq.mp h
  cases hbody : decode? (utf8 body) keys with
  | none =>
    rw [hbody] at hraw
    exact (Option.map_eq_none_iff.mp hraw.symm).symm
  | some entry =>
    obtain ⟨raw, fields⟩ := entry
    rw [hbody, Option.map_some] at hraw
    obtain ⟨⟨raw', fields'⟩, htext, rfl⟩ := Option.map_eq_some_iff.mp hraw.symm
    rw [htext]
    -- equal texts hold equal objects
    have hfields := (readObject_of_decode hbody).symm.trans (readObject_of_decode htext)
    rw [Option.some.inj hfields]

theorem isLegible_self (keys : KeySet) (text : String) : isLegible keys text text = true :=
  beq_iff_eq.mpr rfl

/-- Where all but one say nothing, that one decides what is found. -/
theorem findSome_eq_of_others {α β : Type} {f : α → Option β} {l : List α} {a : α}
    {found : Option β} (ha : a ∈ l) (hfound : f a = found)
    (hothers : ∀ other ∈ l, other ≠ a → f other = none) : l.findSome? f = found := by
  cases hl : l.findSome? f with
  | none => rw [← hfound, List.findSome?_eq_none_iff.mp hl a ha]
  | some b =>
    obtain ⟨other, hother, hb⟩ := List.exists_of_findSome?_eq_some hl
    by_cases he : other = a
    · rw [← hfound, ← he, hb]
    · rw [hothers other hother he] at hb
      cases hb

/-- A sealed body that opens to no object with any key at hand says nothing. -/
theorem decode_sealed_none {key vector plain : Bytes} {body : String}
    (h : Sealed.close key vector plain = .ok body) {keys : KeySet}
    (hothers : ∀ other ∈ keys.keys, openAny? (utf8 body) [other] = none) :
    decode? (utf8 body) keys = none := by
  rw [decode_close h]
  refine List.findSome?_eq_none_iff.mpr fun other hother => ?_
  simpa [openAny?] using hothers other hother

/-- A body that opens to no object but with its own key is legible. -/
theorem isLegible_sealed {key : String} {keys : KeySet} (hkey : key ∈ keys.keys)
    {vector : Bytes} (hvector : vector.length = Sealed.vectorSize) (fields : Fields)
    {body : String} (h : Sealed.close (utf8 key) vector (utf8 fields.write) = .ok body)
    (hothers : ∀ other ∈ keys.keys, other ≠ key → openAny? (utf8 body) [other] = none) :
    isLegible keys fields.write body = true := by
  have hany : openAny? (utf8 body) keys.keys = readObject? (utf8 fields.write) := by
    refine findSome_eq_of_others hkey ?_ ?_
    · rw [Sealed.openWith_close hvector h]
    · intro other hother hne
      simpa [openAny?] using hothers other hother hne
  rw [isLegible, decode_close h, hany, decode_clear]
  exact beq_iff_eq.mpr rfl

/-- With a single key, or none, every message has one body, and it is legible. -/
theorem prepare_single (c : Codec) {keys : KeySet} (hkeys : keys.IsSingle)
    {occasion : Occasion} (hfits : occasion.fits keys = true) (contents : Fields) :
    ∃ body, c.prepare occasion contents keys = .ok [body] ∧
      isLegible keys (c.tag occasion.sent contents).write body = true := by
  rcases hkeys with hnone | ⟨key, hone, husable⟩
  · refine ⟨(c.tag occasion.sent contents).write, ?_, isLegible_self _ _⟩
    simp [prepare, KeySet.isEmpty, hnone]
  · simp only [Occasion.fits, Bool.and_eq_true, decide_eq_true_eq, KeySet.size, hone,
      List.all_eq_true, beq_iff_eq] at hfits
    obtain ⟨hcount, hsizes⟩ := hfits
    obtain ⟨vector, rest, hvectors⟩ : ∃ vector rest, occasion.vectors = vector :: rest := by
      cases hv : occasion.vectors with
      | nil =>
        rw [hv] at hcount
        cases hcount
      | cons vector rest => exact ⟨vector, rest, rfl⟩
    have hsize : vector.length = Sealed.vectorSize :=
      hsizes vector (by rw [hvectors]; exact List.mem_cons_self ..)
    obtain ⟨body, hclose⟩ := Sealed.close_ok husable vector
      (utf8 (c.tag occasion.sent contents).write)
    refine ⟨body, ?_, ?_⟩
    · simp [prepare, KeySet.isEmpty, hone, sealAll, hvectors, hclose]
    · refine isLegible_sealed (by rw [hone]; exact List.mem_singleton.mpr rfl) hsize _ hclose ?_
      intro other hother hne
      rw [hone] at hother
      exact absurd (List.mem_singleton.mp hother) hne

/-! ## What keys make of a message -/

/-- A body is sealed under one of some keys. -/
def SealedUnder (keys : KeySet) (text body : String) : Prop :=
  ∃ key ∈ keys.keys, ∃ vector, Sealed.close (utf8 key) vector (utf8 text) = .ok body

theorem sealedUnder_of_mem_sealAll {text body : String} {keys : List String}
    {vectors : List Bytes} (h : body ∈ sealAll text keys vectors) :
    SealedUnder ⟨keys⟩ text body := by
  induction keys generalizing vectors with
  | nil => cases h
  | cons key keys ih =>
    have later : ∀ {vectors}, body ∈ sealAll text keys vectors →
        SealedUnder ⟨key :: keys⟩ text body := by
      intro vectors hbody
      obtain ⟨other, hother, hclose⟩ := ih hbody
      exact ⟨other, List.mem_cons_of_mem _ hother, hclose⟩
    rw [sealAll] at h
    split at h
    · next hclose =>
      rcases List.mem_cons.mp h with rfl | hrest
      · exact ⟨key, List.mem_cons_self, _, hclose⟩
      · exact later hrest
    · exact later h

/-- What is sealed is no text of an object. -/
theorem ne_write_of_close {key vector plain : Bytes} {body : String} {fields : Fields}
    (h : Sealed.close key vector plain = .ok body) : body ≠ fields.write := by
  rintro rfl
  exact find_sealed h (find_write fields)

/-- Without keys the text of a message is its only body; with keys every body is sealed. -/
theorem shown_of_prepare {codec : Codec} {occasion : Occasion} {contents : Fields} {keys : KeySet}
    {bodies : List String} (h : codec.prepare occasion contents keys = .ok bodies) {body : String}
    (hbody : body ∈ bodies) :
    (keys = .empty ∧ body = (codec.tag occasion.sent contents).write) ∨
      (keys ≠ .empty ∧ SealedUnder keys (codec.tag occasion.sent contents).write body) := by
  simp only [prepare] at h
  split at h
  · next hempty =>
    obtain rfl := Except.ok.inj h
    refine .inl ⟨?_, List.mem_singleton.mp hbody⟩
    obtain ⟨keys⟩ := keys
    obtain rfl : keys = [] := List.isEmpty_iff.mp hempty
    rfl
  · next hsome =>
    refine .inr ⟨fun hempty => hsome (by rw [hempty]; rfl), ?_⟩
    split at h
    · cases h
    · obtain rfl := Except.ok.inj h
      exact sealedUnder_of_mem_sealAll hbody

end Codec

end MessageBus
