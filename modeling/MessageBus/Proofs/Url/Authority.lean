import MessageBus.Proofs.Url.Addresses
import MessageBus.Url.Parser
import Mathlib.Data.List.DropRight

/-! # Reading the authority of a URL again

    Reading a special URL writes its user, password, host and port in a form
    that reading leaves alone.  So the text of the URL up to its path, with
    whatever path after it, is read with the same authority; the path, the
    query and the fragment are read from what stands behind.

    * `isWritten_of_parse`: what a special URL that was read is like.
    * `HasLogin.readAuthority_eq`: the authority is read as it was written.
    * `HasLogin.parse_eq`: so is everything before the path. -/

namespace MessageBus.Url

variable {u : Url}

/-! ## What was read -/

/-- A special URL as it is written. -/
structure IsWritten (u : Url) : Prop where
  username : ∀ c ∈ u.username.toList, Percent.IsPlain Percent.inUserInfo c
  password : ∀ p, u.password = some p →
    p ≠ "" ∧ ∀ c ∈ p.toList, Percent.IsPlain Percent.inUserInfo c
  host : ∃ host, u.host = some host ∧ host.IsCanonical
  port : ∀ n, u.port = some n → n ≤ 65535 ∧ defaultPort? u.scheme ≠ some n
  path : ∃ segment segments, u.path = .rooted (segment :: segments)

theorem resolve_ne_nil {segments : List String} (above : List String) (h : segments ≠ []) :
    resolve above segments ≠ [] := by
  fun_induction resolve above segments with
  | case1 => exact absurd rfl h
  | case2 => simp
  | case3 => simp
  | case4 => simp
  | case5 above s rest hrest _ ih => exact ih fun hnil => hrest hnil
  | case6 above s rest hrest _ _ ih => exact ih fun hnil => hrest hnil
  | case7 above s rest hrest _ _ ih => exact ih fun hnil => hrest hnil

/-- A special URL has at least one segment. -/
theorem exists_readPath (cs : List Char) :
    ∃ segment segments, readPath true cs = .rooted (segment :: segments) := by
  have hsome : ∀ cs, ∃ segment segments,
      resolve [] ((Text.cut (isSlash true) cs).map encodeSegment) = segment :: segments := fun cs =>
    List.exists_cons_of_ne_nil (resolve_ne_nil [] (by simpa using Text.cut_ne_nil _ cs))
  unfold readPath
  split
  · exact ⟨"", [], rfl⟩
  · next c rest =>
    split
    · obtain ⟨segment, segments, h⟩ := hsome rest
      exact ⟨segment, segments, congrArg Path.rooted h⟩
    · obtain ⟨segment, segments, h⟩ := hsome (c :: rest)
      exact ⟨segment, segments, congrArg Path.rooted h⟩

theorem isPlain_written (cs : List Char) :
    ∀ c ∈ (String.ofList (Percent.encode Percent.inUserInfo cs)).toList,
      Percent.IsPlain Percent.inUserInfo c := by
  intro c hc
  rw [String.toList_ofList] at hc
  exact Percent.isPlain_of_mem_encode hc

theorem readUserInfo_isPlain (cs : List Char) :
    (∀ c ∈ (readUserInfo cs).1.toList, Percent.IsPlain Percent.inUserInfo c) ∧
      ∀ p, (readUserInfo cs).2 = some p →
        p ≠ "" ∧ ∀ c ∈ p.toList, Percent.IsPlain Percent.inUserInfo c := by
  unfold readUserInfo
  split
  · exact ⟨isPlain_written cs, by simp⟩
  · next name _ => exact ⟨isPlain_written name, by simp⟩
  · next name password hsome _ =>
    refine ⟨isPlain_written name, ?_⟩
    rintro p heq
    cases heq
    refine ⟨?_, isPlain_written password⟩
    simpa using Percent.encode_ne_nil hsome

theorem port_of_readPort {scheme : String} {cs : List Char} {n : Nat}
    (h : readPort scheme cs = .ok (some n)) : n ≤ 65535 ∧ defaultPort? scheme ≠ some n := by
  unfold readPort at h
  split at h
  · cases h
  · split at h
    · simp only at h
      split at h
      · cases h
      · next hsmall =>
        split at h
        · cases h
        · next hdefault =>
          cases h
          exact ⟨Nat.not_lt.mp hsmall, hdefault⟩
    · cases h

theorem scheme_of_readAuthority {scheme : String} {cs : List Char}
    (h : readAuthority scheme cs = .ok u) : u.scheme = scheme := by
  unfold readAuthority at h
  simp only at h
  split at h
  · cases h
  · split at h
    all_goals
      obtain ⟨host, -, h⟩ := exists_of_bind h
      obtain ⟨port, -, h⟩ := exists_of_bind h
      cases h
      rfl

/-- The parts that a special URL is read from. -/
theorem exists_of_readAuthority {scheme : String} {cs : List Char}
    (h : readAuthority scheme cs = .ok u) (hspecial : isSpecial scheme = true) :
    ∃ userInfo hostText host digits port, ∃ tail : Tail, Host.special hostText = .ok host ∧
      readPort scheme digits = .ok port ∧
      u = ⟨scheme, (readUserInfo userInfo).1, (readUserInfo userInfo).2, some host, port,
        readPath true tail.path, tail.query, tail.fragment⟩ := by
  unfold readAuthority at h
  simp only [hspecial] at h
  split at h
  · cases h
  · obtain ⟨host, hhost, h⟩ := exists_of_bind h
    obtain ⟨port, hport, h⟩ := exists_of_bind h
    cases h
    exact ⟨_, _, host, _, port, _, hhost, hport, rfl⟩

theorem isWritten_of_readAuthority {scheme : String} {cs : List Char}
    (h : readAuthority scheme cs = .ok u) (hspecial : isSpecial scheme = true) : u.IsWritten := by
  obtain ⟨userInfo, hostText, host, digits, port, tail, hhost, hport, rfl⟩ :=
    exists_of_readAuthority h hspecial
  obtain ⟨hname, hpassword⟩ := readUserInfo_isPlain userInfo
  refine ⟨hname, hpassword, ⟨host, rfl, Host.isCanonical_of_special hhost⟩, fun n hn => ?_,
    exists_readPath tail.path⟩
  simp only at hn
  exact port_of_readPort (hn ▸ hport)

theorem scheme_of_readFile {cs : List Char} (h : readFile cs = .ok u) : u.scheme = "file" := by
  unfold readFile at h
  -- The text is not looked at: whatever it is, one URL is made of it.
  extract_lets text hasHost hostText rest at h
  split at h
  all_goals
    obtain ⟨host, -, h⟩ := exists_of_bind h
    cases h
    rfl

/-- What a special URL that was read is like. -/
theorem isWritten_of_parse {text : String} (h : parse text = .ok u)
    (hspecial : isSpecial u.scheme = true) (hfile : u.scheme ≠ "file") : u.IsWritten := by
  unfold parse at h
  split at h
  · cases h
  · next scheme rest _ =>
    split at h
    · exact absurd (scheme_of_readFile h) hfile
    · split at h
      · next hscheme => exact isWritten_of_readAuthority h hscheme
      · next hscheme =>
        have hother : u.scheme = scheme := by
          split at h
          · exact scheme_of_readAuthority h
          · cases h
            rfl
          · cases h
            rfl
        exact absurd (hother ▸ hspecial) hscheme

/-! ## The characters of an authority -/

/-- A character that stands in an authority: it is visible, and does not end one. -/
structure IsInner (c : Char) : Prop where
  visible : 32 < c.toNat
  inside : endsAuthority true c = false

variable {c : Char}

theorem isInner_plain : ∀ n < 128, Percent.inUserInfo (asciiByte (Char.ofNat n)) = false →
    32 < n ∧ endsAuthority true (Char.ofNat n) = false ∧ (Char.ofNat n == ':') = false := by
  decide +kernel

theorem isInner_of_isPlain (h : Percent.IsPlain Percent.inUserInfo c) :
    IsInner c ∧ (c == ':') = false := by
  obtain ⟨hascii, hplain⟩ := h
  rw [← Char.ofNat_toNat c] at hplain
  have hfacts := isInner_plain c.toNat hascii hplain
  rw [Char.ofNat_toNat] at hfacts
  exact ⟨⟨hfacts.1, hfacts.2.1⟩, hfacts.2.2⟩

theorem ne_of_isForbidden {d : Char} (h : Host.isForbidden c = false)
    (hd : Host.isForbidden d = true) : c ≠ d := by
  rintro rfl
  rw [h] at hd
  cases hd

theorem isInner_of_isForbidden (h : Host.isForbidden c = false) : IsInner c := by
  have hlow : ¬ c.toNat < 32 := by
    simp only [Host.isForbidden, Bool.or_eq_false_iff, decide_eq_false_iff_not] at h
    exact h.1.1.2
  have hspace : c.toNat ≠ 32 := by
    intro heq
    refine ne_of_isForbidden h (by decide : Host.isForbidden ' ' = true) ?_
    rw [← Char.ofNat_toNat c, heq]
  refine ⟨by omega, ?_⟩
  have hslash := ne_of_isForbidden h (by decide : Host.isForbidden '/' = true)
  have hback := ne_of_isForbidden h (by decide : Host.isForbidden '\\' = true)
  have hquery := ne_of_isForbidden h (by decide : Host.isForbidden '?' = true)
  have hhash := ne_of_isForbidden h (by decide : Host.isForbidden '#' = true)
  simp [endsAuthority, isSlash, hslash, hback, hquery, hhash]

theorem isInner_host {host : Host} (h : host.IsCanonical) :
    ∀ c ∈ host.render.toList, IsInner c ∧ (c == '@') = false := by
  have hname : ∀ c, Host.isForbidden c = false → IsInner c ∧ (c == '@') = false := fun c hc =>
    ⟨isInner_of_isForbidden hc, beq_eq_false_iff_ne.mpr (ne_of_isForbidden hc (by decide))⟩
  intro c hc
  obtain ⟨-, hall | ⟨inner, htext, hinner⟩⟩ := Host.render_characters h
  · exact hname c (hall c hc)
  · simp only [htext, List.cons_append, List.mem_cons, List.mem_append, List.not_mem_nil,
      or_false] at hc
    rcases hc with rfl | hc | rfl
    · exact ⟨⟨by decide, rfl⟩, rfl⟩
    · rcases hinner c hc with hc | rfl
      · exact hname c hc
      · exact ⟨⟨by decide, rfl⟩, rfl⟩
    · exact ⟨⟨by decide, rfl⟩, rfl⟩

theorem toList_portText (u : Url) : u.portText.toList =
    (u.port.map fun n => ':' :: Nat.toDigits 10 n).getD [] := by
  unfold portText
  cases u.port <;> simp

theorem isInner_portText (u : Url) : ∀ c ∈ u.portText.toList, IsInner c ∧ (c == '@') = false := by
  intro c hc
  rw [toList_portText] at hc
  cases hport : u.port with
  | none => simp [hport] at hc
  | some n =>
    simp only [hport, Option.map_some, Option.getD_some, List.mem_cons] at hc
    rcases hc with rfl | hc
    · exact ⟨⟨by decide, rfl⟩, rfl⟩
    · have hallowed := (Host.isLetter_of_mem_toDigits hc).2
      exact ⟨isInner_of_isForbidden hallowed,
        beq_eq_false_iff_ne.mpr (ne_of_isForbidden hallowed (by decide))⟩

/-! ## Reading it again -/

theorem cutPort_inside {inner : List Char} (h : ∀ c ∈ inner, c ≠ ']') (rest : List Char) :
    cutPort true (inner ++ rest) = (inner ++ (cutPort true rest).1, (cutPort true rest).2) := by
  induction inner with
  | nil => rfl
  | cons c inner ih =>
    have hc := h c List.mem_cons_self
    rw [List.cons_append, cutPort, if_neg (by simp)]
    simp [hc, ih fun d hd => h d (List.mem_cons_of_mem _ hd)]

theorem cutPort_outside {name : List Char} (h : ∀ c ∈ name, c ≠ ':' ∧ c ≠ '[')
    (rest : List Char) :
    cutPort false (name ++ rest) = (name ++ (cutPort false rest).1, (cutPort false rest).2) := by
  induction name with
  | nil => rfl
  | cons c name ih =>
    obtain ⟨hcolon, hbracket⟩ := h c List.mem_cons_self
    rw [List.cons_append, cutPort, if_neg (by simp [hcolon])]
    simp [hbracket, ih fun d hd => h d (List.mem_cons_of_mem _ hd)]

/-- The host is cut off as it was written. -/
theorem cutPort_host {host : Host} (h : host.IsCanonical) (rest : List Char) :
    cutPort false (host.render.toList ++ rest) =
      (host.render.toList ++ (cutPort false rest).1, (cutPort false rest).2) := by
  obtain ⟨-, hall | ⟨inner, htext, hinner⟩⟩ := Host.render_characters h
  · refine cutPort_outside (fun c hc => ?_) rest
    exact ⟨ne_of_isForbidden (hall c hc) (by decide), ne_of_isForbidden (hall c hc) (by decide)⟩
  · have hclosed : ∀ c ∈ inner, c ≠ ']' := by
      intro c hc
      rcases hinner c hc with hc | rfl
      · exact ne_of_isForbidden hc (by decide)
      · decide
    simp [htext, cutPort, cutPort_inside hclosed]

theorem cutPort_portText (u : Url) :
    cutPort false u.portText.toList = ([], u.port.map (Nat.toDigits 10)) := by
  rw [toList_portText]
  cases u.port <;> simp [cutPort]

/-- The port is read as it was written. -/
theorem readPort_digits {scheme : String} {port : Option Nat}
    (h : ∀ n, port = some n → n ≤ 65535 ∧ defaultPort? scheme ≠ some n) :
    readPort scheme ((port.map (Nat.toDigits 10)).getD []) = .ok port := by
  cases port with
  | none => rfl
  | some n =>
    obtain ⟨hsmall, hdefault⟩ := h n rfl
    have hdigits : (Nat.toDigits 10 n).all Char.isDigit = true :=
      List.all_eq_true.mpr fun c hc => Host.isDigit_of_mem_toDigits hc
    have hvalue : (Nat.toDigits 10 n).foldl (fun n c => n * 10 + (c.toNat - 48)) 0 = n := by
      refine Eq.trans ?_ (Nat.ofDigitChars_ten_toDigits (n := n))
      simp only [Nat.ofDigitChars, Nat.mul_comm 10]
      rfl
    unfold readPort
    simp [Nat.toDigits_ne_nil, hdigits, hvalue, hdefault]
    omega

/-- The URL with what is read behind its authority. -/
def withTail (u : Url) (rest : List Char) : Url :=
  let tail := readTail true rest
  { u with path := readPath true tail.path, query := tail.query, fragment := tail.fragment }

theorem password_withTail (u : Url) (rest : List Char) : (u.withTail rest).password = u.password :=
  rfl

/-- A URL as it is written that has a password. -/
structure HasLogin (u : Url) (p : String) (host : Host) : Prop where
  written : u.IsWritten
  special : isSpecial u.scheme = true
  password_eq : u.password = some p
  host_eq : u.host = some host
  isCanonical : host.IsCanonical

/-- The authority of a URL with a password, without the slashes. -/
def login (u : Url) (p : String) (host : Host) : List Char :=
  (u.username.toList ++ ':' :: p.toList) ++ '@' :: (host.render.toList ++ u.portText.toList)

variable {p : String} {host : Host}

theorem HasLogin.isPlain_password (h : HasLogin u p host) :
    p ≠ "" ∧ ∀ c ∈ p.toList, Percent.IsPlain Percent.inUserInfo c :=
  h.written.password p h.password_eq

theorem HasLogin.isInner (h : HasLogin u p host) : ∀ c ∈ u.login p host, IsInner c := by
  intro c hc
  simp only [login, List.mem_append, List.mem_cons] at hc
  rcases hc with (hc | rfl | hc) | rfl | hc | hc
  · exact (isInner_of_isPlain (h.written.username c hc)).1
  · exact ⟨by decide, rfl⟩
  · exact (isInner_of_isPlain (h.isPlain_password.2 c hc)).1
  · exact ⟨by decide, rfl⟩
  · exact (isInner_host h.isCanonical c hc).1
  · exact (isInner_portText u c hc).1

theorem HasLogin.readUserInfo_eq (h : HasLogin u p host) :
    readUserInfo (u.username.toList ++ ':' :: p.toList) = (u.username, some p) := by
  obtain ⟨hsome, hpassword⟩ := h.isPlain_password
  obtain ⟨c, rest, hp⟩ := List.exists_cons_of_ne_nil (show p.toList ≠ [] by simpa using hsome)
  have hcut : Text.cutFirst? (· == ':') (u.username.toList ++ ':' :: p.toList) =
      some (u.username.toList, c :: rest) := by
    rw [← hp]
    exact Text.cutFirst?_append (fun c hc => (isInner_of_isPlain (h.written.username c hc)).2) rfl _
  have hname := Percent.encode_eq_self h.written.username
  have hwritten := Percent.encode_eq_self hpassword
  rw [hp] at hwritten
  unfold readUserInfo
  simp only [hcut, hname, hwritten]
  rw [← hp, String.ofList_toList, String.ofList_toList]

/-- The authority is read as it was written, whatever comes after it. -/
theorem HasLogin.readAuthority_eq (h : HasLogin u p host) {rest : List Char}
    (hrest : rest = [] ∨ ∃ path, rest = '/' :: path) :
    readAuthority u.scheme (u.login p host ++ rest) = .ok (u.withTail rest) := by
  have htext : (u.login p host ++ rest).takeWhile (fun c => !endsAuthority true c) =
      u.login p host := by
    rw [List.takeWhile_append_of_pos fun c hc => by simp [(h.isInner c hc).inside]]
    obtain rfl | ⟨path, rfl⟩ := hrest
    · simp
    · simp [endsAuthority, isSlash]
  -- Neither the host nor the port has an at sign, so the last one is that of the user.
  have hcut : Text.cutLast? (· == '@') (u.login p host) = some
      (u.username.toList ++ ':' :: p.toList, host.render.toList ++ u.portText.toList) := by
    refine Text.cutLast?_append rfl _ fun c hc => ?_
    rcases List.mem_append.mp hc with hc | hc
    · exact (isInner_host h.isCanonical c hc).2
    · exact (isInner_portText u c hc).2
  have hsome : host.render.toList ≠ [] := (Host.render_characters h.isCanonical).1
  unfold readAuthority
  simp only [h.special, htext, hcut, Option.getD_some, h.readUserInfo_eq,
    cutPort_host h.isCanonical, cutPort_portText, List.append_nil]
  have htake : ((u.port.map (Nat.toDigits 10)).getD []).takeWhile (· != '\\') =
      (u.port.map (Nat.toDigits 10)).getD [] := by
    rw [List.takeWhile_eq_self_iff]
    intro c hc
    cases hport : u.port with
    | none => simp [hport] at hc
    | some n =>
      simp only [hport, Option.map_some, Option.getD_some] at hc
      exact bne_iff_ne.mpr (ne_of_isForbidden (Host.isLetter_of_mem_toDigits hc).2 (by decide))
  rw [if_neg fun hempty => hsome (List.isEmpty_iff.mp hempty.1), if_pos trivial, htake,
    Host.special_render h.isCanonical, readPort_digits h.written.port]
  simp [withTail, h.password_eq, h.host_eq, bind, Except.bind]

/-! ## What stands before the path -/

theorem rdropWhile_append {α : Type} {q : α → Bool} {front : List α} {x : α}
    (h : front.getLast? = some x) (hx : q x = false) (back : List α) :
    (front ++ back).rdropWhile q = front ++ back.rdropWhile q := by
  obtain ⟨before, rfl⟩ := List.getLast?_eq_some_iff.mp h
  unfold List.rdropWhile
  rw [List.reverse_append, List.dropWhile_append]
  split
  · next hnone =>
    rw [List.isEmpty_iff.mp hnone]
    simp [hx]
  · simp

/-- What counts of a text behind characters that count. -/
def behind (rest : List Char) : List Char :=
  (rest.rdropWhile isPadding).filter fun c => !isDropped c

theorem clean_append {front : List Char} (h : ∀ c ∈ front, 32 < c.toNat) (hsome : front ≠ [])
    (rest : List Char) : clean (front ++ rest) = front ++ behind rest := by
  have hpadding : ∀ c ∈ front, isPadding c = false := by
    intro c hc
    simpa [isPadding] using h c hc
  have hdropped : ∀ c ∈ front, (!isDropped c) = true := by
    intro c hc
    have hc := h c hc
    simp only [isDropped, Bool.not_eq_true', Bool.or_eq_false_iff, decide_eq_false_iff_not]
    refine ⟨⟨?_, ?_⟩, ?_⟩
    all_goals
      rintro rfl
      revert hc
      decide
  have hstart : (front ++ rest).dropWhile isPadding = front ++ rest := by
    obtain ⟨c, tail, rfl⟩ := List.exists_cons_of_ne_nil hsome
    simp [hpadding c List.mem_cons_self]
  have hend : (front ++ rest).rdropWhile isPadding = front ++ rest.rdropWhile isPadding := by
    obtain ⟨c, hc⟩ := Option.isSome_iff_exists.mp (List.getLast?_isSome.mpr hsome)
    exact rdropWhile_append hc (hpadding c (List.mem_of_getLast? hc)) rest
  unfold clean
  rw [hstart]
  change ((front ++ rest).rdropWhile isPadding).filter _ = _
  rw [hend, List.filter_append, List.filter_eq_self.mpr hdropped, behind]

theorem behind_slash {rest : List Char} (h : rest = [] ∨ ∃ path, rest = '/' :: path) :
    behind rest = [] ∨ ∃ path, behind rest = '/' :: path := by
  obtain rfl | ⟨path, rfl⟩ := h
  · exact .inl rfl
  · refine .inr ⟨(path.rdropWhile isPadding).filter fun c => !isDropped c, ?_⟩
    have hslash : ['/'].getLast? = some '/' := rfl
    have hkept : ('/' :: path).rdropWhile isPadding = '/' :: path.rdropWhile isPadding :=
      rdropWhile_append hslash rfl path
    rw [behind, hkept]
    rfl

theorem readScheme?_http (rest : List Char) :
    readScheme? ("http".toList ++ ':' :: rest) = some ("http", rest) := rfl

theorem readScheme?_https (rest : List Char) :
    readScheme? ("https".toList ++ ':' :: rest) = some ("https", rest) := rfl

/-- The text of a URL with a password up to its path. -/
def front (u : Url) (p : String) (host : Host) : List Char :=
  u.scheme.toList ++ ':' :: '/' :: '/' :: u.login p host

theorem HasLogin.toList_render (h : HasLogin u p host) :
    u.render.toList = u.front p host ++ (u.path.render ++ u.suffix).toList := by
  simp [render, authority, userInfo, h.host_eq, h.password_eq, front, login]

/-- A text with the authority of a URL, and then a path or nothing, is read with that authority. -/
theorem HasLogin.parse_eq (h : HasLogin u p host)
    (hscheme : u.scheme = "http" ∨ u.scheme = "https") {rest : List Char}
    (hrest : rest = [] ∨ ∃ path, rest = '/' :: path) :
    parse (String.ofList (u.front p host ++ rest)) = .ok (u.withTail (behind rest)) := by
  have hvisible : ∀ c ∈ u.front p host, 32 < c.toNat := by
    intro c hc
    simp only [front, List.mem_append, List.mem_cons] at hc
    rcases hc with hc | rfl | rfl | rfl | hc
    · revert c
      rcases hscheme with hscheme | hscheme
      all_goals
        rw [hscheme]
        simp
    · decide
    · decide
    · decide
    · exact (h.isInner c hc).visible
  -- Whatever is dropped is dropped from the rest.
  have hclean := clean_append hvisible (by simp [front]) rest
  have hread : readScheme? (u.front p host ++ behind rest) =
      some (u.scheme, '/' :: '/' :: (u.login p host ++ behind rest)) := by
    rw [front, List.append_assoc]
    rcases hscheme with hscheme | hscheme
    all_goals rw [hscheme]
    · exact readScheme?_http _
    · exact readScheme?_https _
  -- The authority starts with no slash, so exactly the two before it are skipped.
  have hslashes : ('/' :: '/' :: (u.login p host ++ behind rest)).dropWhile (isSlash true) =
      u.login p host ++ behind rest := by
    obtain ⟨c, tail, hlogin⟩ := List.exists_cons_of_ne_nil
      (show u.login p host ≠ [] by simp [login])
    have hinside := (h.isInner c (hlogin ▸ List.mem_cons_self)).inside
    simp only [endsAuthority, Bool.or_eq_false_iff] at hinside
    rw [hlogin, List.dropWhile_cons_of_pos rfl, List.dropWhile_cons_of_pos rfl, List.cons_append,
      List.dropWhile_cons_of_neg (by simp [hinside.1.1])]
  have hfile : u.scheme ≠ "file" := by
    rcases hscheme with hscheme | hscheme
    all_goals
      rw [hscheme]
      decide
  unfold parse
  rw [String.toList_ofList, hclean, hread]
  simp only [hfile, if_false, h.special, if_true, hslashes]
  exact h.readAuthority_eq (behind_slash hrest)

end MessageBus.Url
