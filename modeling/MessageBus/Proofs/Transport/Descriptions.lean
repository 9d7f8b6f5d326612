import MessageBus.Proofs.Url.Authority
import MessageBus.Transport

/-! # What a description tells of a password

    Two addresses that differ only in their password select transports of the
    same kind.  A queue is described by the address with its password covered,
    and so are polled requests, whose address is read once more for it: the
    text of a URL without its last slashes has the same authority.  A bus in
    memory is described by its name.  A socket is described by its whole
    address, the password included.

    * `describe_pollAt`: the description of polled requests.
    * `describe_socket_eq_iff`: a socket shows the password.
    * `describe_eq_iff`: which descriptions are the same. -/

namespace MessageBus.Transport

variable {u : Url} {p q : String} {host : Host}

/-- An address with a host and a password has them in their written form. -/
theorem hasLogin_of_parse {address : String} (h : Url.parse address = .ok u)
    (hp : u.password = some p) (hscheme : u.scheme ∈ ["http", "https", "ws", "wss"]) :
    ∃ host, u.HasLogin p host := by
  have hspecial : Url.isSpecial u.scheme = true := by
    unfold Url.isSpecial
    simp only [List.mem_cons, List.not_mem_nil, or_false] at hscheme
    rcases hscheme with h | h | h | h <;> simp [h]
  have hfile : u.scheme ≠ "file" := by
    intro hfile
    rw [hfile] at hscheme
    revert hscheme
    decide
  have hwritten := Url.isWritten_of_parse h hspecial hfile
  obtain ⟨host, hhost, hcanonical⟩ := hwritten.host
  exact ⟨host, hwritten, hspecial, hp, hhost, hcanonical⟩

/-! ## Queues -/

theorem redact_of_parse {address : String} (h : Url.parse address = .ok u)
    (hp : u.password = some p) : redact address = (u.withPassword "***").render := by
  simp [redact, h, hp]

theorem describe_queueFor {first second : String} (hfirst : Url.parse first = .ok u)
    (hp : u.password = some p) (hsecond : Url.parse second = .ok (u.withPassword q)) (id : String)
    (sub : Option String) (insecure : Bool) :
    (queueFor first u id sub insecure).describe =
      (queueFor second (u.withPassword q) id sub insecure).describe := by
  have hcovered : redact first = redact second := by
    rw [redact_of_parse hfirst hp, redact_of_parse (p := q) hsecond rfl,
      Url.withPassword_withPassword]
  rw [queueFor, queueFor, describe, describe, hcovered]
  rfl

/-! ## Polled requests -/

/-- What stands behind the authority in an address without its last slashes. -/
def trimmedTail (u : Url) : List Char := (u.path.render ++ u.suffix).toList.rdropWhile (· == '/')

theorem trimmedTail_slash (h : u.IsWritten) :
    trimmedTail u = [] ∨ ∃ path, trimmedTail u = '/' :: path := by
  obtain ⟨segment, segments, hpath⟩ := h.path
  have htext : ∃ rest, (u.path.render ++ u.suffix).toList = '/' :: rest := by
    rw [hpath]
    simp [Url.Path.render, String.join_cons]
  obtain ⟨rest, hrest⟩ := htext
  have hstart : trimmedTail u <+: '/' :: rest := hrest ▸ List.rdropWhile_prefix _ _
  cases htrim : trimmedTail u with
  | nil => exact .inl rfl
  | cons c path =>
    rw [htrim, List.cons_prefix_cons] at hstart
    exact .inr ⟨path, by rw [hstart.1]⟩

theorem getLast?_front (h : u.HasLogin p host) :
    ∃ c, (u.front p host).getLast? = some c ∧ (c == '/') = false := by
  have hlogin : u.login p host ≠ [] := by simp [Url.login]
  obtain ⟨c, hc⟩ := Option.isSome_iff_exists.mp (List.getLast?_isSome.mpr hlogin)
  have hinside := (h.isInner c (List.mem_of_getLast? hc)).inside
  simp only [Url.endsAuthority, Url.isSlash, Bool.or_eq_false_iff, decide_eq_false_iff_not]
    at hinside
  refine ⟨c, ?_, beq_eq_false_iff_ne.mpr hinside.1.1.1⟩
  simp [Url.front, List.getLast?_append, List.getLast?_cons, hc]

/-- The address without its last slashes. -/
theorem sendTo_eq (h : u.HasLogin p host) (id : String) :
    ∃ listenAt, pollAt u id = .poll (String.ofList (u.front p host ++ trimmedTail u)) listenAt := by
  obtain ⟨c, hlast, hc⟩ := getLast?_front h
  -- No slash before the path is dropped, for the authority does not end with one.
  have htrim : (u.render.toList.reverse.dropWhile (· == '/')).reverse =
      u.front p host ++ trimmedTail u := by
    rw [h.toList_render]
    exact Url.rdropWhile_append hlast hc _
  unfold pollAt
  rw [htrim]
  exact ⟨_, rfl⟩

/-- Polled requests are described by their address with its password covered. -/
theorem describe_pollAt (h : u.HasLogin p host) (hscheme : u.scheme = "http" ∨ u.scheme = "https")
    (id : String) : (pollAt u id).describe =
      ((u.withTail (Url.behind (trimmedTail u))).withPassword "***").render := by
  obtain ⟨listenAt, hpoll⟩ := sendTo_eq h id
  have hparse := h.parse_eq hscheme (trimmedTail_slash h.written)
  rw [hpoll, describe, redact_of_parse hparse ((Url.password_withTail ..).trans h.password_eq)]

/-- Polled requests show nothing of the password. -/
theorem describe_pollAt_withPassword {first second : String} (hfirst : Url.parse first = .ok u)
    (hp : u.password = some p) (hsecond : Url.parse second = .ok (u.withPassword q))
    (hscheme : u.scheme = "http" ∨ u.scheme = "https") (id : String) :
    (pollAt u id).describe = (pollAt (u.withPassword q) id).describe := by
  have hlisted : u.scheme ∈ ["http", "https", "ws", "wss"] := by
    rcases hscheme with h | h <;> simp [h]
  obtain ⟨host, h⟩ := hasLogin_of_parse hfirst hp hlisted
  obtain ⟨host', h'⟩ := hasLogin_of_parse hsecond rfl hlisted
  rw [describe_pollAt h hscheme, describe_pollAt h' hscheme]
  rfl

/-! ## Sockets -/

/-- A text shows the password where there is one. -/
theorem render_withPassword_inj (h : u.host = some host) :
    (u.withPassword p).render = (u.withPassword q).render ↔ p = q := by
  refine ⟨fun heq => ?_, fun heq => by rw [heq]⟩
  rw [Url.render_withPassword u p host h, Url.render_withPassword u q host h] at heq
  have hlists := congrArg String.toList heq
  refine String.toList_inj.mp ?_
  simpa using hlists

theorem realmUrl_withPassword (u : Url) (p realm : String) (sub : Option String) :
    realmUrl (u.withPassword p) realm sub = (realmUrl u realm sub).withPassword p := by
  simp only [realmUrl, Url.withPath, Url.withPassword]

theorem host_realmUrl (u : Url) (realm : String) (sub : Option String) :
    (realmUrl u realm sub).host = u.host := by
  simp only [realmUrl, Url.withPath]

/-- The descriptions of two sockets are the same only for the same password. -/
theorem describe_socket_eq_iff {first : String} (hfirst : Url.parse first = .ok u)
    (hp : u.password = some p) (hscheme : u.scheme = "ws" ∨ u.scheme = "wss") (realm : String)
    (sub : Option String) : (socket (realmUrl u realm sub)).describe =
      (socket (realmUrl (u.withPassword q) realm sub)).describe ↔ p = q := by
  have hlisted : u.scheme ∈ ["http", "https", "ws", "wss"] := by
    rcases hscheme with h | h <;> simp [h]
  obtain ⟨host, h⟩ := hasLogin_of_parse hfirst hp hlisted
  have hself : u = u.withPassword p := by
    rw [Url.withPassword, ← hp]
  have hrealm : (realmUrl u realm sub).host = some host :=
    (host_realmUrl u realm sub).trans h.host_eq
  rw [hself, Url.withPassword_withPassword, realmUrl_withPassword, realmUrl_withPassword]
  exact render_withPassword_inj hrealm

/-! ## All transports -/

/-- The settings with another address. -/
def withAddress (s : Settings) (address : String) : Settings := { s with uri? := some address }

theorem ofSettings_of_parse {s : Settings} {address : String} (h : Url.parse address = .ok u)
    (id : String) (sub : Option String) :
    ofSettings (withAddress s address) id sub = ofUrl s address u id sub := by
  unfold ofSettings
  simp only [withAddress, Settings.uri, bind, Except.bind, h]
  rfl

/-- Two addresses that differ only in their password are either both of a scheme that no transport
serves, or both select a transport.  The descriptions of the transports are the same, but for
sockets with different passwords. -/
theorem describe_eq_iff (s : Settings) (id : String) (sub : Option String) {first second : String}
    (hfirst : Url.parse first = .ok u) (hp : u.password = some p)
    (hsecond : Url.parse second = .ok (u.withPassword q)) :
    (ofSettings (withAddress s first) id sub = .error (.unsupportedScheme u.scheme) ∧
      ofSettings (withAddress s second) id sub = .error (.unsupportedScheme u.scheme)) ∨
    ∃ t₁ t₂, ofSettings (withAddress s first) id sub = .ok t₁ ∧
      ofSettings (withAddress s second) id sub = .ok t₂ ∧
      (t₁.describe = t₂.describe ↔ (u.scheme = "ws" ∨ u.scheme = "wss" → p = q)) := by
  rw [ofSettings_of_parse hfirst, ofSettings_of_parse hsecond]
  have hscheme : (u.withPassword q).scheme = u.scheme := rfl
  have hqueue := describe_queueFor hfirst hp hsecond id sub s.insecure
  have hpoll := describe_pollAt_withPassword hfirst hp hsecond
  have hsocket := describe_socket_eq_iff (q := q) hfirst hp
  -- Both addresses are served by the scheme, so one case for each scheme is about both.
  unfold ofUrl
  rw [hscheme]
  split
  · next h => exact .inr ⟨_, _, rfl, rfl, iff_of_true hqueue (by simp [h])⟩
  · next h => exact .inr ⟨_, _, rfl, rfl, iff_of_true hqueue (by simp [h])⟩
  · next h => exact .inr ⟨_, _, rfl, rfl, (hsocket (.inl h) s.realm sub).trans (by simp [h])⟩
  · next h => exact .inr ⟨_, _, rfl, rfl, (hsocket (.inr h) s.realm sub).trans (by simp [h])⟩
  · next h => exact .inr ⟨_, _, rfl, rfl, iff_of_true (hpoll (.inl h) id) (by simp [h])⟩
  · next h => exact .inr ⟨_, _, rfl, rfl, iff_of_true (hpoll (.inr h) id) (by simp [h])⟩
  · next h =>
    -- A bus in memory has the name of the host, which is the same for both.
    exact .inr ⟨_, _, rfl, rfl, iff_of_true rfl (by simp [h])⟩
  · exact .inl ⟨rfl, rfl⟩

theorem describe_eq_iff_polled : ∃ u, Url.parse "http://u:secret@h/" = .ok u ∧
    u.password = some "secret" ∧ Url.parse "http://u:other@h/" = .ok (u.withPassword "other") ∧
    ∃ t₁ t₂, ofSettings (withAddress .default "http://u:secret@h/") "c" none = .ok t₁ ∧
      ofSettings (withAddress .default "http://u:other@h/") "c" none = .ok t₂ ∧
      t₁.describe = t₂.describe := by
  let u : Url := ⟨"http", "u", some "secret", some (.domain "h"), none, .rooted [""], none, none⟩
  have hfirst : Url.parse "http://u:secret@h/" = .ok u := by decide +kernel
  have hsecond : Url.parse "http://u:other@h/" = .ok (u.withPassword "other") := by decide +kernel
  refine ⟨u, hfirst, rfl, hsecond, ?_⟩
  rcases describe_eq_iff .default "c" none hfirst rfl hsecond with ⟨h, -⟩ | ⟨t₁, t₂, h₁, h₂, hiff⟩
  · rw [ofSettings_of_parse hfirst] at h
    cases h
  · exact ⟨t₁, t₂, h₁, h₂, hiff.mpr (by decide)⟩

/-- Two addresses of sockets that differ only in their password, and have different
descriptions. -/
theorem sockets_show_password : ∃ u, Url.parse "ws://u:secret@h/" = .ok u ∧
    u.password = some "secret" ∧ Url.parse "ws://u:other@h/" = .ok (u.withPassword "other") ∧
    (ofSettings (withAddress .default "ws://u:secret@h/") "c" none).map describe =
      .ok "ws://u:secret@h/pmb/default/" ∧
    (ofSettings (withAddress .default "ws://u:other@h/") "c" none).map describe =
      .ok "ws://u:other@h/pmb/default/" := by
  let u : Url := ⟨"ws", "u", some "secret", some (.domain "h"), none, .rooted [""], none, none⟩
  refine ⟨u, ?_, rfl, ?_, ?_, ?_⟩
  all_goals decide +kernel

end MessageBus.Transport
