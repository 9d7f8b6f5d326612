import MessageBus.Proofs.Transport.Descriptions
import MessageBus.Proofs.Transport.Realms

/-! # Which sub-channels are apart

    A sub-channel has a channel of its own, but for two ways to lose it.  Polled
    requests go to the address as it is, whatever the sub-channel.  The route of
    a realm is read as a path, so that a name with slashes, dots or characters
    that are dropped may lead to where another name leads.

    * `channel_injective`: different sub-channels have different names.
    * `route_ne_of_isPlain`: names that are one segment have routes of their own.
    * `sharesChannel_iff`: which sub-channels share their traffic. -/

namespace MessageBus.Transport

open Url

/-- Whether two transports send into the same channel: the same exchange, the same socket address,
the same address for bodies, or the same bus in memory. -/
def SharesChannel : Transport → Transport → Prop
  | queue _ exchange₁ _ _, queue _ exchange₂ _ _ => exchange₁ = exchange₂
  | socket url₁, socket url₂ => url₁.render = url₂.render
  | poll sendTo₁ _, poll sendTo₂ _ => sendTo₁ = sendTo₂
  | memory topic₁, memory topic₂ => topic₁ = topic₂
  | _, _ => False

/-- The schemes that select a transport. -/
def supported : List String := ["amqp", "amqps", "ws", "wss", "http", "https", "mem"]

/-! ## Names -/

theorem toList_channel_some (name sub : String) :
    (channel name (some sub)).toList = name.toList ++ '-' :: sub.toList := by
  simp [channel]

theorem channel_some_ne (name sub : String) : channel name (some sub) ≠ name := by
  intro h
  have hlength := congrArg (fun s => s.toList.length) h
  simp only [toList_channel_some, List.length_append, List.length_cons] at hlength
  omega

/-- Different sub-channels have different names. -/
theorem channel_injective (name : String) : Function.Injective (channel name) := by
  intro sub₁ sub₂ h
  match sub₁, sub₂ with
  | none, none => rfl
  | some sub, none => exact absurd h (channel_some_ne name sub)
  | none, some sub => exact absurd h.symm (channel_some_ne name sub)
  | some first, some second =>
    have hlists := congrArg String.toList h
    rw [toList_channel_some, toList_channel_some] at hlists
    exact congrArg some (String.toList_inj.mp (List.cons.inj (List.append_cancel_left hlists)).2)

/-! ## Routes -/

variable {base : Url} {realm : String} {sub₁ sub₂ : Option String}

/-- A name with a hyphen is not a dot segment, so it leads down. -/
theorem enter_of_hyphen {cs : List Char} (h : '-' ∈ cs) (above : List String) :
    enter above (encodeSegment cs) = encodeSegment cs :: above := by
  refine enter_of_notDots above fun hdots => (characters_of_dots hdots).2 ?_
  have hwritten : '-' ∈ Percent.encode Percent.inPath ['-'] := by decide +kernel
  obtain ⟨front, back, rfl⟩ := List.append_of_mem h
  rw [encodeSegment, String.toList_ofList, ← List.singleton_append, Percent.encode_append,
    Percent.encode_append]
  exact List.mem_append_right _ (List.mem_append_left _ hwritten)

/-- No other plain name leads to where a plain name with a hyphen leads. -/
theorem enter_ne_of_hyphen {xs ys : List Char} (hdash : '-' ∈ xs) (hxs : '%' ∉ xs) (hys : '%' ∉ ys)
    (h : xs ≠ ys) (above : List String) :
    enter above (encodeSegment xs) ≠ enter above (encodeSegment ys) := by
  rw [enter_of_hyphen hdash, enter]
  intro heq
  have hlength := congrArg List.length heq
  split at heq
  · next hup =>
    rw [if_pos hup, List.length_cons] at hlength
    have hleft := length_leave_le above
    omega
  · next hup =>
    split at heq
    · next hstay =>
      rw [if_neg hup, if_pos hstay, List.length_cons] at hlength
      omega
    · exact h (encodeSegment_injective hxs hys (List.cons.inj heq).1)

/-- Different plain sub-channels have routes of their own. -/
theorem route_ne_of_isPlain (h₁ : IsPlainName (channel realm sub₁))
    (h₂ : IsPlainName (channel realm sub₂)) (hsubs : sub₁ ≠ sub₂) :
    route base realm sub₁ ≠ route base realm sub₂ := by
  have hfree : ∀ {sub}, IsPlainName (channel realm sub) → '%' ∉ (channel realm sub).toList :=
    fun hplain hpercent => (hplain '%' hpercent).1 rfl
  have hname : (channel realm sub₁).toList ≠ (channel realm sub₂).toList := fun heq =>
    hsubs (channel_injective realm (String.toList_inj.mp heq))
  have hdash : ∀ name, '-' ∈ (channel realm (some name)).toList := fun name => by
    rw [toList_channel_some]
    exact List.mem_append_right _ List.mem_cons_self
  rw [route_of_isPlain h₁, route_of_isPlain h₂]
  -- One of the two is a sub-channel by name, and has a hyphen.
  match sub₁, sub₂ with
  | none, none => exact absurd rfl hsubs
  | some name, _ => exact enter_ne_of_hyphen (hdash name) (hfree h₁) (hfree h₂) hname _
  | none, some name =>
    exact (enter_ne_of_hyphen (hdash name) (hfree h₂) (hfree h₁) hname.symm _).symm

/-! ## All transports -/

/-- The names of exchanges and of buses in memory are those of their sub-channels with a fixed
text behind. -/
theorem sharesChannel_queueFor {address : String} {u : Url} {id₁ id₂ : String} {insecure : Bool}
    (hsubs : sub₁ ≠ sub₂) :
    ¬SharesChannel (queueFor address u id₁ sub₁ insecure)
      (queueFor address u id₂ sub₂ insecure) := by
  intro hshares
  have hlists := congrArg String.toList (show _ ++ "-pmb" = _ ++ "-pmb" from hshares)
  rw [String.toList_append, String.toList_append] at hlists
  exact hsubs (channel_injective _ (String.toList_inj.mp (List.append_cancel_right hlists)))

/-- With a supported scheme every sub-channel has a transport.  Two different sub-channels share
their traffic if it is polled, or if they are reached by sockets and the routes of both names lead
to the same place.  The latter does not happen to names without percent signs, slashes of either
kind, tabs and line breaks. -/
theorem sharesChannel_iff (s : Settings) {address : String} {u : Url}
    (haddress : s.uri = .ok address) (hparse : Url.parse address = .ok u)
    (hscheme : u.scheme ∈ supported) (id₁ id₂ : String) (hsubs : sub₁ ≠ sub₂) :
    ∃ t₁ t₂, ofSettings s id₁ sub₁ = .ok t₁ ∧ ofSettings s id₂ sub₂ = .ok t₂ ∧
      (SharesChannel t₁ t₂ ↔ (u.scheme = "http" ∨ u.scheme = "https") ∨
        (u.scheme = "ws" ∨ u.scheme = "wss") ∧ route u s.realm sub₁ = route u s.realm sub₂) ∧
      (IsPlainName (channel s.realm sub₁) → IsPlainName (channel s.realm sub₂) →
        route u s.realm sub₁ ≠ route u s.realm sub₂) := by
  have hof : ∀ id sub, ofSettings s id sub = ofUrl s address u id sub := by
    intro id sub
    unfold ofSettings
    simp only [haddress, bind, Except.bind, hparse]
  have hsocket : u.scheme = "ws" ∨ u.scheme = "wss" →
      (SharesChannel (socket (realmUrl u s.realm sub₁)) (socket (realmUrl u s.realm sub₂)) ↔
        route u s.realm sub₁ = route u s.realm sub₂) := by
    intro hws
    have hspecial : isSpecial u.scheme = true := by rcases hws with h | h <;> rw [h] <;> rfl
    have hfile : u.scheme ≠ "file" := by rcases hws with h | h <;> rw [h] <;> decide
    obtain ⟨segment, segments, hpath⟩ := (isWritten_of_parse hparse hspecial hfile).path
    exact realmUrl_eq_iff hspecial hpath
  suffices hshares : ∃ t₁ t₂, ofSettings s id₁ sub₁ = .ok t₁ ∧ ofSettings s id₂ sub₂ = .ok t₂ ∧
      (SharesChannel t₁ t₂ ↔ (u.scheme = "http" ∨ u.scheme = "https") ∨
        (u.scheme = "ws" ∨ u.scheme = "wss") ∧ route u s.realm sub₁ = route u s.realm sub₂) by
    obtain ⟨t₁, t₂, h₁, h₂, hiff⟩ := hshares
    exact ⟨t₁, t₂, h₁, h₂, hiff, fun hplain₁ hplain₂ => route_ne_of_isPlain hplain₁ hplain₂ hsubs⟩
  rw [hof, hof]
  unfold ofUrl
  split
  · next h => exact ⟨_, _, rfl, rfl, iff_of_false (sharesChannel_queueFor hsubs) (by simp [h])⟩
  · next h => exact ⟨_, _, rfl, rfl, iff_of_false (sharesChannel_queueFor hsubs) (by simp [h])⟩
  · next h => exact ⟨_, _, rfl, rfl, (hsocket (.inl h)).trans (by simp [h])⟩
  · next h => exact ⟨_, _, rfl, rfl, (hsocket (.inr h)).trans (by simp [h])⟩
  · next h => exact ⟨_, _, rfl, rfl, iff_of_true rfl (by simp [h])⟩
  · next h => exact ⟨_, _, rfl, rfl, iff_of_true rfl (by simp [h])⟩
  · next h =>
    exact ⟨_, _, rfl, rfl, iff_of_false (fun heq => hsubs (channel_injective _ heq)) (by simp [h])⟩
  · next hother =>
    simp only [supported, List.mem_cons, List.not_mem_nil, or_false] at hscheme
    simp_all

theorem sharesChannel_iff_socket : ∃ t₁ t₂,
    ofSettings (withAddress .default "ws://h/") "c" none = .ok t₁ ∧
      ofSettings (withAddress .default "ws://h/") "c-logs" (some "logs") = .ok t₂ ∧
      ¬SharesChannel t₁ t₂ := by
  let u : Url := ⟨"ws", "", none, some (.domain "h"), none, .rooted [""], none, none⟩
  have hparse : Url.parse "ws://h/" = .ok u := by decide +kernel
  have hsubs : (none : Option String) ≠ some "logs" := by decide
  obtain ⟨t₁, t₂, h₁, h₂, hshares, hplain⟩ := sharesChannel_iff (withAddress .default "ws://h/") rfl
    hparse (by decide) "c" "c-logs" hsubs
  refine ⟨t₁, t₂, h₁, h₂, fun h => ?_⟩
  rcases hshares.mp h with hscheme | ⟨-, hroute⟩
  · exact absurd hscheme (by decide)
  · exact hplain (by decide) (by decide) hroute

/-- Polled requests of a sub-channel go where those of its parent go.  The route of a sub-channel of
sockets may lead back to the realm of its parent. -/
theorem sub_channels_merge :
    (∃ t₁ t₂, ofSettings (withAddress .default "http://h/bus") "c" none = .ok t₁ ∧
      ofSettings (withAddress .default "http://h/bus") "c" (some "logs") = .ok t₂ ∧
      SharesChannel t₁ t₂) ∧
    ∃ t₁ t₂, ofSettings (withAddress .default "ws://h/") "c" none = .ok t₁ ∧
      ofSettings (withAddress .default "ws://h/") "c" (some "a/../default") = .ok t₂ ∧
      SharesChannel t₁ t₂ := by
  let polled : Url := ⟨"http", "", none, some (.domain "h"), none, .rooted ["bus"], none, none⟩
  let base : Url := ⟨"ws", "", none, some (.domain "h"), none, .rooted [""], none, none⟩
  have hpolled : Url.parse "http://h/bus" = .ok polled := by decide +kernel
  have hbase : Url.parse "ws://h/" = .ok base := by decide +kernel
  refine ⟨⟨_, _, ofSettings_of_parse hpolled .., ofSettings_of_parse hpolled .., rfl⟩,
    ⟨_, _, ofSettings_of_parse hbase .., ofSettings_of_parse hbase .., ?_⟩⟩
  show (realmUrl base _ _).render = (realmUrl base _ _).render
  decide +kernel

end MessageBus.Transport
