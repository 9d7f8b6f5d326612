import MessageBus.Proofs.Bus.Stations
import MessageBus.Proofs.Handshake.Wording

/-! # Stations in conversation

    Stations on one bus of which it is known who says what and with which keys.
    A station may be without keys for a while, and then says nothing.

    Two things are followed through the moves of the bus.  Whatever is on its
    way was said by the station that it comes from, and whatever is heard was
    said by somebody else with a key that the hearer holds too.  And a message
    that a station has queued gets on its way, and along, until the hearer takes
    it, if there is such a key.

    * `follows_moves`: everything on its way was said.
    * `onWay_moves`: a message on its way is not lost. -/

namespace MessageBus

open Codec (Carries)

/-- Who says what, and with which keys. -/
structure Conversation (ι : Type) where
  codec : ι → Codec
  keys : ι → KeySet
  /-- The keys of everybody. -/
  known : List String
  Says : ι → Message → Prop
  distinct : ∀ i j, (codec i).id = (codec j).id → i = j
  keyed : ∀ i, (keys i).keys ≠ []
  usable : ∀ i, ∀ key ∈ (keys i).keys, Codec.isUsable key = true
  covers : ∀ i, (keys i).keys ⊆ known
  talk : ∀ i m, Says i m → m.IsHandshakeTalk

namespace Conversation

variable {ι : Type} (v : Conversation ι)

/-- A body that a station made of something it says. -/
def IsBody (i : ι) (body : String) : Prop :=
  ∃ m, v.Says i m ∧ ∃ key ∈ (v.keys i).keys, Carries (v.codec i) v.known m key body

/-- A body that says a message, for the station `j` to read. -/
def IsReadable (i j : ι) (m : Message) (body : String) : Prop :=
  ∃ key ∈ (v.keys j).keys, Carries (v.codec i) v.known m key body

/-- What the station `j` may hear: something that another one says, with a key of both. -/
structure IsHeard (i j : ι) (m : Message) (e : Envelope) : Prop where
  other : i ≠ j
  said : v.Says i m
  shared : ∃ key ∈ (v.keys i).keys, key ∈ (v.keys j).keys
  sender : e.sender? = some (v.codec i).id
  fromBus : e.isReconnected = false
  message : (m = .testAuth ∨ ∃ origin, m = .authValid origin) → e.message = .ok m

variable {v} {i j : ι} {m : Message} {body : String} {keys : KeySet} {e : Envelope}

/-- What is read of a body was said by another station. -/
theorem isHeard_of_parse (hbody : v.IsBody i body) (hkeys : keys = v.keys j ∨ keys = .empty)
    (h : (v.codec j).parse (utf8 body) keys = some e) : ∃ m, v.IsHeard i j m e := by
  obtain ⟨m, hsaid, key, hkey, hcarries⟩ := hbody
  have hcovered : keys.keys ⊆ v.known := by
    rcases hkeys with rfl | rfl
    · exact v.covers j
    · exact List.nil_subset _
  by_cases hheld : key ∈ keys.keys
  · obtain ⟨sent, hparse⟩ := hcarries.parse_eq hcovered hheld (v.codec j)
    rw [hparse] at h
    obtain ⟨hid, hsender, hbus⟩ := Codec.envelope_of_parse (v.talk i m hsaid) h
    refine ⟨m, fun heq => hid (by rw [heq]), hsaid, ⟨key, hkey, ?_⟩, hsender, hbus, ?_⟩
    · rcases hkeys with rfl | rfl
      · exact hheld
      · cases hheld
    · intro hm
      obtain ⟨e', hparse', hmessage⟩ := Codec.parse_eq_of_ne hid hm sent
      obtain rfl := Option.some.inj ((hparse' keys).symm.trans h)
      exact hmessage
  · rw [hcarries.parse_none hcovered hheld] at h
    cases h

/-- A question or a confirmation is read as what it is. -/
theorem parse_isReadable (hij : i ≠ j) (hm : m = .testAuth ∨ ∃ origin, m = .authValid origin)
    (h : v.IsReadable i j m body) :
    ∃ e, (v.codec j).parse (utf8 body) (v.keys j) = some e ∧ e.message = .ok m := by
  obtain ⟨key, hkey, hcarries⟩ := h
  obtain ⟨sent, hparse⟩ := hcarries.parse_eq (v.covers j) hkey (v.codec j)
  obtain ⟨e, hclear, hmessage⟩ :=
    Codec.parse_eq_of_ne (fun hid => hij (v.distinct i j hid.symm)) hm sent
  exact ⟨e, hparse.trans (hclear _), hmessage⟩

/-- Every message of a station that has its keys gets bodies, one for each key. -/
theorem exists_prepare (occasion : Occasion) (i : ι) (contents : Fields) :
    ∃ bodies, (v.codec i).prepare occasion contents (v.keys i) = .ok bodies := by
  obtain ⟨key, hkey⟩ := List.exists_mem_of_ne_nil _ (v.keyed i)
  obtain ⟨body, rest, hok⟩ := (v.codec i).prepare_ok
    (.inr ⟨key, hkey, v.usable i key hkey⟩) occasion contents
  exact ⟨_, hok⟩

end Conversation

namespace Station

variable {ι : Type}

/-- Nothing is left to do for the station, and nothing of it for its caller. -/
def isIdle (s : Station ι) : Bool :=
  s.connection.outbound.isEmpty && s.connection.inFlight.isNone && s.arriving.isEmpty &&
    s.connection.inbound.isEmpty &&
    match s.connection.phase with
    | .serving _ none => true
    | _ => false

/-! ## What is on its way -/

/-- A station that says, and hears, only what is said in the conversation. -/
structure Follows (v : Conversation ι) (j : ι) (s : Station ι) : Prop where
  codec : s.connection.codec = v.codec j
  serving : s.connection.isServing = true
  roomy : 0 < s.connection.capacity
  keys : s.connection.keys = v.keys j ∨
    s.connection.keys = .empty ∧ s.connection.outbound = []
  outbound : ∀ o ∈ s.connection.outbound, ∃ m, v.Says j m ∧ o.contents = m.toFields
  inFlight : ∀ f, s.connection.inFlight = some f → ∀ body ∈ f.bodies, v.IsBody j body
  arriving : ∀ p ∈ s.arriving, v.IsBody p.source p.body
  handing : ∀ since e, s.connection.phase = .serving since (some e) → ∃ i m, v.IsHeard i j m e
  inbound : ∀ e ∈ s.connection.inbound, ∃ i m, v.IsHeard i j m e

variable {v : Conversation ι} {i j : ι} {m : Message} {s : Station ι} {p : Parcel ι}

theorem Follows.expect (h : s.Follows v j) (hp : v.IsBody p.source p.body) :
    (s.expect p).Follows v j := by
  unfold Station.expect
  split
  · refine { h with arriving := ?_ }
    intro q hq
    rcases List.mem_append.mp hq with hq | hq
    · exact h.arriving q hq
    · rwa [List.mem_singleton.mp hq]
  · exact h

/-- With something to say a station has its keys. -/
theorem Follows.keys_eq (h : s.Follows v j) {o : Outgoing} (ho : o ∈ s.connection.outbound) :
    s.connection.keys = v.keys j := by
  rcases h.keys with hkeys | ⟨-, hnone⟩
  · exact hkeys
  · rw [hnone] at ho
    cases ho

/-- The bodies of what the station says carry it, one with each of the keys. -/
theorem Follows.carries_of_prepare (h : s.Follows v j) {o : Outgoing}
    (ho : o ∈ s.connection.outbound) (hcontents : o.contents = m.toFields) {occasion : Occasion}
    {bodies : List String} {number : Nat} (hfits : occasion.fits s.connection.keys = true)
    (hok : s.connection.codec.prepare occasion o.contents s.connection.keys = .ok bodies)
    (hposted : Posting.IsUnmistakable
      (⟨j, number, s.connection.keys, occasion, o.contents, bodies⟩ : Posting ι) v.known) :
    List.Forall₂ (Carries (v.codec j) v.known m) (v.keys j).keys bodies := by
  rw [h.keys_eq ho] at hfits hok hposted
  rw [h.codec, hcontents] at hok
  have hall := Codec.carries_of_prepare (v.keyed j) hfits hok hposted
  rwa [List.filter_eq_self.mpr (v.usable j)] at hall

/-- A station that is attached and has its keys, which it keeps. -/
def IsReady (v : Conversation ι) (j : ι) (s : Station ι) : Prop :=
  s.isAttached = true ∧ s.connection.keys = v.keys j

/-! ## Messages on their way -/

/-- A message that the station `i` has yet to write, in a body that `j` can read at least. -/
inductive HasToWrite (v : Conversation ι) (i j : ι) (m : Message) (s : Station ι) : Prop where
  | queued {o : Outgoing} :
      o ∈ s.connection.outbound → o.contents = m.toFields → HasToWrite v i j m s
  | inFlight {f : InFlight} {body : String} :
      s.connection.inFlight = some f → body ∈ f.bodies.drop f.sent → v.IsReadable i j m body →
      HasToWrite v i j m s

/-- A message that has reached the station `j`, which has yet to take it. -/
inductive HasToTake (v : Conversation ι) (i j : ι) (m : Message) (s : Station ι) : Prop where
  | arriving {p : Parcel ι} : p ∈ s.arriving → v.IsReadable i j m p.body → HasToTake v i j m s
  | handing {since : Nat} {e : Envelope} :
      s.connection.phase = .serving since (some e) → e.message = .ok m → HasToTake v i j m s
  | inbound {e : Envelope} :
      e ∈ s.connection.inbound → e.message = .ok m → HasToTake v i j m s

/-- A station that has the same to say, and more perhaps. -/
theorem HasToWrite.mono (h : HasToWrite v i j m s) {s' : Station ι}
    (hout : s.connection.outbound ⊆ s'.connection.outbound)
    (hflight : s'.connection.inFlight = s.connection.inFlight) : HasToWrite v i j m s' := by
  cases h with
  | queued ho hcontents => exact .queued (hout ho) hcontents
  | inFlight hf hbody hreadable => exact .inFlight (hflight.trans hf) hbody hreadable

/-- A station that has the same to take, and more perhaps. -/
theorem HasToTake.mono (h : HasToTake v i j m s) {s' : Station ι}
    (harriving : s.arriving ⊆ s'.arriving)
    (hphase : s'.connection.phase = s.connection.phase)
    (hin : s.connection.inbound ⊆ s'.connection.inbound) : HasToTake v i j m s' := by
  cases h with
  | arriving hp hreadable => exact .arriving (harriving hp) hreadable
  | handing hp hmessage => exact .handing (hphase.trans hp) hmessage
  | inbound he hmessage => exact .inbound (hin he) hmessage

theorem HasToTake.expect (h : HasToTake v i j m s) (p : Parcel ι) :
    HasToTake v i j m (s.expect p) := by
  refine h.mono ?_ (by rw [connection_expect]) (by rw [connection_expect]; exact fun _ he => he)
  unfold Station.expect
  split
  · exact List.subset_append_left ..
  · exact List.Subset.refl _

theorem hasToTake_expect (hattached : s.isAttached = true) (hp : v.IsReadable i j m p.body) :
    HasToTake v i j m (s.expect p) := by
  rw [Station.expect, if_pos hattached]
  exact .arriving (List.mem_append_right _ (List.mem_singleton.mpr rfl)) hp

/-- An idle station has nothing to write. -/
theorem not_hasToWrite_of_isIdle (h : s.isIdle = true) : ¬ HasToWrite v i j m s := by
  simp only [isIdle, Bool.and_eq_true, List.isEmpty_iff, Option.isNone_iff_eq_none] at h
  rintro (⟨ho, -⟩ | ⟨hf, -, -⟩)
  · rw [h.1.1.1.1] at ho
    cases ho
  · rw [h.1.1.1.2] at hf
    cases hf

/-- An idle station has nothing to take. -/
theorem not_hasToTake_of_isIdle (h : s.isIdle = true) : ¬ HasToTake v i j m s := by
  simp only [isIdle, Bool.and_eq_true, List.isEmpty_iff] at h
  rintro (⟨hp, -⟩ | ⟨hphase, -⟩ | ⟨he, -⟩)
  · rw [h.1.1.2] at hp
    cases hp
  · have hidle := h.2
    rw [hphase] at hidle
    cases hidle
  · rw [h.1.2] at he
    cases he

end Station

namespace Bus

variable {ι : Type} [DecidableEq ι] {v : Conversation ι} {b b' : Bus ι} {i j k : ι} {act : Act}
  {events : List (Event ι)} {m : Message}

/-! ## Everything on its way was said -/

omit [DecidableEq ι] in
/-- All stations say, and hear, only what is said in the conversation. -/
def Follows (v : Conversation ι) (b : Bus ι) : Prop := ∀ j, (b j).Follows v j

theorem Follows.update (h : Follows v b) {s : Station ι} (hs : s.Follows v i) :
    Follows v (Function.update b i s) := by
  intro j
  by_cases hj : j = i
  · subst hj
    rwa [Function.update_self]
  · rw [Function.update_of_ne hj]
    exact h j

/-- What a caller may have a station do: say what it says, once it has its keys. -/
def Act.IsAllowed (v : Conversation ι) (i : ι) (s : Station ι) : Act → Prop
  | .queue o => s.connection.keys = v.keys i ∧ ∃ m, v.Says i m ∧ o.contents = m.toFields
  | .setKeys keys => keys = v.keys i
  | _ => True

/-- Everything on its way was said, and everything heard was said by somebody else. -/
theorem follows_moves (h : Follows v b) (hm : Moves b i act b' events)
    (hallowed : act.IsAllowed v i (b i))
    (hposted : ∀ m, .posted m ∈ events → m.IsUnmistakable v.known) : Follows v b' := by
  have hi := h i
  cases hm with
  | attached => exact h.update { hi with }
  | @queued o =>
    obtain ⟨hkeys, m, hsaid, hcontents⟩ := hallowed
    refine h.update { hi with keys := .inl hkeys, outbound := ?_ }
    intro o' ho'
    rcases List.mem_append.mp ho' with ho' | ho'
    · exact hi.outbound o' ho'
    · rw [List.mem_singleton.mp ho']
      exact ⟨m, hsaid, hcontents⟩
  | rekeyed => exact h.update { hi with keys := .inl hallowed }
  | took _ hin =>
    refine h.update { hi with inbound := ?_ }
    exact fun e he => hi.inbound e (hin ▸ List.mem_cons_of_mem _ he)
  | @posted since handing occasion o rest bodies _ hfits _ _ hout hok =>
    have ho : o ∈ (b i).connection.outbound := hout ▸ List.mem_cons_self ..
    obtain ⟨m, hsaid, hcontents⟩ := hi.outbound o ho
    have hall := hi.carries_of_prepare ho hcontents hfits hok
      (hposted _ (List.mem_singleton.mpr rfl))
    refine h.update { hi with keys := .inl (hi.keys_eq ho), outbound := ?_, inFlight := ?_ }
    · exact fun o' ho' => hi.outbound o' (hout ▸ List.mem_cons_of_mem _ ho')
    · intro f hf body hbody
      obtain rfl := Option.some.inj hf
      obtain ⟨key, hkey, hcarries⟩ := exists_of_forall₂_of_mem hall.flip hbody
      exact ⟨m, hsaid, key, hkey, hcarries⟩
  | rejected _ _ _ _ hout =>
    refine h.update { hi with keys := ?_, outbound := ?_ }
    · exact .inl (hi.keys_eq (hout ▸ List.mem_cons_self ..))
    · exact fun o' ho' => hi.outbound o' (hout ▸ List.mem_cons_of_mem _ ho')
  | @wrote since handing f body _ _ hflight hbody =>
    have hsaid := hi.inFlight f hflight body (List.mem_of_getElem? hbody)
    have hput := h.update (i := i) (s := (b i).withConnection
      { (b i).connection with inFlight := some { f with sent := f.sent + 1 } })
      { hi with inFlight := fun f' hf' => Option.some.inj hf' ▸ hi.inFlight f hflight }
    exact fun j => (hput j).expect hsaid
  | finished => exact h.update { hi with inFlight := by rintro _ ⟨⟩ }
  | @arrived since p rest _ harriving =>
    have hp : v.IsBody p.source p.body := hi.arriving p (harriving ▸ List.mem_cons_self ..)
    refine h.update { hi with serving := rfl, arriving := ?_, handing := ?_ }
    · exact fun q hq => hi.arriving q (harriving ▸ List.mem_cons_of_mem _ hq)
    · intro since' e hphase
      have hparse : (b i).connection.codec.parse (utf8 p.body) (b i).connection.keys = some e :=
        (Phase.serving.inj hphase).2
      rw [hi.codec] at hparse
      exact ⟨p.source, Conversation.isHeard_of_parse hp (hi.keys.imp_right And.left) hparse⟩
  | @surfaced since e _ hphase =>
    refine h.update { hi with serving := rfl, handing := by rintro _ _ ⟨⟩, inbound := ?_ }
    intro e' he'
    rcases List.mem_append.mp he' with he' | he'
    · exact hi.inbound e' he'
    · rw [List.mem_singleton.mp he']
      exact hi.handing since e hphase

/-! ## Stations that are ready -/

/-- A station that is ready stays so. -/
theorem ready_moves (h : (b j).IsReady v j) (hm : Moves b i act b' events)
    (hallowed : act.IsAllowed v i (b i)) : (b' j).IsReady v j := by
  obtain ⟨hattached, hkeys⟩ := h
  by_cases hj : j = i
  · subst hj
    cases hm with
    | attached | finished | arrived =>
      rw [Function.update_self]
      exact ⟨by first | rfl | exact hattached, hkeys⟩
    | wrote =>
      refine ⟨by rwa [isAttached_carry, isAttached_put], ?_⟩
      rwa [connection_carry, connection_put_self]
    | _ => exact ⟨by rwa [isAttached_put], by rwa [connection_put_self]⟩
  · rcases bystander_moves hm hj with heq | ⟨p, heq⟩
    · rw [heq]
      exact ⟨hattached, hkeys⟩
    · refine ⟨?_, by rw [heq, Station.connection_expect, hkeys]⟩
      rw [heq, Station.isAttached_expect, hattached]

/-- With its keys a station is ready. -/
theorem ready_of_setKeys (hm : Moves b i (.setKeys (v.keys i)) b' events) :
    (b' i).IsReady v i := by
  cases hm with
  | rekeyed hattached => exact ⟨by rwa [isAttached_put], by rw [connection_put_self]⟩

/-! ## From one station to another -/

/-- What was queued is to be written. -/
theorem hasToWrite_of_queue {o : Outgoing} (hm : Moves b i (.queue o) b' events)
    (ho : o.contents = m.toFields) : (b' i).HasToWrite v i j m := by
  cases hm with
  | queued =>
    refine .queued (o := o) ?_ ho
    rw [connection_put_self]
    exact List.mem_append_right _ (List.mem_singleton.mpr rfl)

omit [DecidableEq ι] in
/-- A message of the station `i` is on its way to `j`. -/
def OnWay (v : Conversation ι) (i j : ι) (m : Message) (b : Bus ι) : Prop :=
  (b i).HasToWrite v i j m ∨ (b j).HasToTake v i j m

/-- What a station has to write it still has to write, or it is on the way to the other. -/
theorem hasToWrite_moves (h : Follows v b) (hm : Moves b k act b' events)
    (hshared : ∃ key ∈ (v.keys i).keys, key ∈ (v.keys j).keys)
    (hposted : ∀ m, .posted m ∈ events → m.IsUnmistakable v.known)
    (hattached : (b j).isAttached = true) (hwrite : (b i).HasToWrite v i j m) :
    OnWay v i j m b' := by
  by_cases hik : i = k
  swap
  · left
    rcases bystander_moves hm hik with heq | ⟨p, heq⟩
    · rwa [heq]
    · rw [heq]
      exact hwrite.mono (by rw [Station.connection_expect]; exact fun _ ho => ho)
        (by rw [Station.connection_expect])
  subst hik
  have hi := h i
  cases hm with
  | attached | rekeyed | took | arrived | surfaced =>
    left
    simp only [put, Function.update_self]
    exact hwrite.mono (List.Subset.refl _) rfl
  | queued =>
    left
    simp only [put, Function.update_self]
    exact hwrite.mono (List.subset_append_left ..) rfl
  | @posted since handing occasion o rest bodies _ hfits _ hnone hout hok =>
    left
    simp only [put, Function.update_self]
    cases hwrite with
    | inFlight hf => rw [hnone] at hf; cases hf
    | @queued o' ho' hcontents =>
      rw [hout] at ho'
      rcases List.mem_cons.mp ho' with rfl | ho'
      · -- the bodies of the message are about to be written, one of them with a key of both
        have hall := hi.carries_of_prepare (hout ▸ List.mem_cons_self ..) hcontents hfits hok
          (hposted _ (List.mem_singleton.mpr rfl))
        obtain ⟨key, hkey, hother⟩ := hshared
        obtain ⟨body, hbody, hcarries⟩ := exists_of_forall₂_of_mem hall hkey
        exact .inFlight rfl hbody ⟨key, hother, hcarries⟩
      · exact .queued ho' hcontents
  | @rejected since handing occasion o rest err _ _ _ _ hout herr =>
    -- nothing is rejected
    obtain ⟨bodies, hok⟩ := v.exists_prepare occasion i o.contents
    rw [hi.codec, hi.keys_eq (hout ▸ List.mem_cons_self ..), hok] at herr
    cases herr
  | @wrote since handing f body _ _ hflight hbody =>
    cases hwrite with
    | queued ho hcontents =>
      refine .inl (.queued ?_ hcontents)
      rw [connection_carry, connection_put_self]
      exact ho
    | @inFlight f' body' hf' hbody' hreadable =>
      obtain rfl := Option.some.inj (hflight.symm.trans hf')
      obtain ⟨hlt, heq⟩ := List.getElem?_eq_some_iff.mp hbody
      rw [List.drop_eq_getElem_cons hlt, heq] at hbody'
      rcases List.mem_cons.mp hbody' with rfl | hbody'
      · exact .inr (Station.hasToTake_expect (by rw [isAttached_put]; exact hattached) hreadable)
      · refine .inl (.inFlight (f := { f with sent := f.sent + 1 }) ?_ hbody' hreadable)
        rw [connection_carry, connection_put_self]
  | @finished since handing f _ _ hflight hsent =>
    left
    rw [Function.update_self]
    cases hwrite with
    | queued ho hcontents => exact .queued ho hcontents
    | @inFlight f' body' hf' hbody' hreadable =>
      obtain rfl := Option.some.inj (hflight.symm.trans hf')
      rw [List.drop_eq_nil_of_le hsent] at hbody'
      cases hbody'

/-- What has reached a station it still has to take, unless it takes just that. -/
theorem hasToTake_moves (h : Follows v b) (hm : Moves b k act b' events) (hij : i ≠ j)
    (hquestion : m = .testAuth ∨ ∃ origin, m = .authValid origin)
    (hkeys : (b j).connection.keys = v.keys j) (htake : (b j).HasToTake v i j m) :
    (b' j).HasToTake v i j m ∨
      k = j ∧ act = .take ∧
        ∃ e rest, (b j).connection.inbound = e :: rest ∧ e.message = .ok m := by
  by_cases hjk : j = k
  swap
  · left
    rcases bystander_moves hm hjk with heq | ⟨p, heq⟩
    · rwa [heq]
    · rw [heq]
      exact htake.expect p
  subst hjk
  cases hm with
  | attached | queued | rekeyed | posted | rejected | finished =>
    left
    simp only [put, Function.update_self]
    exact htake.mono (List.Subset.refl _) rfl (List.Subset.refl _)
  | @wrote since handing f body _ _ hflight hbody =>
    left
    refine Station.HasToTake.expect (htake.mono ?_ ?_ ?_) _
    · rw [arriving_put]
      exact fun _ hp => hp
    · rw [connection_put_self]
    · rw [connection_put_self]
      exact fun _ he => he
  | @took e rest _ hin =>
    rw [put, Function.update_self]
    cases htake with
    | arriving hp hreadable => exact .inl (.arriving hp hreadable)
    | handing hphase hmessage => exact .inl (.handing hphase hmessage)
    | @inbound e' he' hmessage =>
      rw [hin] at he'
      rcases List.mem_cons.mp he' with rfl | he'
      · exact .inr ⟨rfl, rfl, _, rest, hin, hmessage⟩
      · exact .inl (.inbound he' hmessage)
  | @arrived since p rest _ harriving hphase =>
    left
    rw [Function.update_self]
    cases htake with
    | @arriving q hq hreadable =>
      rw [harriving] at hq
      rcases List.mem_cons.mp hq with rfl | hq
      · obtain ⟨e, hparse, hmessage⟩ := Conversation.parse_isReadable hij hquestion hreadable
        rw [← (h j).codec, ← hkeys] at hparse
        exact .handing (congrArg (Phase.serving since) hparse) hmessage
      · exact .arriving hq hreadable
    | handing hhanding => rw [hphase] at hhanding; cases hhanding
    | inbound he hmessage => exact .inbound he hmessage
  | @surfaced since e _ hphase =>
    left
    simp only [put, Function.update_self]
    cases htake with
    | arriving hp hreadable => exact .arriving hp hreadable
    | handing hhanding hmessage =>
      rw [hphase] at hhanding
      cases hhanding
      exact .inbound (List.mem_append_right _ (List.mem_singleton.mpr rfl)) hmessage
    | inbound he hmessage => exact .inbound (List.mem_append_left _ he) hmessage

/-- A message on its way stays on its way until it is taken. -/
theorem onWay_moves (h : Follows v b) (hm : Moves b k act b' events) (hij : i ≠ j)
    (hquestion : m = .testAuth ∨ ∃ origin, m = .authValid origin)
    (hshared : ∃ key ∈ (v.keys i).keys, key ∈ (v.keys j).keys)
    (hposted : ∀ m, .posted m ∈ events → m.IsUnmistakable v.known)
    (hattached : (b j).isAttached = true) (hkeys : (b j).connection.keys = v.keys j)
    (honWay : OnWay v i j m b) :
    OnWay v i j m b' ∨
      k = j ∧ act = .take ∧
        ∃ e rest, (b j).connection.inbound = e :: rest ∧ e.message = .ok m := by
  rcases honWay with hwrite | htake
  · exact .inl (hasToWrite_moves h hm hshared hposted hattached hwrite)
  · exact (hasToTake_moves h hm hij hquestion hkeys htake).imp_left .inr

end Bus

end MessageBus
