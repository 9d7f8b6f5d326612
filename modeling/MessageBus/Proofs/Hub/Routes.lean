import MessageBus.Proofs.Hub.AtOnce
import MessageBus.Proofs.Hub.OneRealmPerName
import MessageBus.Proofs.Transport.Realms

/-! # Routes of clients and of a hub

    A client makes the route of its realm out of an address and a name, and a hub
    takes the name of a realm out of the route that a client asks for.  They
    agree: whatever the realm and the sub-channel, the hub reads the route of a
    client back, and clients meet in a realm exactly if their names are the same.

    * `realmOfPath?_eq_some_iff`: the routes that a hub accepts.
    * `RealmClient.realmOfPath?_path`: the route of a client is one of them.
    * `incarnation_eq_iff`: who is in a realm with whom.
    * `routes_agree`: the three of them. -/

namespace MessageBus

namespace Hub

theorem dropStart?_eq_some_iff {start cs rest : List Char} :
    dropStart? start cs = some rest ↔ cs = start ++ rest := by
  induction start generalizing cs with
  | nil => simp [dropStart?]
  | cons a start ih =>
    cases cs with
    | nil => simp [dropStart?]
    | cons c cs =>
      rw [dropStart?, List.cons_append, List.cons.injEq, ← ih]
      split
      · next h => simp [h]
      · next h => simp [Ne.symm h]

/-- The routes of a hub: a name without a slash between `/pmb/` and a slash. -/
def IsRoute (path : String) : Prop :=
  ∃ category, category ≠ "" ∧ '/' ∉ category.toList ∧ path = "/pmb/" ++ category ++ "/"

/-- A hub accepts its routes and nothing else, and the name of a realm is its route. -/
theorem realmOfPath?_eq_some_iff {path realm : String} :
    realmOfPath? path = some realm ↔ IsRoute path ∧ realm = path := by
  unfold realmOfPath? IsRoute
  constructor
  · intro h
    split at h
    · next rest hrest =>
      split at h
      · next hends =>
        obtain ⟨hlast, hsome, hfree⟩ := hends
        rw [dropStart?_eq_some_iff] at hrest
        refine ⟨⟨String.ofList rest.dropLast, ?_, ?_, ?_⟩, (Option.some.inj h).symm⟩
        · simpa using hsome
        · simpa using hfree
        · have hsplit : rest.dropLast ++ ['/'] = rest := List.dropLast_append_getLast? _ hlast
          refine String.toList_inj.mp ?_
          simp [hrest, hsplit]
      · cases h
    · cases h
  · rintro ⟨⟨category, hsome, hfree, rfl⟩, rfl⟩
    have hrest : dropStart? "/pmb/".toList ("/pmb/" ++ category ++ "/").toList =
        some (category.toList ++ ['/']) := by
      rw [dropStart?_eq_some_iff]
      simp
    rw [hrest]
    simp [hsome, hfree]

end Hub

/-! ## Clients -/

/-- Whether a character may stand in the name of a realm or of a sub-channel. -/
def isNameCharacter (c : Char) : Bool := c.isAlphanum || c = '_' || c = '-'

/-- A client of a hub at the root of its host. -/
structure RealmClient where
  address : String
  base : Url
  realm : String
  sub : Option String
  parsed : Url.parse address = .ok base
  scheme : base.scheme = "ws" ∨ base.scheme = "wss"
  root : base.path.render = "" ∨ base.path.render = "/"
  realm_written : ∀ c ∈ realm.toList, isNameCharacter c = true
  sub_written : ∀ name ∈ sub, ∀ c ∈ name.toList, isNameCharacter c = true
  named : Transport.channel realm sub ≠ ""

namespace RealmClient

variable (client : RealmClient)

/-- The name that the client goes by. -/
def category : String := Transport.channel client.realm client.sub

/-- The path that the client asks for. -/
def path : String := (Transport.realmUrl client.base client.realm client.sub).path.render

theorem isNameCharacter_facts {c : Char} (h : isNameCharacter c = true) :
    Transport.IsPlain c ∧ Percent.IsPlain Percent.inPath c ∧ c ≠ '.' ∧ c ≠ '/' := by
  have hascii : c.toNat < 128 := by
    unfold isNameCharacter Char.isAlphanum Char.isAlpha Char.isUpper Char.isLower Char.isDigit at h
    simp only [Bool.or_eq_true, Bool.and_eq_true, decide_eq_true_eq] at h
    rcases h with (((⟨-, hle⟩ | ⟨-, hle⟩) | ⟨-, hle⟩) | rfl) | rfl
    · exact Nat.lt_of_le_of_lt hle (by decide)
    · exact Nat.lt_of_le_of_lt hle (by decide)
    · exact Nat.lt_of_le_of_lt hle (by decide)
    · decide
    · decide
  have hfacts : ∀ n < 128, isNameCharacter (Char.ofNat n) = true →
      Transport.IsPlain (Char.ofNat n) ∧ Percent.inPath (asciiByte (Char.ofNat n)) = false ∧
        Char.ofNat n ≠ '.' ∧ Char.ofNat n ≠ '/' := by decide +kernel
  rw [← Char.ofNat_toNat c] at h
  have hc := hfacts c.toNat hascii h
  rw [Char.ofNat_toNat] at hc
  exact ⟨hc.1, ⟨hascii, hc.2.1⟩, hc.2.2⟩

theorem category_written : ∀ c ∈ client.category.toList, isNameCharacter c = true := by
  unfold category
  cases hsub : client.sub with
  | none => exact client.realm_written
  | some name =>
    intro c hc
    simp only [Transport.channel, String.toList_append, List.mem_append] at hc
    rcases hc with (hc | hc) | hc
    · exact client.realm_written c hc
    · rw [List.mem_singleton.mp hc]
      rfl
    · exact client.sub_written name hsub c hc

/-- Below the root there is nothing above the name but `pmb`. -/
theorem above_base : Transport.above client.base = ["pmb"] := by
  have hstem : Transport.stem client.base = "/pmb".toList := by
    unfold Transport.stem
    rcases client.root with h | h <;> rw [h] <;> decide
  rw [Transport.above, hstem]
  decide +kernel

/-- The path is the name between `/pmb/` and a slash. -/
theorem path_eq : client.path = "/pmb/" ++ client.category ++ "/" := by
  have hspecial : Url.isSpecial client.base.scheme = true := by
    rcases client.scheme with h | h <;> rw [h] <;> rfl
  have hfile : client.base.scheme ≠ "file" := by
    rcases client.scheme with h | h <;> rw [h] <;> decide
  obtain ⟨segment, segments, hpath⟩ := (Url.isWritten_of_parse client.parsed hspecial hfile).path
  have hfacts := fun c hc => isNameCharacter_facts (client.category_written c hc)
  have hroute : Transport.route client.base client.realm client.sub =
      Url.enter ["pmb"] (Url.encodeSegment client.category.toList) := by
    rw [Transport.route_of_isPlain fun c hc => (hfacts c hc).1, above_base]
    rfl
  have hself : Url.encodeSegment client.category.toList = client.category := by
    rw [Url.encodeSegment, Percent.encode_eq_self fun c hc => (hfacts c hc).2.1,
      String.ofList_toList]
  have hnodots : ¬(Url.isDoubleDot client.category = true ∨ Url.isDot client.category = true) := by
    intro hdots
    rcases (Url.characters_of_dots hdots).1 with h | h
    · exact (hfacts _ h).2.2.1 rfl
    · exact (hfacts _ h).1.1 rfl
  rw [hself, Url.enter_of_notDots _ hnodots] at hroute
  rw [path, Transport.path_realmUrl hspecial hpath, hroute]
  refine String.toList_inj.mp ?_
  simp [Url.Path.render, String.join_cons]

theorem isRoute_path : Hub.IsRoute client.path :=
  ⟨client.category, client.named,
    fun hslash => (isNameCharacter_facts (client.category_written _ hslash)).2.2.2 rfl,
    client.path_eq⟩

/-- The hub reads the route of a client back. -/
theorem realmOfPath?_path :
    Hub.realmOfPath? client.path = some ("/pmb/" ++ client.category ++ "/") :=
  Hub.realmOfPath?_eq_some_iff.mpr ⟨client.isRoute_path, client.path_eq.symm⟩

theorem path_inj {client₁ client₂ : RealmClient} :
    client₁.path = client₂.path ↔ client₁.category = client₂.category := by
  rw [path_eq, path_eq]
  refine ⟨fun h => ?_, fun h => by rw [h]⟩
  have hlists := congrArg String.toList h
  refine String.toList_inj.mp ?_
  simpa using hlists

end RealmClient

/-! ## Who meets whom -/

namespace Registry

variable {r : Registry} {m n : Nat} {name other : String}

/-- Whether an incarnation is one of a realm of some name. -/
def KnownAs (r : Registry) (n : Nat) (name : String) : Prop :=
  ∃ x, r.realm? n = some x ∧ x.name = name

theorem KnownAs.map {r' : Registry} {change : Realm → Realm} (h : KnownAs r n name)
    (hrealms : r'.realms = r.realms.map change) (hinc : ∀ x, (change x).incarnation = x.incarnation)
    (hname : ∀ x, (change x).name = x.name) : KnownAs r' n name := by
  obtain ⟨x, hx, rfl⟩ := h
  have hkey : ((·.incarnation == n) ∘ change) = (·.incarnation == n) := by
    funext y
    simp [hinc]
  refine ⟨change x, ?_, hname x⟩
  rw [realm?, hrealms, List.find?_map, hkey]
  exact congrArg _ hx

theorem KnownAs.modify {change : Realm → Realm} (h : KnownAs r n name)
    (hinc : ∀ x, (change x).incarnation = x.incarnation) (hname : ∀ x, (change x).name = x.name) :
    KnownAs (r.modify m change) n name := by
  refine h.map rfl ?_ ?_
  all_goals
    intro x
    split
    · first | exact hinc x | exact hname x
    · rfl

theorem KnownAs.serving (h : KnownAs r n name) (hascending : r.Ascending) (other : String) :
    KnownAs (r.serving other).2 n name := by
  obtain ⟨x, hx, rfl⟩ := h
  have hold : n ≠ r.started + 1 := by
    have hle := hascending.le_started x (mem_of_realm? hx)
    rw [incarnation_of_realm? hx] at hle
    omega
  have hcreate : KnownAs (r.create other).2 n x.name :=
    ⟨x, by rw [realm?_create hascending, if_neg hold]; exact hx, rfl⟩
  unfold Registry.serving
  split
  · split
    · exact ⟨x, hx, rfl⟩
    · exact hcreate
  · exact hcreate

/-- Whoever asks for a name gets a realm of that name. -/
theorem knownAs_serving (h : r.Consistent []) (name : String) :
    KnownAs (r.serving name).2 (r.serving name).1 name := by
  have hcreate : KnownAs (r.create name).2 (r.create name).1 name :=
    ⟨.start name (r.started + 1), by rw [realm?_create h.ascending]; exact if_pos rfl, rfl⟩
  unfold Registry.serving
  split
  · next n hget =>
    split
    · obtain ⟨x, hx, hname, -⟩ := h.registered name n hget
      exact ⟨x, hx, hname⟩
    · exact hcreate
  · exact hcreate

theorem KnownAs.attach (h : KnownAs r n name) (hascending : r.Ascending) (other : String)
    (client capacity : Nat) : KnownAs (r.attach other client capacity).2 n name := by
  unfold Registry.attach
  split
  · exact h
  · exact (h.serving hascending other).modify (fun _ => rfl) fun _ => rfl

theorem KnownAs.sweep (h : KnownAs r n name) : KnownAs r.sweep n name := by
  have hname : ∀ x : Realm, x.retireIfEmpty.name = x.name := fun x => x.name_obey .retireIfEmpty
  have hinc : ∀ x : Realm, x.retireIfEmpty.incarnation = x.incarnation :=
    fun x => x.incarnation_obey .retireIfEmpty
  unfold Registry.sweep
  split
  · exact h
  · refine h.map rfl (fun x => ?_) fun x => ?_
    · split
      · exact hinc x
      · rfl
    · split
      · exact hname x
      · rfl

end Registry

namespace Hub

open Registry

variable {h : Hub} {n : Nat} {name : String}

/-- The hub after some moves. -/
def after (h : Hub) (actions : List Action) : Hub := actions.foldl (fun h a => (h.step a).1) h

theorem kept_after (hk : Switchboard.Kept h) (actions : List Action) :
    Switchboard.Kept (h.after actions) := by
  induction actions generalizing h with
  | nil => exact hk
  | cons a actions ih => exact ih (hk.step a)

/-- No move makes a hub forget or rename a realm that it ever had. -/
theorem knownAs_step (hk : Switchboard.Kept h) (hn : KnownAs h.registry n name) (a : Action) :
    KnownAs (h.step a).1.registry n name := by
  cases a with
  | upgrade path =>
    simp only [step, welcome]
    split
    · exact hn
    · next realm _ =>
      have hattach := hn.attach hk.orderly.consistent.ascending realm h.nextClient
        h.settings.sendBuffer
      split <;> next heq => rw [heq] at hattach; exact hattach
  | receive k text =>
    simp only [step, hand]
    split
    · exact hn
    · exact hn.modify (fun _ => rfl) fun _ => rfl
  | endReading k =>
    simp only [step, Hub.endReading]
    split
    · exact hn
    · exact hn.modify (fun _ => rfl) fun _ => rfl
  | send k =>
    simp only [step, takeNext]
    split
    · exact hn
    · split
      · exact hn.modify (fun _ => rfl) fun _ => rfl
      · exact hn
  | endWriting k =>
    simp only [step, Hub.endWriting]
    split
    · exact hn
    · exact hn.modify (fun _ => rfl) fun _ => rfl
  | sweep => exact hn.sweep

theorem knownAs_after (hk : Switchboard.Kept h) (hn : KnownAs h.registry n name)
    (actions : List Action) : KnownAs (h.after actions).registry n name := by
  induction actions generalizing h with
  | nil => exact hn
  | cons a actions ih => exact ih (hk.step a) (knownAs_step hk hn a)

/-- Whether a client has its place in a realm. -/
def Belongs (h : Hub) (client : Nat) (seat : Seat) : Prop :=
  ∃ x, h.registry.realm? seat.incarnation = some x ∧ client ∈ x.clients

/-- A client that asks for a route gets a place in the realm of that name. -/
theorem exists_seat (hk : Switchboard.Kept h) {path : String}
    (hpath : realmOfPath? path = some name) :
    ∃ seat, (h.step (.upgrade path)).2 = [.joined h.sessions.length seat] ∧
      KnownAs (h.step (.upgrade path)).1.registry seat.incarnation name ∧
      Belongs (h.step (.upgrade path)).1 h.nextClient seat := by
  have hserved : KnownAs (h.registry.serving name).2 (h.registry.serving name).1 name :=
    knownAs_serving hk.orderly.consistent name
  cases hserving : h.registry.serving name with
  | mk n r =>
    rw [hserving] at hserved
    obtain ⟨x, hx, hname⟩ := hserved
    have hattach : h.registry.attach name h.nextClient h.settings.sendBuffer =
        (.ok ⟨n, r.nextOutbox⟩,
          { r.modify n (·.add h.nextClient r.nextOutbox h.settings.sendBuffer) with
            nextOutbox := r.nextOutbox + 1 }) := by
      simp [Registry.attach, hk.uncancelled, hserving]
    have hrealm : (r.modify n (·.add h.nextClient r.nextOutbox h.settings.sendBuffer)).realm? n =
        some (x.add h.nextClient r.nextOutbox h.settings.sendBuffer) :=
      realm?_modify_self (fun _ => rfl) hx
    simp only [step, welcome, hpath, hattach]
    exact ⟨_, rfl, ⟨_, hrealm, hname⟩, _, hrealm, Realm.mem_clients_add ..⟩

/-- Clients that belong to realms at the same time are in the same one if they came for the same
name. -/
theorem incarnation_eq_iff (hk : Switchboard.Kept h) {name₁ name₂ : String} {client₁ client₂ : Nat}
    {seat₁ seat₂ : Seat} (hname₁ : KnownAs h.registry seat₁.incarnation name₁)
    (hname₂ : KnownAs h.registry seat₂.incarnation name₂) (h₁ : Belongs h client₁ seat₁)
    (h₂ : Belongs h client₂ seat₂) : seat₁.incarnation = seat₂.incarnation ↔ name₁ = name₂ := by
  have hconsistent := hk.orderly.consistent
  -- A realm with a client runs, so it is the one that is registered under its name.
  have hregistered : ∀ {name client seat}, KnownAs h.registry seat.incarnation name →
      Belongs h client seat → h.registry.current.get? name = some seat.incarnation := by
    rintro name client seat ⟨x, hx, rfl⟩ ⟨y, hy, hclient⟩
    obtain rfl : y = x := Option.some.inj (hy.symm.trans hx)
    exact hconsistent.running _ y hy (hk.orderly.running_of_attached hy (.inl hclient))
  constructor
  · intro heq
    obtain ⟨x, hx, rfl⟩ := hname₁
    obtain ⟨y, hy, rfl⟩ := hname₂
    rw [heq, hy] at hx
    rw [Option.some.inj hx]
  · rintro rfl
    exact Option.some.inj ((hregistered hname₁ h₁).symm.trans (hregistered hname₂ h₂))

/-- Whether a client came for a path and got a place in the course of some moves of a hub. -/
def Joined (settings : HubSettings) (actions : List Action) (path : String) (client : Nat)
    (seat : Seat) : Prop :=
  ∃ before rest k, actions = before ++ .upgrade path :: rest ∧
    ((start settings).after before).nextClient = client ∧
    (((start settings).after before).step (.upgrade path)).2 = [.joined k seat]

theorem knownAs_of_joined {settings : HubSettings} {actions : List Action} {path : String}
    {client : Nat} {seat : Seat} (hjoined : Joined settings actions path client seat)
    (hpath : realmOfPath? path = some name) :
    KnownAs ((start settings).after actions).registry seat.incarnation name := by
  obtain ⟨before, rest, k, rfl, -, hevents⟩ := hjoined
  have hk := kept_after (.start settings) before
  obtain ⟨seat', hevents', hknown, -⟩ := exists_seat hk hpath
  rw [hevents] at hevents'
  obtain ⟨-, rfl⟩ := Event.joined.inj (List.singleton_inj.mp hevents')
  rw [after, List.foldl_append]
  exact knownAs_after (hk.step _) hknown rest

/-! ## Main theorem -/

/-- A hub accepts a path exactly if it is a name without slashes between `/pmb/` and a slash, and
names the realm after it.  The route of every client is one of those, so that the hub lets the
client in, to the realm of that name, whatever happened before.  At whatever time two clients are in
realms, they are in the same one exactly if they go by the same name. -/
theorem routes_agree :
    (∀ path realm, realmOfPath? path = some realm ↔
      (∃ category, category ≠ "" ∧ '/' ∉ category.toList ∧ path = "/pmb/" ++ category ++ "/") ∧
        realm = path) ∧
    (∀ client : RealmClient,
      realmOfPath? client.path = some ("/pmb/" ++ client.category ++ "/")) ∧
    (∀ settings actions (client : RealmClient), ∃ k seat,
      (((start settings).after actions).step (.upgrade client.path)).2 = [.joined k seat] ∧
      KnownAs (((start settings).after actions).step (.upgrade client.path)).1.registry
        seat.incarnation ("/pmb/" ++ client.category ++ "/") ∧
      Belongs (((start settings).after actions).step (.upgrade client.path)).1
        ((start settings).after actions).nextClient seat) ∧
    ∀ settings actions (client₁ client₂ : RealmClient) number₁ number₂ seat₁ seat₂,
      Joined settings actions client₁.path number₁ seat₁ →
      Joined settings actions client₂.path number₂ seat₂ →
      Belongs ((start settings).after actions) number₁ seat₁ →
      Belongs ((start settings).after actions) number₂ seat₂ →
      (seat₁.incarnation = seat₂.incarnation ↔ client₁.category = client₂.category) := by
  refine ⟨fun _ _ => realmOfPath?_eq_some_iff, RealmClient.realmOfPath?_path, ?_, ?_⟩
  · intro settings actions client
    obtain ⟨seat, hjoined⟩ :=
      exists_seat (kept_after (.start settings) actions) client.realmOfPath?_path
    exact ⟨_, seat, hjoined⟩
  · intro settings actions client₁ client₂ number₁ number₂ seat₁ seat₂ hjoined₁ hjoined₂ h₁ h₂
    have hroute : ∀ client : RealmClient, realmOfPath? client.path = some client.path :=
      fun client => realmOfPath?_eq_some_iff.mpr ⟨client.isRoute_path, rfl⟩
    rw [← RealmClient.path_inj]
    exact incarnation_eq_iff (kept_after (.start settings) actions)
      (knownAs_of_joined hjoined₁ (hroute client₁))
      (knownAs_of_joined hjoined₂ (hroute client₂)) h₁ h₂

/-- Two clients with different addresses, one of them on a sub-channel, go by the same name and
meet. -/
theorem routes_agree_two : ∃ client₁ client₂ : RealmClient, ∃ actions seat₁ seat₂,
    realmOfPath? client₁.path = some "/pmb/home-logs/" ∧
    Joined .default actions client₁.path 1 seat₁ ∧ Joined .default actions client₂.path 2 seat₂ ∧
    seat₁.incarnation = seat₂.incarnation := by
  have hlogs : ∀ name ∈ some "logs", ∀ c ∈ name.toList, isNameCharacter c = true := by
    intro name hname
    obtain rfl := Option.some.inj hname
    exact List.all_eq_true.mp (by decide)
  let client₁ : RealmClient := ⟨"ws://h", ⟨"ws", "", none, some (.domain "h"), none, .rooted [""],
    none, none⟩, "home", some "logs", by decide +kernel, .inl rfl, .inr (by decide),
    List.all_eq_true.mp (by decide), hlogs, by decide⟩
  let client₂ : RealmClient := ⟨"wss://hub:9000/?x", ⟨"wss", "", none, some (.domain "hub"),
    some 9000, .rooted [""], some "x", none⟩, "home-logs", none, by decide +kernel, .inr rfl,
    .inr (by decide), List.all_eq_true.mp (by decide), fun _ h => (nomatch h), by decide⟩
  obtain ⟨-, hread, -, hmeet⟩ := routes_agree
  have hpath₁ : client₁.path = "/pmb/home-logs/" := client₁.path_eq
  have hpath₂ : client₂.path = "/pmb/home-logs/" := client₂.path_eq
  let actions : List Action := [.upgrade "/pmb/home-logs/", .upgrade "/pmb/home-logs/"]
  have hjoined₁ : Joined .default actions client₁.path 1 ⟨1, 0⟩ := by
    rw [hpath₁]
    exact ⟨[], _, 0, rfl, rfl, by decide⟩
  have hjoined₂ : Joined .default actions client₂.path 2 ⟨1, 1⟩ := by
    rw [hpath₂]
    exact ⟨[.upgrade "/pmb/home-logs/"], _, 1, rfl, by decide, by decide⟩
  have hbelongs : Belongs ((start .default).after actions) 1 ⟨1, 0⟩ ∧
      Belongs ((start .default).after actions) 2 ⟨1, 1⟩ :=
    ⟨⟨_, rfl, by decide⟩, _, rfl, by decide⟩
  exact ⟨client₁, client₂, actions, _, _, hread client₁, hjoined₁, hjoined₂,
    (hmeet .default actions client₁ client₂ 1 2 _ _ hjoined₁ hjoined₂ hbelongs.1
      hbelongs.2).mpr rfl⟩

end Hub

end MessageBus
