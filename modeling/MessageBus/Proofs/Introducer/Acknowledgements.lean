import MessageBus.Proofs.Introducer.Discretion
import MessageBus.Proofs.Introducer.Office
import MessageBus.Simulation.World
import Mathlib.Data.List.Induction

/-! # What an introducer confirms

    Apart from what the election makes it say, an introducer says only what it
    owes to somebody: one confirmation for each request that it fulfilled while it
    was in office, in the order of the requests.  It does what it is asked for and
    nothing else, and no failure of a deed stops it.

    * `confirmationFor?`, `deedFor?`: who gets a confirmation, for what deed.
    * `face_owed`: one reaction, against what is owed.
    * `Post.exists_life`: an introducer at its connection leads the life of its
      diary.
    * `confirmed_when_fulfilled`: what is said and done, along every run. -/

namespace MessageBus

/-- Whether a message is one of the election. -/
def Message.isElectoral : Message → Bool
  | introducerPresent _ | introducerRollCall => true
  | _ => false

namespace Introducer

/-! ## What is owed -/

/-- What an introducer is asked, and by whom.  Nobody is heard on standby, nor without an id, nor
with a message that has not the form of its type. -/
def request? (e : Election) (envelope : Envelope) : Option (String × Message) :=
  match e.isActive, envelope.sender?, envelope.message with
  | true, some origin, .ok m => some (origin, m)
  | _, _, _ => none

/-- The deed that a message asks for. -/
def deedFor? (keys : KeySet) : Message → Option Deed
  | .copyData data => some (.copy data)
  | .openUrl url => some (.openUrl url)
  | .notification _ text level url => some (.notify text url level)
  | .requestAuth => if keys.isEmpty then none else some (.copy keys.joined)
  | _ => none

/-- The confirmation for a message; one that takes a deed is confirmed if the deed succeeds. -/
def confirmationFor? (succeeds : Deed → Bool) (origin : String) : Message → Option Message
  | .copyData data => if succeeds (.copy data) then some (.dataCopied origin) else none
  | .openUrl url => if succeeds (.openUrl url) then some (.urlOpened origin) else none
  | .notification id text level url =>
    if succeeds (.notify text url level) then some (.notificationDisplayed origin id level)
    else none
  | .testAuth => some (.authValid origin)
  | _ => none

/-- The confirmation that is owed for an occurrence. -/
def confirmation? (e : Election) : Occurrence → Option Message
  | .received envelope succeeds =>
    (request? e envelope).bind fun (origin, m) => confirmationFor? succeeds origin m
  | _ => none

/-- The deed that is due at an occurrence, with how it ends. -/
def duty? (keys : KeySet) (e : Election) : Occurrence → Option (Deed × Bool)
  | .received envelope succeeds =>
    (request? e envelope).bind fun (_, m) => (deedFor? keys m).map fun deed => (deed, succeeds deed)
  | _ => none

/-- The deed of an effect, with how it ended. -/
def Effect.deed? : Effect → Option (Deed × Bool)
  | did deed ok => some (deed, ok)
  | send _ => none

/-- The messages of some effects that are none of the election. -/
def confirmations (effects : List Effect) : List Message :=
  (effects.filterMap Effect.message?).filter (!·.isElectoral)

/-- The deeds of some effects. -/
def deeds (effects : List Effect) : List (Deed × Bool) := effects.filterMap Effect.deed?

/-! ## One reaction -/

variable {keys : KeySet} {succeeds : Deed → Bool} {e : Election} {envelope : Envelope}

theorem observe_owed (e : Election) (event : Election.Event) :
    confirmations (observe e event).2 = [] ∧ deeds (observe e event).2 = [] := by
  have hoffice : ∀ o : Election.Output, (broadcast o).isElectoral = true := by
    intro o
    cases o <;> rfl
  simp only [observe, confirmations, deeds]
  generalize (e.step event).2 = outputs
  induction outputs with
  | nil => exact ⟨rfl, rfl⟩
  | cons o outputs ih =>
    obtain ⟨hsaid, hdone⟩ := ih
    refine ⟨?_, hdone⟩
    simp only [List.map_cons, List.filterMap_cons, Effect.message?, List.filter_cons, hoffice,
      Bool.not_true]
    exact hsaid

theorem confirmations_perform (deed : Deed) {reply : Message} (h : reply.isElectoral = false) :
    confirmations (perform succeeds deed (some reply)) =
      (if succeeds deed then some reply else none).toList := by
  unfold perform
  cases succeeds deed with
  | false => rfl
  | true => simp [confirmations, Effect.message?, List.filterMap_cons, h]

theorem confirmations_perform_none (deed : Deed) :
    confirmations (perform succeeds deed none) = [] := by
  unfold perform
  cases succeeds deed <;> rfl

theorem deeds_perform (deed : Deed) (reply : Option Message) :
    deeds (perform succeeds deed reply) = [(deed, succeeds deed)] := by
  unfold perform
  cases succeeds deed <;> cases reply <;> rfl

/-- Whoever is served gets what is owed for the message. -/
theorem serve_owed (keys : KeySet) (succeeds : Deed → Bool) (origin : String) (m : Message) :
    confirmations (serve keys succeeds origin m) = (confirmationFor? succeeds origin m).toList ∧
      deeds (serve keys succeeds origin m) =
        ((deedFor? keys m).map fun deed => (deed, succeeds deed)).toList := by
  cases m with
  | copyData | openUrl | notification => exact ⟨confirmations_perform _ rfl, deeds_perform _ _⟩
  | requestAuth =>
    simp only [serve, deedFor?]
    cases keys.isEmpty with
    | true => exact ⟨rfl, rfl⟩
    | false => exact ⟨confirmations_perform_none _, deeds_perform _ _⟩
  | _ => exact ⟨rfl, rfl⟩

/-- An envelope moves the election, or is ignored, or is a request that is served. -/
theorem receive_cases (keys : KeySet) (succeeds : Deed → Bool) (e : Election)
    (envelope : Envelope) :
    (∃ event, receive keys succeeds e envelope = observe e event ∧
      ∀ origin m, request? e envelope = some (origin, m) →
        confirmationFor? succeeds origin m = none ∧ deedFor? keys m = none) ∨
      (receive keys succeeds e envelope = (e, []) ∧ request? e envelope = none) ∨
      ∃ origin m, receive keys succeeds e envelope = (e, serve keys succeeds origin m) ∧
        request? e envelope = some (origin, m) := by
  have hasked : ∀ {origin m m'}, envelope.message = .ok m' →
      request? e envelope = some (origin, m) → m = m' := by
    intro origin m m' hmessage hrequest
    simp only [request?, hmessage] at hrequest
    split at hrequest <;> simp_all
  unfold receive
  split
  · next hsignal =>
    refine .inl ⟨_, rfl, fun origin m hrequest => ?_⟩
    rw [hasked (message_of_isReconnected hsignal) hrequest]
    exact ⟨rfl, rfl⟩
  · split
    · next hmessage => exact .inr (.inl ⟨rfl, by simp [request?, hmessage]⟩)
    · next hmessage =>
      refine .inl ⟨_, rfl, fun origin m hrequest => ?_⟩
      rw [hasked hmessage hrequest]
      exact ⟨rfl, rfl⟩
    · next hmessage =>
      refine .inl ⟨_, rfl, fun origin m hrequest => ?_⟩
      rw [hasked hmessage hrequest]
      exact ⟨rfl, rfl⟩
    · next m _ _ hmessage =>
      cases hactive : e.isActive with
      | false => exact .inr (.inl ⟨rfl, by simp [request?, hactive]⟩)
      | true =>
        cases hsender : envelope.sender? with
        | none => exact .inr (.inl ⟨rfl, by simp [request?, hsender]⟩)
        | some origin =>
          exact .inr (.inr ⟨origin, m, rfl, by simp [request?, hactive, hsender, hmessage]⟩)

/-- What an introducer says besides the election, and what it does, is what is owed. -/
theorem face_owed (keys : KeySet) (e : Election) (o : Occurrence) :
    confirmations (face keys e o).2 = (confirmation? e o).toList ∧
      deeds (face keys e o).2 = (duty? keys e o).toList := by
  cases o with
  | startup | silence => exact observe_owed e _
  | received envelope succeeds =>
    simp only [face, confirmation?, duty?]
    rcases receive_cases keys succeeds e envelope with ⟨event, heq, hnothing⟩ | ⟨heq, hrequest⟩ |
      ⟨origin, m, heq, hrequest⟩
    · rw [heq]
      cases hrequest : request? e envelope with
      | none => exact observe_owed e event
      | some request =>
        obtain ⟨hreply, hdeed⟩ := hnothing request.1 request.2 hrequest
        simp only [Option.bind_some, hreply, hdeed]
        exact observe_owed e event
    · rw [heq, hrequest]
      exact ⟨rfl, rfl⟩
    · rw [heq, hrequest]
      exact serve_owed keys succeeds origin m

/-! ## A life -/

/-- Along every life what is said besides the election is what is owed, occurrence by occurrence,
and so is what is done. -/
theorem life_owed {level : Binary64} {diary : Diary} (h : Lives keys level diary e) :
    (said diary).filter (!·.isElectoral) =
        diary.filterMap (fun st => confirmation? st.before st.move) ∧
      ∀ st ∈ diary, deeds st.events = (duty? keys st.before st.move).toList := by
  induction h with
  | start => exact ⟨rfl, fun _ hst => nomatch hst⟩
  | @move diary e e' o effects _ hstep ih =>
    obtain ⟨hsaid, hdone⟩ := ih
    have heffects : (face keys e o).2 = effects := congrArg Prod.snd (Option.some.inj hstep)
    obtain ⟨hreply, hduty⟩ := face_owed keys e o
    rw [heffects] at hreply hduty
    refine ⟨?_, fun st hst => ?_⟩
    · rw [said_snoc, List.filter_append, hsaid, List.filterMap_append]
      refine congrArg _ (hreply.trans ?_)
      cases hconfirmed : confirmation? e o <;> simp [hconfirmed]
    · rcases List.mem_append.mp hst with hst | hst
      · exact hdone st hst
      · rw [List.mem_singleton.mp hst]
        exact hduty

/-- A life goes on with whatever the introducer is faced with. -/
theorem exists_continued {level : Binary64} {diary : Diary} (h : Lives keys level diary e)
    (o : Occurrence) : ∃ longer, Lives keys level longer (face keys e o).1 ∧
      longer.map (·.move) = diary.map (·.move) ++ [o] ∧
      said longer = said diary ++ (face keys e o).2.filterMap Effect.message? :=
  ⟨_, h.move (m := o) rfl, List.map_append, said_snoc ..⟩

namespace Post

/-- What a move faces the introducer with. -/
def occurrence? (st : Stage Post (Nat × Move) Connection.Event) : Option Occurrence :=
  match st.move.2, st.before.connection.inbound with
  | .handle succeeds, envelope :: _ => some (.received envelope succeeds)
  | .silence, _ => some .silence
  | _, _ => none

/-- The message that a move hands to the connection. -/
def handed? (st : Stage Post (Nat × Move) Connection.Event) : Option Message :=
  match st.move.2 with
  | .send => st.before.pending.head?
  | _ => none

variable {p p' : Post} {now : Nat} {record : Record}

theorem pending_of_handle {events : List Connection.Event}
    (h : p.step (now, .handle succeeds) = some (p', events)) : p.pending = [] := by
  simp only [step] at h
  split at h
  · assumption
  · cases h

theorem pending_of_silence {events : List Connection.Event}
    (h : p.step (now, .silence) = some (p', events)) : p.pending = [] := by
  simp only [step] at h
  split at h
  · assumption
  · cases h

/-- An introducer with nothing left to send takes the next envelope, however its deeds end. -/
theorem exists_handled (now : Nat) (succeeds : Deed → Bool) {envelope : Envelope}
    {rest : List Envelope} (hpending : p.pending = [])
    (hin : p.connection.inbound = envelope :: rest) :
    ∃ p', p.step (now, .handle succeeds) = some (p', [.took envelope]) ∧
      p'.connection = { p.connection with inbound := rest } := by
  have htake : p.connection.step now .take =
      some ({ p.connection with inbound := rest }, [.took envelope]) := by
    simp only [Connection.step, hin]
  have hstep : p.step (now, .handle succeeds) = p.act now .take fun p =>
      p.react (receive p.connection.keys succeeds p.election envelope) := by
    simp only [step, hpending, hin]
  rw [hstep, act, htake]
  exact ⟨_, rfl, rfl⟩

/-- An introducer at its connection leads a life, faced with what its moves face it with.  What it
says in that life it handed to the connection, or is about to. -/
theorem exists_life {codec : Codec} {capacity delay began : Nat} {level : Binary64}
    (h : Runs (start codec capacity delay keys began level) record p) :
    p.connection.keys = keys ∧ ∃ diary, Lives keys level diary p.election ∧
      diary.map (·.move) = .startup :: record.filterMap occurrence? ∧
      said diary = record.filterMap handed? ++ p.pending := by
  induction h with
  | start => exact ⟨rfl, [⟨.start level, .startup, _⟩], Run.start.move rfl, rfl, rfl⟩
  | @move record p p' m events _ hstep ih =>
    obtain ⟨now, move⟩ := m
    obtain ⟨hkeys, diary, hlives, hfaced, hsaid⟩ := ih
    have hmove := moves_of_step hstep
    cases hmove with
    | @handled succeeds envelope rest c _ hin hmoves =>
      have hkept : c.keys = keys := (Connection.keys_moves hmoves).trans hkeys
      rw [pending_of_handle hstep, List.append_nil] at hsaid
      obtain ⟨longer, hlives', hfaced', hsaid'⟩ :=
        exists_continued hlives (.received envelope succeeds)
      refine ⟨hkept, longer, ?_, ?_, ?_⟩
      · rw [hkept]
        exact hlives'
      · rw [hfaced', hfaced]
        simp [occurrence?, hin]
      · rw [hsaid', hsaid, hkept]
        simp [handed?, react, face]
    | idled =>
      rw [pending_of_silence hstep, List.append_nil] at hsaid
      obtain ⟨longer, hlives', hfaced', hsaid'⟩ := exists_continued hlives .silence
      refine ⟨hkeys, longer, hlives', ?_, ?_⟩
      · rw [hfaced', hfaced]
        simp [occurrence?]
      · rw [hsaid', hsaid]
        simp [handed?, react, face]
    | @sent m rest c _ hpending hmoves =>
      refine ⟨(Connection.keys_moves hmoves).trans hkeys, diary, hlives, ?_, ?_⟩
      · rw [hfaced]
        simp [occurrence?]
      · rw [hsaid, hpending]
        simp [handed?, hpending]
    | @worked a c _ hown hmoves =>
      have hkept : p.connection.keysAfter a = p.connection.keys := by
        cases a <;> first | rfl | cases hown
      refine ⟨(Connection.keys_moves hmoves).trans (hkept.trans hkeys), diary, hlives, ?_, ?_⟩
      · rw [hfaced]
        simp [occurrence?]
      · rw [hsaid]
        simp [handed?]

end Post

end Introducer

/-! ## The end of an introducer -/

namespace World

variable {w w' : World} {k : Nat} {x : Introducing}

theorem introducers_act {i : Nat} {a : Connection.Action} (h : w.act i a = some w') :
    w'.introducers = w.introducers := by
  simp only [act, Option.bind_eq_bind, Option.bind_eq_some_iff] at h
  obtain ⟨p, -, ⟨c, events⟩, -, heq⟩ := h
  obtain rfl := Option.some.inj heq
  rfl

theorem ended_absorb (x : Introducing) (e : Election) (effects : List Introducer.Effect) :
    (absorb x e effects).ended = x.ended := by
  induction effects using List.reverseRecOn with
  | nil => rfl
  | append_singleton effects effect ih =>
    unfold absorb at ih ⊢
    rw [List.foldl_append]
    cases effect <;> exact ih

theorem ended_awaitNext (w : World) (x : Introducing) : (w.awaitNext x).ended = x.ended := by
  unfold awaitNext
  split <;> rfl

/-- Whatever becomes of its deeds, an introducer goes on until it is told to stop or its connection
is closed. -/
theorem goes_on (h : w.moveIntroducer k = some w') (hx : w.introducers[k]? = some x)
    (hcancelled : x.cancelled = false)
    (hopen : ∀ p, w.peer? x.peer = some p → p.connection.isStopped = false) :
    ∃ x', w'.introducers[k]? = some x' ∧ x'.ended = none := by
  have hput : ∀ {v : World} {y : Introducing}, v.introducers = w.introducers → y.ended = none →
      v.setIntroducer k (v.awaitNext y) = w' →
      ∃ x', w'.introducers[k]? = some x' ∧ x'.ended = none := by
    rintro v y hsame hy rfl
    have hk : k < w.introducers.length := (List.getElem?_eq_some_iff.mp hx).1
    refine ⟨v.awaitNext y, ?_, (ended_awaitNext v y).trans hy⟩
    rw [setIntroducer, hsame, List.getElem?_set_self hk]
  simp only [moveIntroducer, hx, Option.bind_eq_bind, Option.bind_some] at h
  obtain ⟨p, hp, h⟩ := Option.bind_eq_some_iff.mp h
  have hrunning := hopen p hp
  split at h
  · cases h
  · next hgoing =>
    have hx₀ : x.ended = none := by simpa using hgoing
    split at h
    · rw [if_neg (by simp [hrunning])] at h
      obtain ⟨v, hv, h⟩ := Option.bind_eq_some_iff.mp h
      have hy₀ : ∀ rest, { x with pending := rest }.ended = none := fun _ => hx₀
      exact hput (introducers_act hv) (hy₀ _) (Option.some.inj h)
    · rw [introduce, if_neg (by simp [hcancelled])] at h
      split at h
      · obtain ⟨v, hv, h⟩ := Option.map_eq_some_iff.mp h
        exact hput (introducers_act hv) ((ended_absorb ..).trans hx₀) h
      · rw [if_neg (by simp [hrunning])] at h
        split at h
        · exact hput rfl ((ended_absorb ..).trans hx₀) (Option.some.inj h)
        · cases h

end World

namespace Introducer

/-! ## Main theorem -/

/-- What an introducer says and does for others, whatever it goes through.

    Besides the messages of the election it says, in order, one confirmation for each envelope that
    it took in office, that had the id of a sender, and that was a request which is confirmed
    without a deed or whose one deed succeeded.  It does that deed, or copies its keys for who asks
    for them, and nothing else for any envelope.

    An introducer at its connection leads such a life with what it takes from its inbound queue, and
    has handed to the connection, or is about to, what it says.  However a deed ends, the introducer
    is ready for the next envelope, and it ends only when it is told to or its connection is
    closed. -/
theorem confirmed_when_fulfilled :
    (∀ (keys : KeySet) (level : Binary64) (diary : Diary) (e : Election), Lives keys level diary e →
      (said diary).filter (!·.isElectoral) =
          diary.filterMap (fun st => confirmation? st.before st.move) ∧
        ∀ st ∈ diary, deeds st.events = (duty? keys st.before st.move).toList) ∧
    (∀ (codec : Codec) (capacity delay : Nat) (keys : KeySet) (began : Nat) (level : Binary64)
      (record : Post.Record) (p : Post),
      Post.Runs (.start codec capacity delay keys began level) record p →
      ∃ diary, Lives keys level diary p.election ∧
        diary.map (·.move) = .startup :: record.filterMap Post.occurrence? ∧
        said diary = record.filterMap Post.handed? ++ p.pending) ∧
    (∀ (p : Post) (now : Nat) (succeeds : Deed → Bool) (envelope : Envelope) (rest : List Envelope),
      p.pending = [] → p.connection.inbound = envelope :: rest →
      ∃ p', p.step (now, .handle succeeds) = some (p', [.took envelope]) ∧
        p'.connection = { p.connection with inbound := rest }) ∧
    ∀ (w w' : World) (k : Nat) (x : Introducing), w.moveIntroducer k = some w' →
      w.introducers[k]? = some x → x.cancelled = false →
      (∀ p, w.peer? x.peer = some p → p.connection.isStopped = false) →
      ∃ x', w'.introducers[k]? = some x' ∧ x'.ended = none := by
  refine ⟨fun _ _ _ _ h => life_owed h, fun _ _ _ _ _ _ _ _ h => (Post.exists_life h).2, ?_,
    fun _ _ _ _ => World.goes_on⟩
  intro p now succeeds envelope rest hpending hin
  exact Post.exists_handled now succeeds hpending hin

/-- A client has a text copied twice, which fails once, and checks its key: it gets two
confirmations.  An introducer that has handed over its first two messages takes an envelope though
its deed fails, and one in a world where all deeds fail goes on. -/
theorem confirmed_when_fulfilled_twice :
    (∃ (diary : Diary) (e : Election), Lives .empty Binary64.zero diary e ∧
      eventsOf diary = [.send (.introducerPresent Binary64.zero), .send .introducerRollCall,
        .did (.copy "hi") false, .did (.copy "hi") true, .send (.dataCopied "client"),
        .send (.authValid "client")] ∧
      (said diary).filter (!·.isElectoral) =
        diary.filterMap (fun st => confirmation? st.before st.move)) ∧
    (∃ (record : Post.Record) (p : Post) (diary : Diary),
      Post.Runs (.start ⟨"a", ⟨none, none⟩⟩ 4 0 .empty 0 .zero) record p ∧
      diary.map (·.move) = .startup :: record.filterMap Post.occurrence? ∧
      said diary = [.introducerPresent .zero, .introducerRollCall]) ∧
    (∃ p p' : Post, p.connection.inbound = [fromClient (.copyData "hi")] ∧
      p.step (0, .handle fun _ => false) = some (p', [.took (fromClient (.copyData "hi"))])) ∧
    ∃ (w w' : World) (x x' : Introducing), w.introducers = [x] ∧ x.fails = (fun _ => true) ∧
      w.moveIntroducer 0 = some w' ∧ w'.introducers[0]? = some x' ∧ x'.ended = none := by
  have hstart : live .empty (.start Binary64.zero) .startup
      = some (⟨true, Binary64.zero⟩, [.send (.introducerPresent Binary64.zero),
        .send .introducerRollCall]) := rfl
  have hfailed : live .empty ⟨true, Binary64.zero⟩
      (.received (fromClient (.copyData "hi")) fun _ => false)
      = some (⟨true, Binary64.zero⟩, [.did (.copy "hi") false]) := by decide +kernel
  have hcopied : live .empty ⟨true, Binary64.zero⟩
      (.received (fromClient (.copyData "hi")) fun _ => true)
      = some (⟨true, Binary64.zero⟩, [.did (.copy "hi") true, .send (.dataCopied "client")]) := by
    decide +kernel
  have htested : live .empty ⟨true, Binary64.zero⟩ (.received (fromClient .testAuth) fun _ => false)
      = some (⟨true, Binary64.zero⟩, [.send (.authValid "client")]) := by decide +kernel
  have hlives := (((Run.start.move hstart).move hfailed).move hcopied).move htested
  let codec : Codec := ⟨"a", ⟨none, none⟩⟩
  let c : Connection := .start codec 4 0 .empty 0
  have hruns : Post.Runs (.start codec 4 0 .empty 0 .zero) _ _ :=
    (Run.start.move (m := (0, .send)) rfl).move (m := (0, .send)) rfl
  let x : Introducing :=
    ⟨0, .start .zero, [.authValid "client"], 1000, 0, fun _ => true, [], none, false, none⟩
  let w : World := { World.start 0 with peers := [⟨c, .unanswered, 0, false⟩], introducers := [x] }
  obtain ⟨hconfirmed, hposted, htakes, hgoes⟩ := confirmed_when_fulfilled
  obtain ⟨diary, -, hfaced, hsaid⟩ := hposted codec 4 0 .empty 0 .zero _ _ hruns
  obtain ⟨p', htaken, -⟩ := htakes
    ⟨{ c with inbound := [fromClient (.copyData "hi")] }, .start .zero, []⟩ 0 (fun _ => false) _ []
    rfl rfl
  obtain ⟨x', hx', hended⟩ := hgoes w _ 0 x rfl rfl rfl (by rintro p ⟨⟩; rfl)
  exact ⟨⟨_, _, hlives, rfl, (hconfirmed _ _ _ _ hlives).1⟩, ⟨_, _, diary, hruns, hfaced, hsaid⟩,
    ⟨_, p', rfl, htaken⟩, w, _, x, x', rfl, rfl, rfl, hx', hended⟩

end Introducer

end MessageBus
