import MessageBus.Proofs.Handshake.Scene

/-! # What a handshake finds out

    The client asks with all of its keys.  The introducer reads the question if
    it holds one of them, and only then is there anything to confirm.  Its
    answer goes out with all of its own keys, so the client can read it just as
    well, and what the client reads otherwise are broadcasts of the election,
    which confirm nothing.  Until the wait is over the question, or the answer,
    is somewhere on the way if there is a key in common.

    The invariant says where the client is in its program, and what is known
    then.

    * `heard_by_introducer`, `heard_by_client`: what can be heard.
    * `sound_moves`: every move keeps the invariant. -/

namespace MessageBus.Handshake

/-! ## What either of the two makes of an envelope -/

/-- In office an introducer confirms to whoever asks. -/
theorem receive_question {keys : KeySet} {succeeds : Deed → Bool} {election : Election}
    {e : Envelope} {id : String} (hactive : election.isActive = true)
    (hsender : e.sender? = some id) (hbus : e.isReconnected = false)
    (hmessage : e.message = .ok .testAuth) :
    Introducer.receive keys succeeds election e = (election, [.send (.authValid id)]) := by
  simp [Introducer.receive, hbus, hmessage, hactive, hsender, Introducer.serve]

/-- In office an introducer does not mind the silence. -/
theorem observe_silence {election : Election} (hactive : election.isActive = true) :
    Introducer.observe election .silence = (election, []) := by
  obtain ⟨isActive, level⟩ := election
  cases hactive
  rfl

/-- The wait goes on until the confirmation is heard. -/
theorem afterEnvelope_awaitConfirmation (id : String) (limit : Nat) (e : Envelope) :
    (awaitConfirmation id limit).afterEnvelope e = .done (.ok ()) ∨
      (awaitConfirmation id limit).afterEnvelope e = awaitConfirmation id limit ∧
        e.message ≠ .ok (.authValid id) := by
  unfold awaitConfirmation Program.afterEnvelope
  simp only [firstMatch]
  cases hmessage : e.message with
  | error err => exact .inr ⟨rfl, by rintro ⟨⟩⟩
  | ok m =>
    by_cases hconfirms : confirms id m = true
    · left
      simp only [hconfirms, if_true]
    · right
      simp only [hconfirms]
      refine ⟨rfl, ?_⟩
      rintro ⟨⟩
      simp [confirms] at hconfirms

/-! ## The conversation -/

/-- What either of the two says: the client asks, the introducer answers if they
    have a key in common, and talks of its election. -/
inductive Says (id : String) (shared : Prop) : Role → Message → Prop where
  | question : Says id shared .client .testAuth
  | confirmation : shared → Says id shared .introducer (.authValid id)
  | election {m : Message} : m.IsElectionTalk → Says id shared .introducer m

/-- Two parties that differ in their ids, with keys that work. -/
structure Parties where
  codec : Role → Codec
  keys : Role → KeySet
  distinct : (codec .client).id ≠ (codec .introducer).id
  keyed : ∀ i, (keys i).keys ≠ []
  usable : ∀ i, ∀ key ∈ (keys i).keys, Codec.isUsable key = true

namespace Parties

/-- Some key is held by both. -/
def Agree (p : Parties) : Prop :=
  ∃ key ∈ (p.keys .client).keys, key ∈ (p.keys .introducer).keys

/-- The id of the client, for which a confirmation is. -/
def clientId (p : Parties) : String := (p.codec .client).id

/-- What the two say, with which keys. -/
def conversation (p : Parties) : Conversation Role where
  codec := p.codec
  keys := p.keys
  known := (p.keys .client).keys ++ (p.keys .introducer).keys
  Says := Says p.clientId p.Agree
  distinct := by
    intro i j hij
    cases i <;> cases j
    · rfl
    · exact absurd hij p.distinct
    · exact absurd hij.symm p.distinct
    · rfl
  keyed := p.keyed
  usable := p.usable
  covers := by
    intro i
    cases i
    · exact List.subset_append_left ..
    · exact List.subset_append_right ..
  talk := by
    rintro i m (_ | _ | helection)
    · exact .inl rfl
    · exact .inr (.inl ⟨_, rfl⟩)
    · exact .inr (.inr helection)

variable {p : Parties} {e : Envelope} {i : Role} {m : Message}

/-- The introducer hears nothing but the question, and only with a key in common. -/
theorem heard_by_introducer (h : p.conversation.IsHeard i .introducer m e) :
    p.Agree ∧ e.sender? = some p.clientId ∧ e.isReconnected = false ∧
      e.message = .ok .testAuth := by
  cases i with
  | introducer => exact absurd rfl h.other
  | client =>
    cases h.said with
    | question => exact ⟨h.shared, h.sender, h.fromBus, h.message (.inl rfl)⟩

/-- The client hears nothing at all without a key in common. -/
theorem heard_by_client (h : p.conversation.IsHeard i .client m e) : p.Agree := by
  cases i with
  | client => exact absurd rfl h.other
  | introducer =>
    obtain ⟨key, hintroducer, hclient⟩ := h.shared
    exact ⟨key, hclient, hintroducer⟩

/-! ## The invariant -/

/-- The question of the client, or the answer to it, is somewhere on the way. -/
def IsUnderWay (p : Parties) (s : Scene) : Prop :=
  Bus.OnWay p.conversation .client .introducer .testAuth s.bus ∨
  .authValid p.clientId ∈ s.pending ∨
  Bus.OnWay p.conversation .introducer .client (.authValid p.clientId) s.bus

/-- How the handshake has to end. -/
def IsVerdict (p : Parties) (r : BusResult Unit) : Prop :=
  (p.Agree ∧ r = .ok ()) ∨ (¬ p.Agree ∧ r = .error .authTimeout)

/-- Where the client is in its program, and what is known then. -/
inductive AtStage (p : Parties) (limit : Nat) (s : Scene) : Prop where
  | unkeyed :
      s.program = .setKeys (p.keys .client) (askConfirmation p.clientId limit) → AtStage p limit s
  | asking :
      s.program = askConfirmation p.clientId limit →
      (s.bus .client).IsReady p.conversation .client → AtStage p limit s
  | awaiting :
      s.program = awaitConfirmation p.clientId limit →
      (s.bus .client).IsReady p.conversation .client →
      (p.Agree → p.IsUnderWay s) → AtStage p limit s
  | done {r : BusResult Unit} :
      s.program = .done r → (s.bus .client).IsReady p.conversation .client →
      p.IsVerdict r → AtStage p limit s

/-- What holds of the scene at all times. -/
structure Sound (p : Parties) (limit : Nat) (election : Election) (s : Scene) : Prop where
  follows : Bus.Follows p.conversation s.bus
  ready : (s.bus .introducer).IsReady p.conversation .introducer
  election : s.election = election
  pending : ∀ m ∈ s.pending, Says p.clientId p.Agree .introducer m
  stage : AtStage p limit s

/-! ## Moves -/

variable {s : Scene} {bus : Bus Role} {who : Role} {act : Bus.Act}
  {events : List (Bus.Event Role)} {limit : Nat} {election : Election}

/-- What is under way stays so when somebody does something on the bus, unless the
    introducer takes the question or the client the answer. -/
theorem underWay_moves (hfollows : Bus.Follows p.conversation s.bus)
    (hready : ∀ i, (s.bus i).IsReady p.conversation i) (hagree : p.Agree)
    (hm : Bus.Moves s.bus who act bus events)
    (hposted : ∀ m, .posted m ∈ events → m.IsUnmistakable p.conversation.known)
    (h : p.IsUnderWay s) :
    p.IsUnderWay { s with bus := bus } ∨
      act = .take ∧ (who = .introducer ∨ who = .client ∧
        ∃ e rest, (s.bus .client).connection.inbound = e :: rest ∧
          e.message = .ok (.authValid p.clientId)) := by
  obtain ⟨key, hclient, hintroducer⟩ := id hagree
  rcases h with hquestion | hpending | hanswer
  · rcases Bus.onWay_moves hfollows hm (by decide) (.inl rfl) ⟨key, hclient, hintroducer⟩ hposted
      (hready .introducer).1 (hready .introducer).2 hquestion with honWay | ⟨hwho, hact, -⟩
    · exact .inl (.inl honWay)
    · exact .inr ⟨hact, .inl hwho⟩
  · exact .inl (.inr (.inl hpending))
  · rcases Bus.onWay_moves hfollows hm (by decide) (.inr ⟨_, rfl⟩) ⟨key, hintroducer, hclient⟩
      hposted (hready .client).1 (hready .client).2 hanswer with honWay | ⟨hwho, hact, htaken⟩
    · exact .inl (.inr (.inr honWay))
    · exact .inr ⟨hact, .inr ⟨hwho, htaken⟩⟩

/-- What is under way stays so when nobody takes anything. -/
theorem underWay_moves_of_ne_take (hfollows : Bus.Follows p.conversation s.bus)
    (hready : ∀ i, (s.bus i).IsReady p.conversation i) (hagree : p.Agree)
    (hm : Bus.Moves s.bus who act bus events)
    (hposted : ∀ m, .posted m ∈ events → m.IsUnmistakable p.conversation.known)
    (hact : act ≠ .take) (h : p.IsUnderWay s) : p.IsUnderWay { s with bus := bus } :=
  (underWay_moves hfollows hready hagree hm hposted h).resolve_right fun htaken => hact htaken.1

/-- When all is quiet, nothing is under way. -/
theorem not_underWay_of_isQuiet (h : s.isQuiet = true) : ¬ p.IsUnderWay s := by
  simp only [Scene.isQuiet, Bool.and_eq_true, List.isEmpty_iff] at h
  obtain ⟨⟨hclient, hintroducer⟩, hpending⟩ := h
  rintro ((hwrite | htake) | hmem | (hwrite | htake))
  · exact Station.not_hasToWrite_of_isIdle hclient hwrite
  · exact Station.not_hasToTake_of_isIdle hintroducer htake
  · rw [hpending] at hmem
    cases hmem
  · exact Station.not_hasToWrite_of_isIdle hintroducer hwrite
  · exact Station.not_hasToTake_of_isIdle hclient htake

/-- The client stays where it is in its program. -/
theorem AtStage.same (h : AtStage p limit s) {s' : Scene} (hprogram : s'.program = s.program)
    (hready : (s.bus .client).IsReady p.conversation .client →
      (s'.bus .client).IsReady p.conversation .client)
    (hunderWay : (s.bus .client).IsReady p.conversation .client → p.Agree →
      p.IsUnderWay s → p.IsUnderWay s') : AtStage p limit s' := by
  cases h with
  | unkeyed hunkeyed => exact .unkeyed (hprogram.trans hunkeyed)
  | asking hasking hkeys => exact .asking (hprogram.trans hasking) (hready hkeys)
  | awaiting hawaiting hkeys hunder =>
    exact .awaiting (hprogram.trans hawaiting) (hready hkeys)
      fun hagree => hunderWay hkeys hagree (hunder hagree)
  | done hdone hkeys hverdict => exact .done (hprogram.trans hdone) (hready hkeys) hverdict

theorem AtStage.of_setKeys (h : AtStage p limit s) {keys : KeySet}
    {next : Program (BusResult Unit)} (hprogram : s.program = .setKeys keys next) :
    keys = p.keys .client ∧ next = askConfirmation p.clientId limit := by
  cases h with
  | unkeyed hunkeyed => exact Program.setKeys.inj (hprogram.symm.trans hunkeyed)
  | asking hasking => cases hprogram.symm.trans hasking
  | awaiting hawaiting => cases hprogram.symm.trans hawaiting
  | done hdone => cases hprogram.symm.trans hdone

theorem AtStage.of_queue (h : AtStage p limit s) {contents : Fields}
    {next : BusResult Unit → Program (BusResult Unit)}
    (hprogram : s.program = .queue contents next) :
    contents = Message.testAuth.toFields ∧ next (.ok ()) = awaitConfirmation p.clientId limit ∧
      (s.bus .client).IsReady p.conversation .client := by
  cases h with
  | unkeyed hunkeyed => cases hprogram.symm.trans hunkeyed
  | asking hasking hready =>
    obtain ⟨hcontents, hnext⟩ := Program.queue.inj (hprogram.symm.trans hasking)
    exact ⟨hcontents, congrFun hnext _, hready⟩
  | awaiting hawaiting => cases hprogram.symm.trans hawaiting
  | done hdone => cases hprogram.symm.trans hdone

theorem AtStage.of_await (h : AtStage p limit s) {limit? : Option Nat} {accepts : Message → Bool}
    {next : Awaited → Program (BusResult Unit)}
    (hprogram : s.program = .await limit? accepts next) :
    s.program = awaitConfirmation p.clientId limit ∧ next .timedOut = .done (.error .authTimeout) ∧
      (s.bus .client).IsReady p.conversation .client ∧ (p.Agree → p.IsUnderWay s) := by
  cases h with
  | unkeyed hunkeyed => cases hprogram.symm.trans hunkeyed
  | asking hasking => cases hprogram.symm.trans hasking
  | awaiting hawaiting hready hunderWay =>
    have hnext := (Program.await.inj (hprogram.symm.trans hawaiting)).2.2
    exact ⟨hawaiting, congrFun hnext _, hready, hunderWay⟩
  | done hdone => cases hprogram.symm.trans hdone

theorem AtStage.of_done (h : AtStage p limit s) {r : BusResult Unit}
    (hprogram : s.program = .done r) :
    (s.bus .client).IsReady p.conversation .client ∧ p.IsVerdict r := by
  cases h with
  | unkeyed hunkeyed => cases hprogram.symm.trans hunkeyed
  | asking hasking => cases hprogram.symm.trans hasking
  | awaiting hawaiting => cases hprogram.symm.trans hawaiting
  | done hdone hready hverdict =>
    cases hprogram.symm.trans hdone
    exact ⟨hready, hverdict⟩

/-- What holds of the bus still holds after a move of a connection. -/
theorem Sound.after (h : Sound p limit election s) (hm : Bus.Moves s.bus who act bus events)
    (hallowed : act.IsAllowed p.conversation who (s.bus who))
    (hposted : ∀ m, .posted m ∈ events → m.IsUnmistakable p.conversation.known) {s' : Scene}
    (hbus : s'.bus = bus) (helection : s'.election = s.election)
    (hpending : ∀ m ∈ s'.pending, Says p.clientId p.Agree .introducer m)
    (hstage : AtStage p limit s') : Sound p limit election s' where
  follows := by
    rw [hbus]
    exact Bus.follows_moves h.follows hm hallowed hposted
  ready := by
    rw [hbus]
    exact Bus.ready_moves h.ready hm hallowed
  election := helection.trans h.election
  pending := hpending
  stage := hstage

theorem Sound.both_ready (h : Sound p limit election s)
    (hclient : (s.bus .client).IsReady p.conversation .client) (i : Role) :
    (s.bus i).IsReady p.conversation i := by
  cases i
  · exact hclient
  · exact h.ready

/-- A scene in which the client is about to use its keys. -/
theorem sound_start {capacity : Role → Nat} (hcapacity : ∀ i, 0 < capacity i)
    {pending : List Message} (htalk : ∀ m ∈ pending, m.IsElectionTalk) :
    Sound p limit election (Scene.start p.codec capacity (p.keys .introducer)
      (.setKeys (p.keys .client) (askConfirmation p.clientId limit)) election pending) where
  follows := by
    rintro (_ | _)
    · exact ⟨rfl, rfl, hcapacity _, .inr ⟨rfl, rfl⟩, nofun, nofun, nofun, nofun, nofun⟩
    · exact ⟨rfl, rfl, hcapacity _, .inl rfl, nofun, nofun, nofun, nofun, nofun⟩
  ready := ⟨rfl, rfl⟩
  election := rfl
  pending := fun m hm => .election (htalk m hm)
  stage := .unkeyed rfl

/-- Every move keeps the invariant. -/
theorem sound_moves (hactive : election.isActive = true) {s' : Scene} {move : Move}
    (h : Sound p limit election s) (hm : s.Moves move s' events)
    (hposted : ∀ m, .posted m ∈ events → m.IsUnmistakable p.conversation.known) :
    Sound p limit election s' := by
  cases hm with
  | @rekeyed keys next bus _ hprogram hmoves =>
    obtain ⟨rfl, rfl⟩ := h.stage.of_setKeys hprogram
    exact h.after hmoves rfl hposted rfl rfl h.pending (.asking rfl (Bus.ready_of_setKeys hmoves))
  | @queued contents next bus _ hprogram hmoves =>
    obtain ⟨rfl, hnext, hready⟩ := h.stage.of_queue hprogram
    have hallowed : Bus.Act.IsAllowed p.conversation .client (s.bus .client)
        (.queue ⟨Message.testAuth.toFields, none⟩) := ⟨hready.2, _, .question, rfl⟩
    refine h.after hmoves hallowed hposted rfl rfl h.pending ?_
    rw [hnext]
    exact .awaiting rfl (Bus.ready_moves hready hmoves hallowed)
      fun _ => .inl (.inl (Bus.hasToWrite_of_queue hmoves rfl))
  | @heard _ accepts next e rest bus _ hprogram hin hmoves =>
    obtain ⟨hawaiting, -, hready, hunderWay⟩ := h.stage.of_await hprogram
    obtain ⟨i, m, hheard⟩ := (h.follows .client).inbound e (hin ▸ List.mem_cons_self ..)
    have hkeys := Bus.ready_moves hready hmoves trivial
    refine h.after hmoves trivial hposted rfl rfl h.pending ?_
    rw [hawaiting]
    rcases afterEnvelope_awaitConfirmation p.clientId limit e with hdone | ⟨hsame, hother⟩
    · rw [hdone]
      exact .done rfl hkeys (.inl ⟨heard_by_client hheard, rfl⟩)
    · rw [hsame]
      refine .awaiting rfl hkeys fun hagree => ?_
      rcases underWay_moves h.follows (h.both_ready hready) hagree hmoves hposted
        (hunderWay hagree) with hunder | ⟨-, hwho | ⟨-, e', rest', hin', hmessage⟩⟩
      · exact hunder
      · cases hwho
      · cases hin.symm.trans hin'
        exact absurd hmessage hother
  | @expired _ accepts next hprogram hquiet =>
    obtain ⟨-, htimedOut, hready, hunderWay⟩ := h.stage.of_await hprogram
    have hdiffer : ¬ p.Agree := fun hagree => not_underWay_of_isQuiet hquiet (hunderWay hagree)
    rw [htimedOut]
    exact { h with stage := .done rfl hready (.inr ⟨hdiffer, rfl⟩) }
  | @handled succeeds e rest bus _ hpending hin hmoves =>
    obtain ⟨i, m, hheard⟩ := (h.follows .introducer).inbound e (hin ▸ List.mem_cons_self ..)
    obtain ⟨hagree, hsender, hbus, hmessage⟩ := heard_by_introducer hheard
    rw [h.election, receive_question hactive hsender hbus hmessage]
    refine h.after hmoves trivial hposted rfl h.election.symm ?_ ?_
    · intro m hm
      rw [List.mem_singleton.mp hm]
      exact .confirmation hagree
    · refine h.stage.same rfl (fun hready => Bus.ready_moves hready hmoves trivial) ?_
      exact fun _ _ _ => .inr (.inl (List.mem_singleton.mpr rfl))
  | @sent m rest bus _ hpending hmoves =>
    have hsays := h.pending m (hpending ▸ List.mem_cons_self ..)
    have hallowed : Bus.Act.IsAllowed p.conversation .introducer (s.bus .introducer)
        (.queue ⟨m.toFields, none⟩) := ⟨h.ready.2, m, hsays, rfl⟩
    refine h.after hmoves hallowed hposted rfl rfl ?_ ?_
    · exact fun m' hm' => h.pending m' (hpending ▸ List.mem_cons_of_mem _ hm')
    · refine h.stage.same rfl (fun hready => Bus.ready_moves hready hmoves hallowed) ?_
      intro hready hagree hunderWay
      rcases underWay_moves_of_ne_take h.follows (h.both_ready hready) hagree hmoves hposted nofun
        hunderWay with hquestion | hmem | hanswer
      · exact .inl hquestion
      · rcases List.mem_cons.mp (hpending ▸ hmem) with rfl | hmem
        · exact .inr (.inr (.inl (Bus.hasToWrite_of_queue hmoves rfl)))
        · exact .inr (.inl hmem)
      · exact .inr (.inr hanswer)
  | idled hpending hin =>
    rw [h.election, observe_silence hactive]
    refine { h with election := rfl, pending := fun m hm => (by cases hm), stage := ?_ }
    refine h.stage.same rfl id fun _ _ => ?_
    rintro (hquestion | hmem | hanswer)
    · exact .inl hquestion
    · rw [hpending] at hmem
      cases hmem
    · exact .inr (.inr hanswer)
  | @worked who act bus _ hown hmoves =>
    have hallowed : act.IsAllowed p.conversation who (s.bus who) := by
      cases act <;> trivial
    refine h.after hmoves hallowed hposted rfl rfl h.pending ?_
    have htake : act ≠ .take := by
      rintro rfl
      cases hown
    exact h.stage.same rfl (fun hready => Bus.ready_moves hready hmoves hallowed)
      fun hready hagree => underWay_moves_of_ne_take h.follows (h.both_ready hready) hagree hmoves
        hposted htake

end Parties

end MessageBus.Handshake
