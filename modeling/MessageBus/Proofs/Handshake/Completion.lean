import MessageBus.Proofs.Handshake.Soundness

/-! # How a handshake ends

    Every move but the silence of the introducer uses up some of the work that
    is left: the question becomes a body for each key of the client, each of
    these an envelope at the introducer perhaps, each of these an answer, and
    the answer a body for each key of the introducer.  As long as the program of
    the client is not done, there is such a move.  So the handshake ends,
    whatever the order of the moves, and the invariant says how.

    * `load_moves`: a move uses up some of the work.
    * `exists_moves`: there is something to do until the program is done.
    * `establishes_iff_common_key`: the handshake ends, and how. -/

namespace MessageBus.Handshake

/-- Whether the introducer notices the silence, which may happen at any time. -/
def Move.isSilence : Move → Bool
  | .silence => true
  | _ => false

namespace Parties

/-! ## The work that is left -/

/-- What an envelope costs that somebody takes: the client only looks at it, the
    introducer may answer it with all of its keys. -/
def envelopeCost (p : Parties) : Role → Nat
  | .client => 1
  | .introducer => 4 + 5 * (p.keys .introducer).size

/-- What a message costs once it is queued. -/
def messageCost (p : Parties) (i : Role) : Nat := p.conversation.messageCost p.envelopeCost i

/-- The moves that the program of the client still makes, and what follows from them. -/
def programCost (p : Parties) : Program (BusResult Unit) → Nat
  | .setKeys .. => 3 + p.messageCost .client
  | .queue .. => 2 + p.messageCost .client
  | .await .. => 1
  | _ => 0

/-- The moves that are left. -/
def load (p : Parties) (s : Scene) : Nat :=
  p.conversation.load p.envelopeCost s.bus +
  s.pending.length * (1 + p.messageCost .introducer) +
  p.programCost s.program

variable {p : Parties} {s s' : Scene} {move : Move} {events : List (Bus.Event Role)}
  {limit : Nat} {election : Election}

theorem sum_roles (f : Role → Nat) : ∑ i, f i = f .client + f .introducer :=
  Finset.sum_pair (by decide)

theorem bodyCost_introducer (p : Parties) :
    Conversation.bodyCost p.envelopeCost .introducer = 5 := by
  rw [Conversation.bodyCost, sum_roles, Conversation.parcelCost, if_neg (by decide),
    Conversation.parcelCost, if_pos rfl, envelopeCost]

theorem bodyCost_client (p : Parties) :
    Conversation.bodyCost p.envelopeCost .client = 8 + 5 * (p.keys .introducer).size := by
  rw [Conversation.bodyCost, sum_roles, Conversation.parcelCost, if_pos rfl,
    Conversation.parcelCost, if_neg (by decide), envelopeCost]
  omega

theorem messageCost_introducer (p : Parties) :
    p.messageCost .introducer = 2 + 5 * (p.keys .introducer).size := by
  rw [messageCost, Conversation.messageCost, bodyCost_introducer, Nat.mul_comm]
  rfl

theorem messageCost_client (p : Parties) :
    p.messageCost .client
      = 2 + (p.keys .client).size * (8 + 5 * (p.keys .introducer).size) := by
  rw [messageCost, Conversation.messageCost, bodyCost_client]
  rfl

/-- Every move but the silence uses up some of the work. -/
theorem load_moves (hactive : election.isActive = true) (h : Sound p limit election s)
    (hm : s.Moves move s' events)
    (hposted : ∀ m, .posted m ∈ events → m.IsUnmistakable p.conversation.known) :
    p.load s' + (bif move.isSilence then 0 else 1) ≤ p.load s := by
  have hbus : ∀ {who act bus}, Bus.Moves s.bus who act bus events →
      p.conversation.load p.envelopeCost bus + act.relief p.envelopeCost who
        ≤ p.conversation.load p.envelopeCost s.bus + act.demand p.conversation p.envelopeCost who :=
    fun hmoves => Bus.load_moves h.follows hmoves hposted
  cases hm with
  | @rekeyed keys next bus _ hprogram hmoves =>
    obtain ⟨rfl, rfl⟩ := h.stage.of_setKeys hprogram
    have hless := hbus hmoves
    simp only [load, hprogram, askConfirmation, programCost, Move.isSilence, cond_false,
      Bus.Act.relief, Bus.Act.demand] at hless ⊢
    omega
  | @queued contents next bus _ hprogram hmoves =>
    obtain ⟨-, hnext, -⟩ := h.stage.of_queue hprogram
    have hless := hbus hmoves
    simp only [load, hprogram, hnext, awaitConfirmation, programCost, messageCost, Move.isSilence,
      cond_false, Bus.Act.relief, Bus.Act.demand] at hless ⊢
    omega
  | @heard _ accepts next e rest bus _ hprogram hin hmoves =>
    obtain ⟨hawaiting, -⟩ := h.stage.of_await hprogram
    have hless := hbus hmoves
    have hprogramCost : p.programCost (s.program.afterEnvelope e) ≤ p.programCost s.program := by
      rw [hawaiting]
      rcases afterEnvelope_awaitConfirmation p.clientId limit e with hdone | ⟨hsame, -⟩
      · rw [hdone]
        exact Nat.zero_le _
      · rw [hsame]
    simp only [load, envelopeCost, Move.isSilence, cond_false, Bus.Act.relief,
      Bus.Act.demand] at hless ⊢
    omega
  | @expired _ accepts next hprogram hquiet =>
    obtain ⟨-, htimedOut, -⟩ := h.stage.of_await hprogram
    simp only [load, hprogram, htimedOut, programCost, Move.isSilence, cond_false]
    omega
  | @handled succeeds e rest bus _ hpending hin hmoves =>
    obtain ⟨i, m, hheard⟩ := (h.follows .introducer).inbound e (hin ▸ List.mem_cons_self ..)
    obtain ⟨-, hsender, hfromBus, hmessage⟩ := heard_by_introducer hheard
    have hless := hbus hmoves
    rw [h.election, receive_question hactive hsender hfromBus hmessage]
    simp only [load, Scene.react, hpending, messageCost_introducer, Move.isSilence, cond_false,
      envelopeCost, Bus.Act.relief, Bus.Act.demand, List.filterMap_cons, List.filterMap_nil,
      Introducer.Effect.message?, List.length_singleton, List.length_nil] at hless ⊢
    omega
  | @sent m rest bus _ hpending hmoves =>
    have hless := hbus hmoves
    simp only [load, hpending, List.length_cons, Nat.add_mul, messageCost, Move.isSilence,
      cond_false, Bus.Act.relief, Bus.Act.demand] at hless ⊢
    omega
  | idled hpending hin =>
    rw [h.election, observe_silence hactive]
    simp only [load, Scene.react, hpending, Move.isSilence, cond_true, List.filterMap_nil]
    omega
  | @worked who act bus _ hown hmoves =>
    have hless := hbus hmoves
    have hone : act.relief p.envelopeCost who = 1 ∧
        act.demand p.conversation p.envelopeCost who = 0 := by
      cases act <;> first | exact ⟨rfl, rfl⟩ | cases hown
    simp only [load, hone.1, hone.2, Move.isSilence, cond_false] at hless ⊢
    omega

/-! ## Something to do -/

/-- As long as the program is not done, something else than silence may happen. -/
theorem exists_moves (h : Sound p limit election s) :
    (∃ r, s.program = .done r) ∨
      ∃ move s' events, move.isSilence = false ∧ s.Moves move s' events := by
  have hwork : ∀ {who}, Bus.CanMove s.bus who →
      ∃ move s' events, move.isSilence = false ∧ s.Moves move s' events := by
    rintro who ⟨act, bus, events, hown, hmoves⟩
    exact ⟨.work who act, _, events, rfl, .worked hown hmoves⟩
  have hsend : s.pending ≠ [] →
      ∃ move s' events, move.isSilence = false ∧ s.Moves move s' events := by
    intro hpending
    obtain ⟨m, rest, hpending⟩ := List.exists_cons_of_ne_nil hpending
    rcases Bus.exists_queue_or_canMove (h.follows .introducer) h.ready.1 ⟨m.toFields, none⟩
      with ⟨bus, events, hmoves⟩ | hcan
    · exact ⟨.send, _, events, rfl, .sent hpending hmoves⟩
    · exact hwork hcan
  cases h.stage with
  | done hdone => exact .inl ⟨_, hdone⟩
  | unkeyed hunkeyed =>
    right
    cases hattached : (s.bus .client).isAttached with
    | true => exact ⟨.proceed, _, _, rfl, .rekeyed hunkeyed (.rekeyed hattached)⟩
    | false => exact ⟨.work .client .attach, _, _, rfl, .worked rfl (.attached hattached)⟩
  | asking hasking hready =>
    right
    rcases Bus.exists_queue_or_canMove (h.follows .client) hready.1
      ⟨Message.testAuth.toFields, none⟩ with ⟨bus, events, hmoves⟩ | hcan
    · exact ⟨.proceed, _, events, rfl, .queued hasking hmoves⟩
    · exact hwork hcan
  | awaiting hawaiting hready =>
    right
    cases hquiet : s.isQuiet with
    | true => exact ⟨.expire, _, _, rfl, .expired hawaiting hquiet⟩
    | false =>
      by_cases hpending : s.pending = []
      swap
      · exact hsend hpending
      cases hclient : (s.bus .client).isIdle with
      | false =>
        rcases Bus.canMove_or_inbound (h.follows .client) hready.1 hclient with hcan | hin
        · exact hwork hcan
        · obtain ⟨e, rest, hin⟩ := List.exists_cons_of_ne_nil hin
          exact ⟨.proceed, _, _, rfl, .heard hawaiting hin (.took hready.1 hin)⟩
      | true =>
        have hintroducer : (s.bus .introducer).isIdle = false := by
          simpa [Scene.isQuiet, hclient, hpending] using hquiet
        rcases Bus.canMove_or_inbound (h.follows .introducer) h.ready.1 hintroducer with hcan | hin
        · exact hwork hcan
        · obtain ⟨e, rest, hin⟩ := List.exists_cons_of_ne_nil hin
          exact ⟨.handle fun _ => true, _, _, rfl, .handled hpending hin (.took h.ready.1 hin)⟩

/-! ## Runs -/

/-- Along a run the invariant holds, and the moves use up the work that there was. -/
theorem sound_of_runs (hactive : election.isActive = true) {s₀ : Scene} {trace : Scene.Trace}
    (h : Scene.Runs s₀ trace s) (hstart : Sound p limit election s₀)
    (hposted : ∀ m, .posted m ∈ eventsOf trace → m.IsUnmistakable p.conversation.known) :
    Sound p limit election s ∧
      p.load s + trace.countP (fun st => !st.move.isSilence) ≤ p.load s₀ := by
  induction h with
  | start => exact ⟨hstart, Nat.le_refl _⟩
  | @move trace s₁ s₂ move events hrun hstep ih =>
    simp only [eventsOf_snoc, List.mem_append] at hposted
    obtain ⟨hsound, hload⟩ := ih fun m hm => hposted m (.inl hm)
    have hmoves := Scene.moves_of_step hstep
    refine ⟨sound_moves hactive hsound hmoves fun m hm => hposted m (.inr hm), ?_⟩
    have hless := load_moves hactive hsound hmoves fun m hm => hposted m (.inr hm)
    rw [List.countP_append, List.countP_singleton]
    cases hsilence : move.isSilence with
    | true =>
      simp only [hsilence, cond_true, Bool.not_true, Bool.false_eq_true, if_false] at hless ⊢
      omega
    | false =>
      simp only [hsilence, cond_false, Bool.not_false, if_true] at hless ⊢
      omega

/-- The work of a handshake that is about to start. -/
theorem load_start {capacity : Role → Nat} {pending : List Message} :
    p.load (Scene.start p.codec capacity (p.keys .introducer)
      (.setKeys (p.keys .client) (askConfirmation p.clientId limit)) election pending)
      = 6 + (p.keys .client).size * (8 + 5 * (p.keys .introducer).size)
        + pending.length * (3 + 5 * (p.keys .introducer).size) := by
  have hbus : p.conversation.load p.envelopeCost (Scene.start p.codec capacity (p.keys .introducer)
      (.setKeys (p.keys .client) (askConfirmation p.clientId limit)) election pending).bus = 1 := by
    simp [Conversation.load, sum_roles, Conversation.stationLoad, Scene.start, Station.fresh,
      Station.attach, Connection.start, Conversation.flightCost, Conversation.handingCost]
  have hanswer : 1 + p.messageCost .introducer = 3 + 5 * (p.keys .introducer).size := by
    rw [messageCost_introducer]
    omega
  simp only [load, hbus, hanswer, programCost, messageCost_client]
  simp only [Scene.start]
  omega

end Parties

/-! ## Main theorem -/

/-- A client with a configured key and an introducer that is in office, with keys of its own, find
    out whether they have a key in common, as long as no body opens to an object with a key that
    it was not sealed with.  However many moves are made, only so many are other than silence, and
    until the client is done there is another one.  Then the client knows the outcome and holds its
    keys; at no time the introducer has changed. -/
theorem establishes_iff_common_key (settings : Settings) (codec : Role → Codec)
    (keys : Role → KeySet) {text : String} {capacity : Role → Nat} {answers : List KeyAnswer}
    {election : Election} {pending : List Message} {trace : Scene.Trace} {s : Scene}
    (hkey : settings.key = some text) (hparse : KeySet.parse text = .ok (keys .client))
    (htrust : settings.trustKey = false) (hid : (codec .client).id ≠ (codec .introducer).id)
    (hcapacity : ∀ i, 0 < capacity i) (hsome : (keys .introducer).keys ≠ [])
    (husable : ∀ key ∈ (keys .introducer).keys, Codec.isUsable key = true)
    (hactive : election.isActive = true) (htalk : ∀ m ∈ pending, m.IsElectionTalk)
    (hrun : Scene.Runs (Scene.start codec capacity (keys .introducer)
      (establishKeys settings (codec .client).id .client answers).run election pending) trace s)
    (hposted : ∀ m, .posted m ∈ eventsOf trace →
      m.IsUnmistakable ((keys .client).keys ++ (keys .introducer).keys)) :
    (∀ r, s.program = .done r →
      (s.bus .client).connection.keys = keys .client ∧
      r = if ∃ key ∈ (keys .client).keys, key ∈ (keys .introducer).keys then .ok ()
        else .error .authTimeout) ∧
    (s.bus .introducer).connection.keys = keys .introducer ∧ s.election = election ∧
    trace.countP (fun st => !st.move.isSilence)
      ≤ 6 + (keys .client).size * (8 + 5 * (keys .introducer).size)
        + pending.length * (3 + 5 * (keys .introducer).size) ∧
    ((∃ r, s.program = .done r) ∨
      ∃ move s' events, move.isSilence = false ∧ s.step move = some (s', events)) := by
  obtain ⟨hclient, hclientUsable⟩ := KeySet.usable_of_parse hparse
  let p : Parties :=
    { codec := codec
      keys := keys
      distinct := hid
      keyed := fun | .client => hclient | .introducer => hsome
      usable := fun | .client => hclientUsable | .introducer => husable }
  rw [run_establishKeys hkey hparse htrust] at hrun
  obtain ⟨hsound, hload⟩ := Parties.sound_of_runs (p := p) hactive hrun
    (Parties.sound_start hcapacity htalk) hposted
  have hbound := hload.trans (Nat.le_of_eq (Parties.load_start (p := p)))
  refine ⟨?_, hsound.ready.2, hsound.election, (Nat.le_add_left ..).trans hbound, ?_⟩
  · intro r hdone
    obtain ⟨hready, hverdict⟩ := hsound.stage.of_done hdone
    refine ⟨hready.2, ?_⟩
    rcases hverdict with ⟨hagree, rfl⟩ | ⟨hdiffer, rfl⟩
    · exact (if_pos hagree).symm
    · exact (if_neg hdiffer).symm
  · rcases Parties.exists_moves hsound with hdone | ⟨move, s', events, hother, hmoves⟩
    · exact .inl hdone
    · exact .inr ⟨move, s', events, hother, Scene.step_of_moves hmoves⟩

/-- Both hold the same key: the client asks with it, and the introducer confirms it. -/
theorem runs_confirmed :
    let text := "0123456789abcdefghijklmnopqrstuv"
    let keys : KeySet := ⟨[text]⟩
    let settings : Settings := { Settings.default with key := some text }
    let codec : Role → Codec
      | .client => ⟨"client", ⟨none, none⟩⟩
      | .introducer => ⟨"introducer", ⟨none, none⟩⟩
    KeySet.parse text = .ok keys ∧
    ∃ (trace : Scene.Trace) (s : Scene),
      Scene.Runs (Scene.start codec (fun _ => 1) keys
        (establishKeys settings "client" .client []).run ⟨true, Binary64.zero⟩ []) trace s ∧
      (∀ m, .posted m ∈ eventsOf trace → m.IsUnmistakable (keys.keys ++ keys.keys)) ∧
      trace.countP (fun st => !st.move.isSilence) = 15 ∧ s.program = .done (.ok ()) := by
  intro text keys settings codec
  have hparse : KeySet.parse text = .ok keys := by decide +kernel
  refine ⟨hparse, ?_⟩
  let occasion : Occasion := ⟨default, [List.replicate 16 0]⟩
  have hfits : occasion.fits keys = true := by decide
  have hsingle : keys.IsSingle := .inr ⟨text, rfl, by decide +kernel⟩
  obtain ⟨question, e₁, hquestion, hheard₁, hmessage₁, hsender, hfromBus, hecho⟩ :=
    Codec.exists_body_of_single (c := codec .client) (r := codec .introducer) (by decide) hsingle
      hfits (.inl rfl)
  obtain ⟨answer, e₂, hanswer, hheard₂, hmessage₂, -⟩ :=
    Codec.exists_body_of_single (c := codec .introducer) (r := codec .client) (by decide) hsingle
      hfits (.inr ⟨"client", rfl⟩)
  have hpending : (Introducer.receive keys (fun _ => true) ⟨true, Binary64.zero⟩ e₁).2.filterMap
      Introducer.Effect.message? = [.authValid "client"] := by
    rw [receive_question rfl hsender hfromBus hmessage₁]
    rfl
  have hprogram : (establishKeys settings "client" .client []).run
      = .setKeys keys (askConfirmation "client" settings.authTimeout) :=
    run_establishKeys rfl hparse rfl "client" []
  rw [hprogram]
  have hstart : Scene.Runs (Scene.start codec (fun _ => 1) keys
      (.setKeys keys (askConfirmation "client" settings.authTimeout)) ⟨true, Binary64.zero⟩ [])
      [] _ := .start
  -- the question is queued, written and heard, and so is the answer
  have hqueued := ((hstart.move (m := .work .client .attach)
      (Scene.step_of_moves (.worked rfl (.attached rfl)))).move (m := .proceed)
      (Scene.step_of_moves (.rekeyed rfl (.rekeyed rfl)))).move (m := .proceed)
      (Scene.step_of_moves (.queued rfl (.queued rfl rfl rfl)))
  have hasked := (hqueued.move (m := .work .client (.prepare occasion))
      (Scene.step_of_moves (.worked rfl (.posted rfl hfits rfl rfl rfl hquestion)))).move
      (m := .work .client .write) (Scene.step_of_moves (.worked rfl (.wrote rfl rfl rfl rfl)))
  have hhandled := ((hasked.move (m := .work .introducer .arrive)
      (Scene.step_of_moves (.worked rfl (.arrived rfl rfl rfl)))).move
      (m := .work .introducer .deliver)
      (Scene.step_of_moves (.worked rfl
        (.surfaced rfl (congrArg (Phase.serving 0) hheard₁) rfl)))).move
      (m := .handle fun _ => true) (Scene.step_of_moves (.handled rfl rfl (.took rfl rfl)))
  have hsent := hhandled.move (m := .send) (Scene.step_of_moves
      (.sent hpending (.queued rfl rfl rfl)))
  have hanswered := (hsent.move (m := .work .introducer (.prepare occasion))
      (Scene.step_of_moves (.worked rfl (.posted rfl hfits rfl rfl rfl hanswer)))).move
      (m := .work .introducer .write) (Scene.step_of_moves (.worked rfl (.wrote rfl rfl rfl rfl)))
  have hread := ((hanswered.move (m := .work .client .arrive)
      (Scene.step_of_moves (.worked rfl (.arrived rfl rfl rfl)))).move
      (m := .work .client .arrive)
      (Scene.step_of_moves (.worked rfl
        (.arrived rfl rfl (congrArg (Phase.serving 0) hecho))))).move
      (m := .work .client .deliver)
      (Scene.step_of_moves (.worked rfl (.surfaced rfl (congrArg (Phase.serving 0) hheard₂) rfl)))
  have hdone := hread.move (m := .proceed)
      (Scene.step_of_moves (.heard rfl rfl (.took rfl rfl)))
  refine ⟨_, _, hdone, ?_, rfl, ?_⟩
  · intro m hm
    simp only [eventsOf_snoc, List.mem_append, List.nil_append, List.mem_singleton, List.mem_map,
      List.not_mem_nil, reduceCtorEq, or_false, and_false, exists_false] at hm
    have hothers : ∀ other ∈ keys.keys ++ keys.keys, other = text := by
      intro other hother
      rcases List.mem_append.mp hother with h | h <;> exact List.mem_singleton.mp h
    have husable : Codec.isUsable text = true := by decide +kernel
    rcases hm with (hm | hm) | hm
    · cases hm
    all_goals
      have hposting := Bus.Event.posted.inj hm
      exact Posting.isUnmistakable_of_single (congrArg Posting.keys hposting)
        (congrArg Posting.bodies hposting) husable hothers
  · exact (afterEnvelope_awaitConfirmation "client" settings.authTimeout e₂).resolve_right
      fun hsame => hsame.2 hmessage₂

/-- The keys of the client are confirmed within the moves that the bound allows. -/
theorem establishes_iff_common_key_confirmed :
    let text := "0123456789abcdefghijklmnopqrstuv"
    let keys : KeySet := ⟨[text]⟩
    let settings : Settings := { Settings.default with key := some text }
    let codec : Role → Codec
      | .client => ⟨"client", ⟨none, none⟩⟩
      | .introducer => ⟨"introducer", ⟨none, none⟩⟩
    KeySet.parse text = .ok keys ∧
    ∃ (trace : Scene.Trace) (s : Scene),
      Scene.Runs (Scene.start codec (fun _ => 1) keys
        (establishKeys settings "client" .client []).run ⟨true, Binary64.zero⟩ []) trace s ∧
      (∀ m, .posted m ∈ eventsOf trace → m.IsUnmistakable (keys.keys ++ keys.keys)) ∧
      trace.countP (fun st => !st.move.isSilence) = 15 ∧
      15 ≤ 6 + keys.size * (8 + 5 * keys.size) ∧
      s.program = .done (.ok ()) ∧
      (s.bus .client).connection.keys = keys ∧ (s.bus .introducer).connection.keys = keys ∧
      s.election = ⟨true, Binary64.zero⟩ := by
  intro text keys settings codec
  obtain ⟨hparse, trace, s, hrun, hposted, hmoves, hdone⟩ := runs_confirmed
  obtain ⟨hends, hintroducer, helection, hbound, -⟩ := establishes_iff_common_key settings codec
    (fun _ => keys) rfl hparse rfl (by decide) (fun _ => Nat.one_pos) (List.cons_ne_nil _ _)
    (KeySet.usable_of_parse hparse).2 rfl (List.forall_mem_nil _) hrun hposted
  rw [hmoves] at hbound
  exact ⟨hparse, trace, s, hrun, hposted, hmoves, hbound, hdone, (hends _ hdone).1, hintroducer,
    helection⟩

end MessageBus.Handshake
