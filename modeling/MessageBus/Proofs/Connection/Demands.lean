import MessageBus.Proofs.Connection.Caller

/-! # What a program asks for

    A program has messages sent and commands of the machine run.  What it asks
    for is there once it stands at the request, whatever becomes of it: a message
    that is refused was asked for, and so was a command that does not start.  A
    program that consists of two parts asks for what the first part asks for, and
    then for what the second one does.

    * `Program.demands`: what a program asks for, by the replies that it gets.
    * `plays_bind_iff`: a play of two programs is a play of each.
    * `exists_plays`: every program can be played to its end.
    * `demands_prefix`: so what it has asked for is how some play to the end begins. -/

namespace MessageBus

/-- What a program asks for: a message to be sent, perhaps to be seen written, or a command to be
run. -/
inductive Demand where
  | send (contents : Fields)
  | flush (contents : Fields)
  | execute (command : List String)

/-- The command that is to be run. -/
def Demand.command? : Demand → Option (List String)
  | execute command => some command
  | _ => none

/-- The message that is to be seen written. -/
def Demand.flushed? : Demand → Option Fields
  | flush contents => some contents
  | _ => none

/-- How the command that was run ended. -/
def Reply.outcome? : Reply → Option CommandOutcome
  | exited outcome => some outcome
  | _ => none

/-- What became of the message that was to be seen written. -/
def Reply.receipt? : Reply → Option (BusResult Unit)
  | flushed r => some r
  | _ => none

namespace Program

variable {α β : Type} {p next : Program α} {f : α → Program β} {r : Reply}
  {replies front rest : List Reply} {ds : List Demand} {a : α} {b : β}

/-- What a program asks for where it stands. -/
def demand? : Program α → Option Demand
  | .queue contents _ => some (.send contents)
  | .flush contents _ => some (.flush contents)
  | .execute command _ => some (.execute command)
  | _ => none

/-- What a program that gets replies asks for, the last request included. -/
def demands : Program α → List Reply → List Demand
  | p, [] => p.demand?.toList
  | p, r :: replies =>
    p.demand?.toList ++ (p.after r).elim [] fun (_, next) => next.demands replies

/-- With these replies a program comes to its end, and this is what it asks for on the way. -/
def Plays (p : Program α) (replies : List Reply) (ds : List Demand) (a : α) : Prop :=
  (∃ calls, p.play replies = some (calls, .done a)) ∧ p.demands replies = ds

theorem demands_cons {call? : Option Call} (h : p.after r = some (call?, next))
    (replies : List Reply) :
    p.demands (r :: replies) = p.demand?.toList ++ next.demands replies := by
  simp [demands, h]

theorem plays_nil_iff : p.Plays [] ds a ↔ p = .done a ∧ ds = [] := by
  constructor
  · intro ⟨⟨calls, hplay⟩, hds⟩
    cases hplay
    exact ⟨rfl, hds.symm⟩
  · intro ⟨hdone, hds⟩
    subst hdone hds
    exact ⟨⟨[], rfl⟩, rfl⟩

theorem plays_cons_iff :
    p.Plays (r :: replies) ds a ↔
      ∃ call? next later, p.after r = some (call?, next) ∧ next.Plays replies later a ∧
        ds = p.demand?.toList ++ later := by
  constructor
  · intro ⟨⟨calls, hplay⟩, hds⟩
    obtain ⟨call?, next, rest, hafter, hnext, -⟩ := play_cons_iff.mp hplay
    refine ⟨call?, next, _, hafter, ⟨⟨rest, hnext⟩, rfl⟩, ?_⟩
    rw [← hds, demands_cons hafter]
  · intro ⟨call?, next, later, hafter, ⟨⟨calls, hplay⟩, hlater⟩, hds⟩
    refine ⟨⟨_, play_cons_iff.mpr ⟨call?, next, calls, hafter, hplay, rfl⟩⟩, ?_⟩
    rw [demands_cons hafter, hlater, hds]

/-! ## The requests one by one -/

theorem plays_done_iff {a' : α} :
    (done a').Plays replies ds a ↔ replies = [] ∧ ds = [] ∧ a' = a := by
  cases replies with
  | nil => simp [plays_nil_iff, and_comm]
  | cons r replies => simp [plays_cons_iff, after]

theorem plays_queue_iff {contents : Fields} {next : BusResult Unit → Program α} :
    (queue contents next).Plays replies ds a ↔
      ∃ replies' later, ds = .send contents :: later ∧
        (replies = .queued :: replies' ∧ (next (.ok ())).Plays replies' later a ∨
          replies = .closed :: replies' ∧ (next (.error .closed)).Plays replies' later a) := by
  cases replies with
  | nil => simp [plays_nil_iff]
  | cons r replies => cases r <;> simp [plays_cons_iff, after, demand?, and_comm]

theorem plays_flush_iff {contents : Fields} {next : BusResult Unit → Program α} :
    (flush contents next).Plays replies ds a ↔
      ∃ replies' later, ds = .flush contents :: later ∧
        ((∃ r, replies = .flushed r :: replies' ∧ (next r).Plays replies' later a) ∨
          replies = .closed :: replies' ∧ (next (.error .closed)).Plays replies' later a) := by
  cases replies with
  | nil => simp [plays_nil_iff]
  | cons r replies => cases r <;> simp [plays_cons_iff, after, demand?, and_comm]

theorem plays_execute_iff {command : List String} {next : CommandOutcome → Program α} :
    (execute command next).Plays replies ds a ↔
      ∃ outcome replies' later, replies = .exited outcome :: replies' ∧
        ds = .execute command :: later ∧ (next outcome).Plays replies' later a := by
  cases replies with
  | nil => simp [plays_nil_iff]
  | cons r replies => cases r <;> simp [plays_cons_iff, after, demand?, and_comm]

theorem plays_freshId_iff {head : String} {next : String → Program α} :
    (freshId head next).Plays replies ds a ↔
      ∃ id replies', replies = .drawn id :: replies' ∧ (next id).Plays replies' ds a := by
  cases replies with
  | nil => simp [plays_nil_iff]
  | cons r replies => cases r <;> simp [plays_cons_iff, after, demand?]

/-- Who waits asks for nothing. -/
theorem Waits.demands {limit : Option Nat} {accepts : Message → Bool} {next : Awaited → Program α}
    {w : Awaited} (h : Waits limit accepts front w) (rest : List Reply) :
    (await limit accepts next).demands (front ++ rest) = (next w).demands rest := by
  have hbefore : ∀ {before : List Envelope}, (∀ b ∈ before, b.isAccepted accepts = false) →
      ∀ rest, (await limit accepts next).demands (before.map .heard ++ rest) =
        (await limit accepts next).demands rest := by
    intro before hnone rest
    induction before with
    | nil => rfl
    | cons e before ih =>
      obtain ⟨he, hnone⟩ := List.forall_mem_cons.mp hnone
      have hafter : (await limit accepts next).after (.heard e) =
          some (none, await limit accepts next) := by
        simp only [after, afterEnvelope_of_not_accepted he]
      exact (demands_cons hafter _).trans (ih hnone)
  cases h with
  | @matched before e m hnone hmessage haccepts =>
    have hafter : (await limit accepts next).after (.heard e) = some (none, next (.matched m)) := by
      simp only [after, afterEnvelope_of_accepted hmessage haccepts]
    rw [List.append_assoc, hbefore hnone]
    exact demands_cons hafter rest
  | timedOut hnone hlimit =>
    obtain ⟨ms, rfl⟩ := Option.isSome_iff_exists.mp hlimit
    rw [List.append_assoc, hbefore hnone]
    rfl
  | closed hnone =>
    rw [List.append_assoc, hbefore hnone]
    rfl

theorem plays_await_iff {limit : Option Nat} {accepts : Message → Bool}
    {next : Awaited → Program α} :
    (await limit accepts next).Plays replies ds a ↔
      ∃ front w rest, Waits limit accepts front w ∧ replies = front ++ rest ∧
        (next w).Plays rest ds a := by
  constructor
  · intro ⟨⟨calls, hplay⟩, hds⟩
    obtain ⟨front, w, rest, hwaits, rfl, hrest⟩ := play_await_iff.mp hplay
    rw [hwaits.demands] at hds
    exact ⟨front, w, rest, hwaits, rfl, ⟨calls, hrest⟩, hds⟩
  · intro ⟨front, w, rest, hwaits, hreplies, ⟨calls, hrest⟩, hds⟩
    subst hreplies
    refine ⟨⟨calls, play_await_iff.mpr ⟨front, w, rest, hwaits, rfl, hrest⟩⟩, ?_⟩
    rw [hwaits.demands, hds]

/-! ## Two programs, one after the other -/

theorem bind_eq_done_iff : p.bind f = done b ↔ ∃ a, p = done a ∧ f a = done b := by
  cases p <;> simp [bind]

/-- Until a program ends, it does in front of another one what it does alone. -/
theorem after_bind (hp : ∀ a, p ≠ done a) (r : Reply) :
    (p.bind f).after r = (p.after r).map fun (call?, next) => (call?, next.bind f) := by
  cases p with
  | done a => exact absurd rfl (hp a)
  | await limit accepts next =>
    cases r with
    | heard e =>
      cases haccepted : e.isAccepted accepts with
      | false => simp only [bind, after, afterEnvelope_of_not_accepted haccepted, Option.map_some]
      | true =>
        obtain ⟨m, hmessage, haccepts⟩ := Envelope.isAccepted_iff.mp haccepted
        simp only [bind, after, afterEnvelope_of_accepted hmessage haccepts, Option.map_some]
    | _ => cases limit <;> rfl
  | ask answer next =>
    cases r with
    | entered typed => cases answer <;> cases typed <;> rfl
    | _ => cases answer <;> rfl
  | _ => cases r <;> rfl

theorem demand_bind (hp : ∀ a, p ≠ done a) : (p.bind f).demand? = p.demand? := by
  cases p with
  | done a => exact absurd rfl (hp a)
  | _ => rfl

/-- A play of two programs is a play of the first one and then of the second one. -/
theorem plays_bind_iff :
    (p.bind f).Plays replies ds b ↔
      ∃ front made a rest later, replies = front ++ rest ∧ ds = made ++ later ∧
        p.Plays front made a ∧ (f a).Plays rest later b := by
  constructor
  · intro h
    induction replies generalizing p ds with
    | nil =>
      obtain ⟨hdone, rfl⟩ := plays_nil_iff.1 h
      obtain ⟨a, hp, hf⟩ := bind_eq_done_iff.mp hdone
      exact ⟨[], [], a, [], [], rfl, rfl, plays_nil_iff.2 ⟨hp, rfl⟩, plays_nil_iff.2 ⟨hf, rfl⟩⟩
    | cons r replies ih =>
      by_cases hdone : ∃ a, p = done a
      · obtain ⟨a, rfl⟩ := hdone
        exact ⟨[], [], a, r :: replies, ds, rfl, rfl, plays_nil_iff.2 ⟨rfl, rfl⟩, h⟩
      · have hp : ∀ a, p ≠ done a := fun a ha => hdone ⟨a, ha⟩
        obtain ⟨call?, next, later, hafter, hplays, rfl⟩ := plays_cons_iff.1 h
        rw [after_bind hp] at hafter
        obtain ⟨⟨called, next'⟩, hown, heq⟩ := Option.map_eq_some_iff.mp hafter
        obtain ⟨rfl, rfl⟩ := Prod.mk.inj heq
        obtain ⟨front, made, a, rest, later, rfl, rfl, hfirst, hsecond⟩ := ih hplays
        refine ⟨r :: front, p.demand?.toList ++ made, a, rest, later, rfl, ?_, ?_, hsecond⟩
        · rw [demand_bind hp, List.append_assoc]
        · exact plays_cons_iff.2 ⟨called, next', made, hown, hfirst, rfl⟩
  · intro ⟨front, made, a, rest, later, hreplies, hds, hfirst, hsecond⟩
    subst hreplies hds
    induction front generalizing p made with
    | nil =>
      obtain ⟨rfl, rfl⟩ := plays_nil_iff.1 hfirst
      exact hsecond
    | cons r front ih =>
      obtain ⟨call?, next, made, hafter, hplays, rfl⟩ := plays_cons_iff.1 hfirst
      have hp : ∀ a, p ≠ done a := by
        intro a hdone
        rw [hdone] at hafter
        cases hafter
      refine plays_cons_iff.2 ⟨call?, next.bind f, made ++ later, ?_, ih _ hplays, ?_⟩
      · rw [after_bind hp, hafter]
        rfl
      · rw [demand_bind hp, List.append_assoc]

/-- A program comes to its end with one way of going through given replies only. -/
theorem plays_unique {front' rest' : List Reply} {ds' : List Demand} {a' : α}
    (h : p.Plays front ds a) (h' : p.Plays front' ds' a') (heq : front ++ rest = front' ++ rest') :
    front = front' ∧ a = a' := by
  induction front generalizing p ds ds' front' with
  | nil =>
    obtain ⟨rfl, -⟩ := plays_nil_iff.1 h
    obtain ⟨rfl, -, hsame⟩ := plays_done_iff.1 h'
    exact ⟨rfl, hsame⟩
  | cons r front ih =>
    obtain ⟨call?, next, later, hafter, hplays, -⟩ := plays_cons_iff.1 h
    cases front' with
    | nil =>
      obtain ⟨rfl, -⟩ := plays_nil_iff.1 h'
      cases hafter
    | cons r' front' =>
      obtain ⟨rfl, hrest⟩ := List.cons.inj heq
      obtain ⟨call?', next', later', hafter', hplays', -⟩ := plays_cons_iff.1 h'
      rw [hafter] at hafter'
      cases hafter'
      obtain ⟨rfl, hsame⟩ := ih hplays hplays' hrest
      exact ⟨rfl, hsame⟩

/-- A wait ends in one way with given replies only. -/
theorem Waits.unique {limit : Option Nat} {accepts : Message → Bool} {front' rest' : List Reply}
    {w w' : Awaited} (h : Waits limit accepts front w) (h' : Waits limit accepts front' w')
    (heq : front ++ rest = front' ++ rest') : front = front' ∧ w = w' := by
  have hplays : ∀ {front : List Reply} {w : Awaited}, Waits limit accepts front w →
      (await limit accepts done).Plays front [] w := by
    intro front w h
    exact plays_await_iff.mpr
      ⟨front, w, [], h, (List.append_nil _).symm, plays_done_iff.2 ⟨rfl, rfl, rfl⟩⟩
  exact plays_unique (hplays h) (hplays h') heq

/-! ## What the replies answer -/

/-- No command ends that was not asked for. -/
theorem command_of_after {call? : Option Call} (h : p.after r = some (call?, next))
    (hr : r.outcome?.isSome = true) : (p.demand?.bind Demand.command?).isSome = true := by
  cases r with
  | exited outcome =>
    cases p with
    | execute command next => rfl
    | await limit accepts next => cases limit <;> cases h
    | ask script next => cases script <;> cases h
    | _ => cases h
  | _ => cases hr

/-- No message is seen written that was not asked for. -/
theorem flushed_of_after {call? : Option Call} (h : p.after r = some (call?, next))
    (hr : r.receipt?.isSome = true) : (p.demand?.bind Demand.flushed?).isSome = true := by
  cases r with
  | flushed receipt =>
    cases p with
    | flush contents next => rfl
    | await limit accepts next => cases limit <;> cases h
    | ask script next => cases script <;> cases h
    | _ => cases h
  | _ => cases hr

/-- What nobody asks for is not answered. -/
theorem no_answer {γ δ : Type} {answer? : Reply → Option γ} {asked? : Demand → Option δ}
    (hone : ∀ {p next : Program α} {r : Reply} {call? : Option Call},
      p.after r = some (call?, next) → (answer? r).isSome = true →
      (p.demand?.bind asked?).isSome = true)
    (h : p.Plays replies ds a) (hds : ds.filterMap asked? = []) :
    replies.filterMap answer? = [] := by
  induction replies generalizing p ds with
  | nil => rfl
  | cons r replies ih =>
    obtain ⟨call?, next, later, hafter, hplays, rfl⟩ := plays_cons_iff.1 h
    obtain ⟨hnow, hlater⟩ := List.append_eq_nil_iff.mp ((List.filterMap_append ..).symm.trans hds)
    have hnone : answer? r = none := by
      by_contra hsome
      have hasked := hone hafter (Option.isSome_iff_ne_none.mpr hsome)
      cases hdemand : p.demand? <;> simp_all
    rw [List.filterMap_cons_none hnone]
    exact ih hplays hlater

/-- A play of a program whose result is only rewritten is a play of that program. -/
theorem plays_map_iff {g : α → β} :
    (p.bind fun a => done (g a)).Plays replies ds b ↔ ∃ a, p.Plays replies ds a ∧ g a = b := by
  refine plays_bind_iff.trans ?_
  constructor
  · intro ⟨front, made, a, rest, later, hreplies, hds, hfirst, hrest⟩
    obtain ⟨rfl, rfl, hb⟩ := plays_done_iff.1 hrest
    rw [List.append_nil] at hreplies hds
    exact ⟨a, hreplies ▸ hds ▸ hfirst, hb⟩
  · intro ⟨a, hplays, hb⟩
    exact ⟨replies, ds, a, [], [], (List.append_nil _).symm, (List.append_nil _).symm, hplays,
      plays_done_iff.2 ⟨rfl, rfl, hb⟩⟩

/-! ## Plays that are not over yet -/

/-- Every program can be played to its end. -/
theorem exists_plays (p : Program α) : ∃ replies ds a, p.Plays replies ds a := by
  -- each request has a reply that it may get, and the rest is played from there
  have hnext : ∀ {p next : Program α} (r : Reply) {call? : Option Call},
      p.after r = some (call?, next) → (∃ replies ds a, next.Plays replies ds a) →
      ∃ replies ds a, p.Plays replies ds a := by
    intro p next r call? hafter ⟨replies, ds, a, hplays⟩
    exact ⟨r :: replies, _, a, plays_cons_iff.2 ⟨call?, next, ds, hafter, hplays, rfl⟩⟩
  induction p with
  | done a => exact ⟨[], [], a, plays_nil_iff.2 ⟨rfl, rfl⟩⟩
  | queue contents next ih | flush contents next ih => exact hnext .closed rfl (ih (.error .closed))
  | await limit accepts next ih =>
    have hafter : (await limit accepts next).after .closed = some (none, next .closed) := by
      cases limit <;> rfl
    exact hnext .closed hafter (ih .closed)
  | sleep ms next ih => exact hnext .rested rfl ih
  | setKeys keys next ih => exact hnext .rekeyed rfl ih
  | ask answer next ih =>
    have hafter : (ask answer next).after (.entered (.error .closed)) =
        some (none, next (.error .closed)) := by
      cases answer <;> rfl
    exact hnext (.entered (.error .closed)) hafter (ih (.error .closed))
  | execute command next ih => exact hnext (.exited (.exited 0)) rfl (ih (.exited 0))
  | freshId head next ih => exact hnext (.drawn "") rfl (ih "")

/-- What a program has asked for is how some play to its end begins. -/
theorem demands_prefix {calls : List Call} (h : p.play front = some (calls, next)) :
    ∃ rest ds a, p.Plays (front ++ rest) ds a ∧ p.demands front <+: ds := by
  induction front generalizing p calls with
  | nil =>
    obtain ⟨rest, ds, a, hplays⟩ := exists_plays p
    refine ⟨rest, ds, a, hplays, ?_⟩
    cases rest with
    | nil =>
      obtain ⟨rfl, rfl⟩ := plays_nil_iff.1 hplays
      exact List.prefix_refl _
    | cons r rest =>
      obtain ⟨_, _, later, -, -, rfl⟩ := plays_cons_iff.1 hplays
      exact List.prefix_append ..
  | cons r front ih =>
    obtain ⟨call?, next', made, hafter, hplay, -⟩ := play_cons_iff.mp h
    obtain ⟨rest, ds, a, hplays, hprefix⟩ := ih hplay
    refine ⟨rest, _, a, plays_cons_iff.2 ⟨call?, next', ds, hafter, hplays, rfl⟩, ?_⟩
    rw [demands_cons hafter]
    exact (List.prefix_append_right_inj _).mpr hprefix

/-- Of two programs, the first one is under way, or the second one is. -/
theorem demands_bind_cases {calls : List Call} {last : Program β}
    (h : (p.bind f).play replies = some (calls, last)) :
    (∃ rest ds a, p.Plays (replies ++ rest) ds a ∧ (p.bind f).demands replies <+: ds) ∨
      ∃ front made a rest, replies = front ++ rest ∧ p.Plays front made a ∧
        (p.bind f).demands replies = made ++ (f a).demands rest := by
  induction replies generalizing p calls with
  | nil =>
    by_cases hdone : ∃ a, p = done a
    · obtain ⟨a, rfl⟩ := hdone
      exact .inr ⟨[], [], a, [], rfl, plays_nil_iff.2 ⟨rfl, rfl⟩, rfl⟩
    · obtain ⟨rest, ds, a, hplays, hprefix⟩ := demands_prefix (play_nil p)
      refine .inl ⟨rest, ds, a, hplays, ?_⟩
      rwa [demands, demand_bind fun a ha => hdone ⟨a, ha⟩]
  | cons r replies ih =>
    by_cases hdone : ∃ a, p = done a
    · obtain ⟨a, rfl⟩ := hdone
      exact .inr ⟨[], [], a, r :: replies, rfl, plays_nil_iff.2 ⟨rfl, rfl⟩, rfl⟩
    · have hp : ∀ a, p ≠ done a := fun a ha => hdone ⟨a, ha⟩
      obtain ⟨call?, last', rest, hafter, hplay, -⟩ := play_cons_iff.mp h
      have hdemands := demands_cons hafter replies
      rw [demand_bind hp] at hdemands
      rw [after_bind hp] at hafter
      obtain ⟨⟨called, next⟩, hown, heq⟩ := Option.map_eq_some_iff.mp hafter
      obtain ⟨rfl, rfl⟩ := Prod.mk.inj heq
      rw [hdemands]
      obtain ⟨rest, ds, a, hplays, hprefix⟩ | ⟨front, made, a, rest, rfl, hplays, hsame⟩ := ih hplay
      · refine .inl ⟨rest, _, a, plays_cons_iff.2 ⟨called, next, ds, hown, hplays, rfl⟩, ?_⟩
        exact (List.prefix_append_right_inj _).mpr hprefix
      · refine .inr ⟨r :: front, p.demand?.toList ++ made, a, rest, rfl, ?_, ?_⟩
        · exact plays_cons_iff.2 ⟨called, next, made, hown, hplays, rfl⟩
        · rw [hsame, List.append_assoc]

end Program

namespace Task

variable {ε α β : Type} {x : Task ε α} {f : α → Task ε β} {replies : List Reply} {ds : List Demand}

/-- A play of two tasks is a play of the first one, and then of the second one unless the first one
fails. -/
theorem plays_bind_iff {r : Except ε β} :
    (x >>= f).run.Plays replies ds r ↔
      ∃ front made first rest later, replies = front ++ rest ∧ ds = made ++ later ∧
        x.run.Plays front made first ∧
        match first with
        | .ok a => (f a).run.Plays rest later r
        | .error e => rest = [] ∧ later = [] ∧ .error e = r := by
  refine Program.plays_bind_iff.trans ?_
  constructor
  · intro ⟨front, made, first, rest, later, hreplies, hds, hfirst, hrest⟩
    refine ⟨front, made, first, rest, later, hreplies, hds, hfirst, ?_⟩
    cases first with
    | ok a => exact hrest
    | error e => exact Program.plays_done_iff.1 hrest
  · intro ⟨front, made, first, rest, later, hreplies, hds, hfirst, hrest⟩
    refine ⟨front, made, first, rest, later, hreplies, hds, hfirst, ?_⟩
    cases first with
    | ok a => exact hrest
    | error e => exact Program.plays_done_iff.2 hrest

/-- What two tasks have asked for is how some play of the first one begins, unless that one has
succeeded. -/
theorem demands_bind_cases {calls : List Call} {last : Program (Except ε β)}
    (h : (x >>= f).run.play replies = some (calls, last)) :
    (∃ front ds r, x.run.Plays front ds r ∧ (x >>= f).run.demands replies <+: ds) ∨
      ∃ front made a rest, replies = front ++ rest ∧ x.run.Plays front made (.ok a) := by
  obtain ⟨rest, ds, r, hplays, hprefix⟩ | ⟨front, made, first, rest, rfl, hplays, hdemands⟩ :=
    Program.demands_bind_cases h
  · exact .inl ⟨_, ds, r, hplays, hprefix⟩
  · cases first with
    | ok a => exact .inr ⟨front, made, a, rest, rfl, hplays⟩
    | error e =>
      have hnothing : (Program.done (.error e : Except ε β)).demands rest = [] := by
        cases rest <;> rfl
      have hall : (x >>= f).run.demands (front ++ rest) = made := by
        refine hdemands.trans ?_
        show made ++ (Program.done (.error e : Except ε β)).demands rest = made
        rw [hnothing, List.append_nil]
      exact .inl ⟨front, made, .error e, hplays, hall ▸ List.prefix_refl _⟩

/-- The outcome of a task is what the task comes to. -/
theorem plays_outcome_iff {t : Task BusError α} {r : Except ε (BusResult α)} :
    (outcome t : Task ε (BusResult α)).run.Plays replies ds r ↔
      ∃ result, t.run.Plays replies ds result ∧ .ok result = r :=
  Program.plays_map_iff

end Task

end MessageBus
