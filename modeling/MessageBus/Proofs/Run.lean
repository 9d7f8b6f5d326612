import Mathlib.Data.List.Nodup

/-! # Runs of a transition system

    A part of the bus is a step function that takes a state and a move to the
    next state and the events of that move, or to `none` when the move is not
    possible.  A run is any sequence of possible moves.  Its trace keeps, move
    by move, the state it was made in, the move, and the events, so that what
    happened along a run can be read off without adding to the state.

    * `Run.append`, `Run.split`, `Run.of_append`: runs put together and taken apart.
    * `Run.invariant`: what every move preserves holds along a run.
    * `Leads`: some moves of one kind lead from a state to another.
    * `Tenure`: the part of a trace during which something lasts. -/

namespace MessageBus

variable {State Move Event : Type}

/-- One move of a run. -/
structure Stage (State Move Event : Type) where
  /-- The state in which the move was made. -/
  before : State
  move : Move
  events : List Event

/-- `Run step s trace s'`: the moves of `trace` lead from `s` to `s'`. -/
inductive Run (step : State → Move → Option (State × List Event)) (s : State) :
    List (Stage State Move Event) → State → Prop where
  | start : Run step s [] s
  | move {trace : List (Stage State Move Event)} {s₁ s₂ : State} {m : Move}
      {events : List Event} :
      Run step s trace s₁ → step s₁ m = some (s₂, events) →
      Run step s (trace ++ [⟨s₁, m, events⟩]) s₂

/-- Everything that happened along a trace, in order. -/
def eventsOf (trace : List (Stage State Move Event)) : List Event :=
  trace.flatMap (·.events)

@[simp] theorem eventsOf_nil : eventsOf ([] : List (Stage State Move Event)) = [] := rfl

theorem eventsOf_append (trace₁ trace₂ : List (Stage State Move Event)) :
    eventsOf (trace₁ ++ trace₂) = eventsOf trace₁ ++ eventsOf trace₂ := by
  simp [eventsOf]

@[simp] theorem eventsOf_snoc (trace : List (Stage State Move Event))
    (st : Stage State Move Event) :
    eventsOf (trace ++ [st]) = eventsOf trace ++ st.events := by
  simp [eventsOf]

/-- Where every element of a list has its own key, one key selects one element. -/
theorem filterMap_eq_of_nodup {α β γ : Type} {l : List α} {key : α → γ} {a : α} {f : α → Option β}
    (hd : (l.map key).Nodup) (ha : a ∈ l) (hf : ∀ b, key b ≠ key a → f b = none) :
    l.filterMap f = (f a).toList := by
  obtain ⟨front, back, rfl⟩ := List.append_of_mem ha
  rw [List.map_append, List.map_cons] at hd
  have hother : ∀ b ∈ front ++ back, f b = none := by
    intro b hb
    apply hf
    intro hkey
    have hnotMem := List.nodup_middle.mp hd
    rw [List.nodup_cons, ← List.map_append, ← hkey] at hnotMem
    exact hnotMem.1 (List.mem_map_of_mem hb)
  have hfront : front.filterMap f = [] :=
    List.filterMap_eq_nil_iff.mpr fun b hb => hother b (List.mem_append_left back hb)
  have hback : back.filterMap f = [] :=
    List.filterMap_eq_nil_iff.mpr fun b hb => hother b (List.mem_append_right front hb)
  rw [List.filterMap_append, List.filterMap_cons, hfront, hback]
  cases f a <;> rfl

namespace Run

variable {step : State → Move → Option (State × List Event)} {s s₁ : State}
  {trace : List (Stage State Move Event)}

/-- A run may go on from where another one ended. -/
theorem append {trace₂ : List (Stage State Move Event)} {s₂ : State} (h : Run step s trace s₁)
    (h₂ : Run step s₁ trace₂ s₂) : Run step s (trace ++ trace₂) s₂ := by
  induction h₂ with
  | start => rwa [List.append_nil]
  | move _ hm ih =>
    rw [← List.append_assoc]
    exact ih.move hm

/-- Each stage of a run was reached by the moves before it, and its move was
    possible. -/
theorem split {before after : List (Stage State Move Event)} {st : Stage State Move Event}
    (h : Run step s trace s₁) (hsplit : trace = before ++ st :: after) :
    Run step s before st.before ∧ ∃ s', step st.before st.move = some (s', st.events) := by
  induction h generalizing after with
  | start => simp at hsplit
  | @move trace s₁ s₂ m events hrun hm ih =>
    rcases List.eq_nil_or_concat after with rfl | ⟨after, last, rfl⟩
    · obtain ⟨rfl, hlast⟩ := List.append_inj' hsplit rfl
      obtain rfl := List.singleton_inj.mp hlast
      exact ⟨hrun, _, hm⟩
    · rw [List.concat_eq_append, ← List.cons_append, ← List.append_assoc] at hsplit
      exact ih (List.append_inj' hsplit rfl).1

/-- The last stage of a run leads to where it ends. -/
theorem of_snoc {st : Stage State Move Event} (h : Run step s (trace ++ [st]) s₁) :
    Run step s trace st.before ∧ step st.before st.move = some (s₁, st.events) := by
  generalize hsnoc : trace ++ [st] = whole at h
  cases h with
  | start => simp at hsnoc
  | move hrun hm =>
    obtain ⟨rfl, hlast⟩ := List.append_inj' hsnoc rfl
    obtain rfl := List.singleton_inj.mp hlast
    exact ⟨hrun, hm⟩

theorem of_nil (h : Run step s [] s₁) : s₁ = s := by
  generalize hnil : ([] : List (Stage State Move Event)) = whole at h
  cases h with
  | start => rfl
  | move => simp at hnil

/-- A run goes through a state where its moves are taken apart. -/
theorem of_append {trace₂ : List (Stage State Move Event)} (h : Run step s (trace ++ trace₂) s₁) :
    ∃ s', Run step s trace s' ∧ Run step s' trace₂ s₁ := by
  generalize hwhole : trace ++ trace₂ = whole at h
  induction h generalizing trace₂ with
  | start =>
    obtain ⟨rfl, rfl⟩ := List.append_eq_nil_iff.mp hwhole
    exact ⟨s, .start, .start⟩
  | move hrun hm ih =>
    rcases List.eq_nil_or_concat trace₂ with rfl | ⟨trace₂, last, rfl⟩
    · rw [List.append_nil] at hwhole
      exact ⟨_, hwhole ▸ hrun.move hm, .start⟩
    · rw [List.concat_eq_append, ← List.append_assoc] at hwhole
      obtain ⟨hfront, hlast⟩ := List.append_inj' hwhole rfl
      obtain ⟨s', hbefore, hafter⟩ := ih hfront
      rw [List.concat_eq_append, List.singleton_inj.mp hlast]
      exact ⟨s', hbefore, hafter.move hm⟩

theorem stage_reached {st : Stage State Move Event} (h : Run step s trace s₁) (hst : st ∈ trace) :
    (∃ earlier, earlier <+: trace ∧ Run step s earlier st.before) ∧
      ∃ s', step st.before st.move = some (s', st.events) := by
  obtain ⟨before, after, hsplit⟩ := List.append_of_mem hst
  obtain ⟨hrun, hmove⟩ := h.split hsplit
  refine ⟨⟨before, ?_, hrun⟩, hmove⟩
  rw [hsplit]
  exact List.prefix_append ..

theorem invariant {P : State → Prop} (h : Run step s trace s₁)
    (hstep : ∀ s m s' events, P s → step s m = some (s', events) → P s') (hs : P s) : P s₁ := by
  induction h with
  | start => exact hs
  | move _ hm ih => exact hstep _ _ _ _ ih hm

end Run

/-- Some moves of a kind lead from one state to another. -/
def Leads (step : State → Move → Option (State × List Event)) (kind : Move → Prop)
    (s s' : State) : Prop :=
  ∃ trace : List (Stage State Move Event), (∀ st ∈ trace, kind st.move) ∧ Run step s trace s'

namespace Leads

variable {step : State → Move → Option (State × List Event)} {kind : Move → Prop}
  {s s₁ s₂ : State}

theorem refl (s : State) : Leads step kind s s := ⟨[], (fun _ hst => nomatch hst), .start⟩

theorem trans (h₁ : Leads step kind s s₁) (h₂ : Leads step kind s₁ s₂) :
    Leads step kind s s₂ := by
  obtain ⟨trace₁, hkind₁, hrun₁⟩ := h₁
  obtain ⟨trace₂, hkind₂, hrun₂⟩ := h₂
  refine ⟨trace₁ ++ trace₂, ?_, hrun₁.append hrun₂⟩
  intro st hst
  rcases List.mem_append.mp hst with hst | hst
  · exact hkind₁ st hst
  · exact hkind₂ st hst

theorem single {m : Move} {events : List Event} (hkind : kind m)
    (hm : step s m = some (s₁, events)) : Leads step kind s s₁ := by
  refine ⟨_, ?_, Run.start.move hm⟩
  intro st hst
  rw [List.mem_singleton.mp hst]
  exact hkind

theorem mono {wider : Move → Prop} (hwider : ∀ m, kind m → wider m) (h : Leads step kind s s₁) :
    Leads step wider s s₁ := by
  obtain ⟨trace, hkind, hrun⟩ := h
  exact ⟨trace, fun st hst => hwider _ (hkind st hst), hrun⟩

end Leads

/-- A run may go on as far as some moves lead. -/
theorem Run.leads {step : State → Move → Option (State × List Event)} {kind : Move → Prop}
    {s s₁ s₂ : State} {trace : List (Stage State Move Event)} (h : Run step s trace s₁)
    (hleads : Leads step kind s₁ s₂) : ∃ trace', Run step s trace' s₂ := by
  obtain ⟨later, -, hrun⟩ := hleads
  exact ⟨_, h.append hrun⟩

/-- Something that begins with one stage of a trace and lasts until a stage that ends it: the stages
between them, and whether it still lasts. -/
def Tenure (begins ends : Stage State Move Event → Prop) (lasts : Bool)
    (trace during : List (Stage State Move Event)) : Prop :=
  ∃ before first after, trace = before ++ first :: (during ++ after) ∧ begins first ∧
    (∀ st ∈ during, ¬ ends st) ∧
    if lasts then after = [] else ∃ last rest, after = last :: rest ∧ ends last

namespace Tenure

variable {begins ends : Stage State Move Event → Prop}
  {trace during : List (Stage State Move Event)} {st : Stage State Move Event}

theorem begin (h : begins st) : Tenure begins ends true (trace ++ [st]) [] :=
  ⟨trace, st, [], rfl, h, (fun _ hst => nomatch hst), rfl⟩

theorem stay (h : Tenure begins ends true trace during) (hst : ¬ ends st) :
    Tenure begins ends true (trace ++ [st]) (during ++ [st]) := by
  obtain ⟨before, first, after, rfl, hfirst, hduring, hafter⟩ := h
  obtain rfl : after = [] := by simpa using hafter
  refine ⟨before, first, [], by simp, hfirst, ?_, rfl⟩
  intro st' hst'
  rcases List.mem_append.mp hst' with hst' | hst'
  · exact hduring st' hst'
  · rw [List.mem_singleton.mp hst']
    exact hst

theorem leave (h : Tenure begins ends true trace during) (hst : ends st) :
    Tenure begins ends false (trace ++ [st]) during := by
  obtain ⟨before, first, after, rfl, hfirst, hduring, hafter⟩ := h
  obtain rfl : after = [] := by simpa using hafter
  exact ⟨before, first, [st], by simp, hfirst, hduring, st, [], rfl, hst⟩

theorem past (h : Tenure begins ends false trace during) (st : Stage State Move Event) :
    Tenure begins ends false (trace ++ [st]) during := by
  obtain ⟨before, first, after, rfl, hfirst, hduring, last, rest, rfl, hlast⟩ := h
  exact ⟨before, first, last :: (rest ++ [st]), by simp, hfirst, hduring, last, _, rfl, hlast⟩

end Tenure

end MessageBus
