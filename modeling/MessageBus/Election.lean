import MessageBus.Number.Binary64

/-!
# The election of an introducer

Several introducers may be on the bus, each with a level; the ones on standby leave the work to
those of greater levels.  The rules are a pure transition: what an introducer observes gives its
next state and what it has to broadcast.

| observed | effect | broadcast |
|---|---|---|
| startup | active | presence, roll call |
| presence of a greater level | standby | |
| roll call | | presence |
| reconnection | active | roll call |
| silence on standby | active | roll call |

An equal level demotes nobody, so two introducers of one level both stay active.

## Main statements

* `level_step` : the level never changes.
* `isActive_presence_iff` : only the presence of a greater level takes an introducer out of office.
-/

namespace MessageBus

/-- The state of an introducer in the election. -/
structure Election where
  isActive : Bool
  level : Binary64
  deriving DecidableEq, Repr, Inhabited

namespace Election

/-- What an introducer observes. -/
inductive Event where
  | startup
  | presence (level : Binary64)
  | rollCall
  | reconnected
  | silence
  deriving DecidableEq, Repr

/-- What an introducer broadcasts. -/
inductive Output where
  | announce (level : Binary64)
  | callRoll
  deriving DecidableEq, Repr

/-- A new introducer is active. -/
def start (level : Binary64) : Election := ⟨true, level⟩

/-- The next state. -/
def next (e : Election) : Event → Election
  | .startup | .reconnected | .silence => { e with isActive := true }
  | .presence level => if e.level < level then { e with isActive := false } else e
  | .rollCall => e

/-- What the observation makes the introducer broadcast. -/
def outputs (e : Election) : Event → List Output
  | .startup => [.announce e.level, .callRoll]
  | .presence _ => []
  | .rollCall => [.announce e.level]
  | .reconnected => [.callRoll]
  | .silence => if e.isActive then [] else [.callRoll]

/-- The transition for an observation. -/
def step (e : Election) (event : Event) : Election × List Output :=
  (e.next event, e.outputs event)

/-- The states and outputs along a sequence of observations. -/
def run (e : Election) : List Event → Election × List Output
  | [] => (e, [])
  | event :: rest =>
    let (e₁, out₁) := e.step event
    let (e₂, out₂) := run e₁ rest
    (e₂, out₁ ++ out₂)

theorem level_step (e : Election) (event : Event) : (e.step event).1.level = e.level := by
  cases event <;> simp only [step, next]
  split <;> rfl

theorem isActive_presence_iff (e : Election) (level : Binary64) :
    (e.step (.presence level)).1.isActive = true ↔ e.isActive = true ∧ ¬ e.level < level := by
  by_cases h : e.level < level <;> simp [step, next, h]

end Election

end MessageBus
