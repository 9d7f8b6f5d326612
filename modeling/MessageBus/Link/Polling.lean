import MessageBus.Error
import MessageBus.Text.Bytes

/-!
# Links by polled requests

A link without a socket: bodies are asked for again and again, and each body that goes out is
posted by itself.  Nothing that happens to a request ends such a link.  A poll that fails is
repeated after a pause, one that brings nothing is repeated at once, and a body whose post fails is
gone.

## Main statements

* `receiveAll_eq` : what calls return are the bodies of the answers that bring one.
* `send_ok` : a post never fails the link.
-/

namespace MessageBus.Polling

/-- What went wrong with a request; the log tells of it, and nobody else learns of it. -/
inductive Trouble where
  /-- There is no answer, or not all of it. -/
  | unanswered
  /-- The status of the answer says so. -/
  | refused (status : Nat)
  deriving DecidableEq, Repr

/-- How a poll ends. -/
inductive PollOutcome where
  /-- There is no answer, or not all of it. -/
  | unanswered
  | answered (status : Nat) (body : Bytes)
  deriving DecidableEq, Repr

/-- The status of an answer that brings a body. -/
def statusOk : Nat := 200

/-- The status of an answer that has nothing to bring. -/
def statusEmpty : Nat := 204

/-- What a poll brings: a body, or nothing. -/
def pollOnce : PollOutcome → Except Trouble (Option Bytes)
  | .unanswered => .error .unanswered
  | .answered status body =>
    if status = statusOk ∧ body ≠ [] then .ok (some body)
    else if status = statusOk ∨ status = statusEmpty then .ok none
    else .error (.refused status)

/-- What follows a poll. -/
inductive Reaction where
  /-- The call for a body returns. -/
  | finish (result : BusResult Bytes)
  /-- The next poll follows at once. -/
  | pollAgain
  /-- The next poll follows after a pause. -/
  | pause
  deriving Repr

/-- What follows a poll, by its outcome. -/
def react (o : PollOutcome) : Reaction :=
  match pollOnce o with
  | .ok (some body) => .finish (.ok body)
  | .ok none => .pollAgain
  -- only the log learns what it was
  | .error _ => .pause

/-- One call for a body: what followed each poll up to the one that ended the call, what the call
returned, and the outcomes that are left.  It does not return as long as no poll ends it. -/
def receive : List PollOutcome → List Reaction × Option (BusResult Bytes × List PollOutcome)
  | [] => ([], none)
  | o :: rest =>
    match react o with
    | .finish result => ([], some (result, rest))
    | r =>
      let (before, found) := receive rest
      (r :: before, found)

/-- A call that returns has seen an outcome at least. -/
theorem length_rest_lt {outcomes rest : List PollOutcome} {before : List Reaction}
    {result : BusResult Bytes} (h : receive outcomes = (before, some (result, rest))) :
    rest.length < outcomes.length := by
  induction outcomes generalizing before with
  | nil => simp [receive] at h
  | cons o outcomes ih =>
    unfold receive at h
    split at h
    · simp only [Prod.mk.injEq, Option.some.injEq] at h
      rw [← h.2.2]
      exact Nat.lt_succ_self _
    · simp only [Prod.mk.injEq] at h
      have := ih (Prod.ext rfl h.2)
      exact Nat.lt_succ_of_lt this

/-- What one call after the other returns. -/
def receiveAll (outcomes : List PollOutcome) : List (BusResult Bytes) :=
  match _h : receive outcomes with
  | (_, some (result, rest)) => result :: receiveAll rest
  | (_, none) => []
termination_by outcomes.length
decreasing_by exact length_rest_lt (by assumption)

/-- How a post ends. -/
inductive PostOutcome where
  /-- There is no answer. -/
  | unanswered
  | answered (status : Nat)
  deriving DecidableEq, Repr

/-- Whether a post was accepted. -/
def post : PostOutcome → Except Trouble Unit
  | .unanswered => .error .unanswered
  | .answered status => if 200 ≤ status ∧ status < 300 then .ok () else .error (.refused status)

/-- Sends a body, by how its post ends. -/
def send (o : PostOutcome) : BusResult Unit :=
  match post o with
  | .ok () => .ok ()
  -- the body is gone, and only the log learns of it
  | .error _ => .ok ()

theorem send_ok (o : PostOutcome) : send o = .ok () := by
  unfold send
  split <;> rfl

/-! ## What a poll brings -/

namespace PollOutcome

/-- The body of an answer that brings one. -/
def body? : PollOutcome → Option Bytes
  | answered 200 body => if body = [] then none else some body
  | _ => none

/-- Whether an answer says that there is nothing to bring. -/
def isEmpty : PollOutcome → Bool
  | answered status body => status = 200 ∧ body = [] ∨ status = 204
  | unanswered => false

/-- Whether a poll failed. -/
def fails : PollOutcome → Bool
  | answered status _ => status ≠ 200 ∧ status ≠ 204
  | unanswered => true

end PollOutcome

/-- A poll brings a body, or nothing, or it failed. -/
theorem react_cases (o : PollOutcome) :
    (∃ body, o = .answered 200 body ∧ body ≠ [] ∧ o.body? = some body ∧
      react o = .finish (.ok body)) ∨
    (o.isEmpty = true ∧ o.body? = none ∧ react o = .pollAgain) ∨
    (o.fails = true ∧ o.body? = none ∧ react o = .pause) := by
  cases o with
  | unanswered => exact .inr (.inr ⟨rfl, rfl, rfl⟩)
  | answered status body =>
    by_cases hok : status = 200
    · subst hok
      by_cases hbody : body = []
      · subst hbody
        exact .inr (.inl ⟨rfl, rfl, rfl⟩)
      · exact .inl ⟨body, rfl, hbody, by simp [PollOutcome.body?, hbody],
          by simp [react, pollOnce, statusOk, hbody]⟩
    · have hbody : (PollOutcome.answered status body).body? = none := by
        unfold PollOutcome.body?
        split
        · next heq =>
          cases heq
          exact absurd rfl hok
        · rfl
      by_cases hempty : status = 204
      · subst hempty
        exact .inr (.inl ⟨by simp [PollOutcome.isEmpty], hbody, rfl⟩)
      · exact .inr (.inr ⟨by simp [PollOutcome.fails, hok, hempty], hbody,
          by simp [react, pollOnce, statusOk, statusEmpty, hok, hempty]⟩)

theorem receive_none {outcomes : List PollOutcome} {before : List Reaction}
    (h : receive outcomes = (before, none)) : outcomes.filterMap (·.body?) = [] := by
  induction outcomes generalizing before with
  | nil => rfl
  | cons o outcomes ih =>
    unfold receive at h
    rcases react_cases o with ⟨body, -, -, -, hreact⟩ | ⟨-, hbody, hreact⟩ | ⟨-, hbody, hreact⟩
    · simp [hreact] at h
    all_goals
      simp only [hreact, Prod.mk.injEq] at h
      rw [List.filterMap_cons_none hbody]
      exact ih (Prod.ext rfl h.2)

/-- A call returns the first body that there is. -/
theorem receive_some {outcomes rest : List PollOutcome} {before : List Reaction}
    {result : BusResult Bytes} (h : receive outcomes = (before, some (result, rest))) :
    ∃ body, result = .ok body ∧
      outcomes.filterMap (·.body?) = body :: rest.filterMap (·.body?) := by
  induction outcomes generalizing before with
  | nil => simp [receive] at h
  | cons o outcomes ih =>
    unfold receive at h
    rcases react_cases o with ⟨body, -, -, hbody, hreact⟩ | ⟨-, hbody, hreact⟩ |
      ⟨-, hbody, hreact⟩
    · simp only [hreact, Prod.mk.injEq, Option.some.injEq] at h
      obtain ⟨-, rfl, rfl⟩ := h
      exact ⟨body, rfl, List.filterMap_cons_some hbody⟩
    all_goals
      simp only [hreact, Prod.mk.injEq] at h
      rw [List.filterMap_cons_none hbody]
      exact ih (Prod.ext rfl h.2)

theorem receiveAll_eq (outcomes : List PollOutcome) :
    receiveAll outcomes = (outcomes.filterMap (·.body?)).map .ok := by
  induction outcomes using receiveAll.induct with
  | case1 outcomes before result rest h ih =>
    obtain ⟨body, rfl, hbodies⟩ := receive_some h
    unfold receiveAll
    split
    · rename_i h'
      rw [h] at h'
      cases h'
      rw [ih, hbodies, List.map_cons]
    · rename_i h'
      rw [h] at h'
      cases h'
  | case2 outcomes before h =>
    unfold receiveAll
    split
    · rename_i h'
      rw [h] at h'
      cases h'
    · rw [receive_none h, List.map_nil]

end MessageBus.Polling
