import MessageBus.Proofs.Json.Rereading

/-! # The first character of a text

    The first character of a JSON text that is no blank settles whether the text
    is of an object: it is if that character is a brace, and otherwise it never
    becomes one, whatever is opened and closed behind it.  What carries the
    argument is the outermost container, the one at the bottom of the reader's
    stack, which that character puts there and only the end of the value takes
    away.

    * `Reader.Settled.run`: what is settled stays so.
    * `exists_first_of_read`: the value and the first character of its text. -/

namespace MessageBus.Json

/-- Whether a value is an object. -/
def isObject : Json → Bool
  | .obj _ => true
  | _ => false

namespace Reader

variable {s s' : State} {c : Char} {b : Bool} {stack : List Frame} {v : Json}

/-! ## What is settled in a state -/

/-- Whether a container is an object. -/
def Frame.isObject : Frame → Bool
  | .object _ _ => true
  | .array _ => false

/-- Whether the outermost of the open containers is an object. -/
def outermost? : List Frame → Option Bool
  | [] => none
  | frame :: rest => (outermost? rest).or (some frame.isObject)

/-- Whether the value at hand is an object, once it has begun. -/
def Mode.isObject? : Mode → Option Bool
  | .complete v | .literal _ v => some v.isObject
  | .string false _ _ | .number _ => some false
  | _ => none

/-- Whether the text is of an object, once that is settled: by the outermost
    container, or by the value at hand if nothing is open. -/
def State.isObject? (s : State) : Option Bool := (outermost? s.stack).or s.mode.isObject?

/-- A container that may still end without a member is on top of the stack. -/
def State.TopFits (s : State) : Prop :=
  match s.mode with
  | .firstItem => ∃ items rest, s.stack = .array items :: rest
  | .firstName => ∃ fields name rest, s.stack = .object fields name :: rest
  | _ => True

/-- With a container open the value at hand settles nothing. -/
@[simp] theorem isObject_cons (frame : Frame) (rest : List Frame) (mode : Mode) :
    State.isObject? ⟨frame :: rest, mode⟩ = (outermost? rest).or (some frame.isObject) := by
  simp [State.isObject?, outermost?]

/-! ## One character -/

theorem eq_of_push {frame : Frame} {mode : Mode} (h : push stack frame mode = some s') :
    s' = ⟨frame :: stack, mode⟩ := by
  unfold push at h
  split at h
  · exact (Option.some.inj h).symm
  · cases h

/-- A blank, a container that opens, or a value of another form. -/
theorem startValue_cases (h : startValue stack c = some s') :
    (isSpace c = true ∧ s' = ⟨stack, .value⟩) ∨
    (c = '[' ∧ s' = ⟨.array [] :: stack, .firstItem⟩) ∨
    (c = '\x7b' ∧ s' = ⟨.object [] "" :: stack, .firstName⟩) ∨
    (isSpace c = false ∧ c ≠ '\x7b' ∧ s'.stack = stack ∧ s'.mode.isObject? = some false) := by
  unfold startValue at h
  split at h
  · next hspace => exact .inl ⟨hspace, (Option.some.inj h).symm⟩
  · next hspace =>
    split at h
    · next hbracket => exact .inr (.inl ⟨hbracket, eq_of_push h⟩)
    · split at h
      · next hbrace => exact .inr (.inr (.inl ⟨hbrace, eq_of_push h⟩))
      · next hbrace =>
        refine .inr (.inr (.inr ⟨(Bool.not_eq_true _).mp hspace, hbrace, ?_⟩))
        -- a string, one of three literals or a number
        repeat' split at h
        all_goals cases h
        all_goals exact ⟨rfl, rfl⟩

theorem isObject_startValue (h : startValue stack c = some s') :
    s'.isObject? = (outermost? stack).or (if isSpace c then none else some (c == '\x7b')) := by
  rcases startValue_cases h with ⟨hspace, rfl⟩ | ⟨rfl, rfl⟩ | ⟨rfl, rfl⟩ | ⟨hspace, hc, hs, hmode⟩
  · rw [if_pos hspace]
    rfl
  · exact isObject_cons ..
  · exact isObject_cons ..
  · rw [State.isObject?, hs, hmode, hspace, beq_false_of_ne hc]
    rfl

theorem topFits_of_mode (h : s.mode.isObject? = some b) : s.TopFits := by
  unfold State.TopFits
  split
  · next hmode => simp [hmode, Mode.isObject?] at h
  · next hmode => simp [hmode, Mode.isObject?] at h
  · trivial

theorem topFits_startValue (h : startValue stack c = some s') : s'.TopFits := by
  rcases startValue_cases h with ⟨-, rfl⟩ | ⟨-, rfl⟩ | ⟨-, rfl⟩ | ⟨-, -, -, hmode⟩
  · trivial
  · exact ⟨_, _, rfl⟩
  · exact ⟨_, _, _, rfl⟩
  · exact topFits_of_mode hmode

theorem isObject_afterValue (h : afterValue stack v c = some s') :
    s'.isObject? = State.isObject? ⟨stack, .complete v⟩ := by
  unfold afterValue at h
  split at h
  · cases h
    rfl
  · split at h
    · cases h
    · next items rest =>
      -- the array goes on, or it ends and is the value at hand
      split at h
      · cases h
        simp [Frame.isObject]
      · split at h
        · cases h
          rw [isObject_cons]
          rfl
        · cases h
    · next fields name rest =>
      split at h
      · cases h
        simp [Frame.isObject]
      · split at h
        · cases h
          rw [isObject_cons]
          rfl
        · cases h

theorem outermost_setName {stack' : List Frame} {name : String}
    (h : setName stack name = some stack') : outermost? stack' = outermost? stack := by
  unfold setName at h
  split at h
  · cases h
    rfl
  · cases h

/-- What may follow a value leaves the stack as it has to be. -/
theorem topFits_afterValue (h : afterValue stack v c = some s') : s'.TopFits := by
  unfold afterValue at h
  repeat' split at h
  all_goals cases h
  all_goals trivial

/-! ## What is settled stays so -/

/-- It is settled whether the text is of an object. -/
structure Settled (b : Bool) (s : State) : Prop where
  value : s.isObject? = some b
  top : s.TopFits

theorem Settled.of_outermost (h : outermost? s.stack = some b) (htop : s.TopFits) :
    Settled b s := by
  refine ⟨?_, htop⟩
  rw [State.isObject?, h, Option.some_or]

theorem Settled.startValue (hb : outermost? stack = some b)
    (h : Reader.startValue stack c = some s') : Settled b s' := by
  refine ⟨?_, topFits_startValue h⟩
  rw [isObject_startValue h, hb, Option.some_or]

theorem Settled.afterValue (hb : State.isObject? ⟨stack, .complete v⟩ = some b)
    (h : Reader.afterValue stack v c = some s') : Settled b s' := by
  refine ⟨?_, topFits_afterValue h⟩
  rw [isObject_afterValue h, hb]

/-- One more character settles nothing anew: a value begins or ends inside of the
    outermost container, or it is itself what the text is of. -/
theorem Settled.step (hs : Settled b s) (h : Reader.step s c = some s') : Settled b s' := by
  obtain ⟨hb, htop⟩ := hs
  obtain ⟨stack, mode⟩ := s
  -- where no value has begun, something is open
  have hopen : mode.isObject? = none → outermost? stack = some b := by
    intro hnone
    rwa [State.isObject?, hnone, Option.or_none] at hb
  cases mode with
  | value => exact .startValue (hopen rfl) h
  | firstItem =>
    simp only [Reader.step] at h
    split at h
    · cases h
      exact ⟨hb, htop⟩
    · split at h
      · -- the array ends and is the value at hand
        cases h
        obtain ⟨items, rest, rfl⟩ := htop
        rw [isObject_cons] at hb
        exact ⟨hb, trivial⟩
      · exact .startValue (hopen rfl) h
  | firstName =>
    simp only [Reader.step] at h
    split at h
    · cases h
      exact ⟨hb, htop⟩
    · split at h
      · -- the object ends and is the value at hand
        cases h
        obtain ⟨fields, name, rest, rfl⟩ := htop
        rw [isObject_cons] at hb
        exact ⟨hb, trivial⟩
      · split at h
        · cases h
          exact .of_outermost (hopen rfl) trivial
        · cases h
  | name =>
    simp only [Reader.step] at h
    split at h
    · cases h
      exact ⟨hb, htop⟩
    · split at h
      · cases h
        exact .of_outermost (hopen rfl) trivial
      · cases h
  | colon name =>
    simp only [Reader.step] at h
    split at h
    · cases h
      exact ⟨hb, htop⟩
    · split at h
      · obtain ⟨stack', hstack', rfl⟩ := Option.map_eq_some_iff.mp h
        refine .of_outermost ?_ trivial
        rw [outermost_setName hstack', hopen rfl]
      · cases h
  | complete v => exact .afterValue hb h
  | string isName chars escape =>
    simp only [Reader.step] at h
    split at h
    · cases h
      -- a name has an object around it, a value need not
      cases isName with
      | true => exact .of_outermost (hopen rfl) trivial
      | false => exact ⟨hb, trivial⟩
    · obtain ⟨found, -, rfl⟩ := Option.map_eq_some_iff.mp h
      refine ⟨?_, trivial⟩
      cases isName with
      | true => exact hb
      | false => exact hb
  | number chars =>
    simp only [Reader.step] at h
    split at h
    · cases h
      exact ⟨hb, trivial⟩
    · -- a number ends with what follows it
      obtain ⟨n, -, hafter⟩ := Option.bind_eq_some_iff.mp h
      exact .afterValue hb hafter
  | literal missing v =>
    simp only [Reader.step] at h
    split at h
    · exact .afterValue hb h
    · split at h
      · cases h
        exact ⟨hb, trivial⟩
      · cases h

theorem Settled.run (hs : Settled b s) {cs : List Char} (h : Reader.run s cs = some s') :
    Settled b s' := by
  induction cs generalizing s with
  | nil =>
    cases h
    exact hs
  | cons c cs ih =>
    rw [run_cons] at h
    obtain ⟨next, hnext, hrest⟩ := Option.bind_eq_some_iff.mp h
    exact ih (hs.step hnext) hrest

theorem Settled.finish (hs : Settled b s) (h : s.finish = some v) : v.isObject = b := by
  obtain ⟨hb, -⟩ := hs
  unfold State.finish at h
  split at h
  · next hstack hmode =>
    cases h
    rw [State.isObject?, hstack, hmode] at hb
    exact Option.some.inj hb
  · next hstack hmode =>
    obtain ⟨n, -, rfl⟩ := Option.map_eq_some_iff.mp h
    rw [State.isObject?, hstack, hmode] at hb
    exact Option.some.inj hb
  · next hstack hmode =>
    cases h
    rw [State.isObject?, hstack, hmode] at hb
    exact Option.some.inj hb
  · cases h

end Reader

/-! ## The first character -/

/-- The text of a value begins, after blanks, with a brace if the value is an
    object, and with something else if it is not. -/
theorem exists_first_of_read {text : String} {v : Json} (h : read? text = some v) :
    ∃ blanks c rest, text.toList = blanks ++ c :: rest ∧
      (∀ blank ∈ blanks, Reader.isSpace blank = true) ∧ Reader.isSpace c = false ∧
      v.isObject = (c == '\x7b') := by
  obtain ⟨s, hrun, hfinish⟩ := Option.bind_eq_some_iff.mp h
  generalize text.toList = cs at hrun
  induction cs with
  | nil =>
    cases hrun
    cases hfinish
  | cons c cs ih =>
    rw [run_cons] at hrun
    obtain ⟨next, hnext, hrest⟩ := Option.bind_eq_some_iff.mp hrun
    by_cases hspace : Reader.isSpace c = true
    · -- a blank leaves the reader where it was
      have hstart : next = Reader.State.start := by
        simpa [Reader.step, Reader.State.start, Reader.startValue, hspace] using hnext.symm
      obtain ⟨blanks, first, rest, hcs, hblanks, hfirst⟩ := ih (hstart ▸ hrest)
      refine ⟨c :: blanks, first, rest, by rw [hcs, List.cons_append], ?_, hfirst⟩
      intro blank hblank
      rcases List.mem_cons.mp hblank with rfl | hblank
      · exact hspace
      · exact hblanks blank hblank
    · have hsettled : Reader.Settled (c == '\x7b') next := by
        refine ⟨?_, Reader.topFits_startValue hnext⟩
        rw [Reader.isObject_startValue hnext, if_neg hspace]
        rfl
      exact ⟨[], c, cs, rfl, by simp, (Bool.not_eq_true _).mp hspace,
        (hsettled.run hrest).finish hfinish⟩

end MessageBus.Json
