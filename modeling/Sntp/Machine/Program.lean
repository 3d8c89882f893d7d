import Mathlib.Order.Basic

/-! # Programs with a state, stops and loops

A program is an `EStateM`: it returns a value or stops, and leaves a state in both cases. `Wp` says
what holds of the two outcomes from a given state; it computes, so the rules below are equations.
A `while` loop is iteration of its body up to a number of turns, after which the run stops; a
statement made for every number of turns then covers the runs that never leave the loop.
-/

namespace Machine

variable {ε σ α β : Type}

/-- The outcome from `state` satisfies `returned` or `stopped`. -/
def Wp (program : EStateM ε σ α) (returned : α → σ → Prop) (stopped : ε → σ → Prop)
    (state : σ) : Prop :=
  match program state with
  | .ok value final => returned value final
  | .error stop final => stopped stop final

variable {returned : β → σ → Prop} {stopped : ε → σ → Prop} {state : σ}

@[simp] theorem wp_pure (value : β) :
    Wp (pure value : EStateM ε σ β) returned stopped state ↔ returned value state := Iff.rfl

@[simp] theorem wp_throw (stop : ε) :
    Wp (throw stop : EStateM ε σ β) returned stopped state ↔ stopped stop state := Iff.rfl

@[simp] theorem wp_bind (program : EStateM ε σ α) (next : α → EStateM ε σ β) :
    Wp (program >>= next) returned stopped state ↔
      Wp program (fun value => Wp (next value) returned stopped) stopped state := by
  simp only [Wp, bind, EStateM.bind]
  cases program state <;> rfl

@[simp] theorem wp_map (program : EStateM ε σ α) (f : α → β) :
    Wp (f <$> program) returned stopped state ↔
      Wp program (fun value => returned (f value)) stopped state := by
  simp only [Wp, Functor.map, EStateM.map]
  cases program state <;> rfl

@[simp] theorem wp_get {returned : σ → σ → Prop} :
    Wp (get : EStateM ε σ σ) returned stopped state ↔ returned state state := Iff.rfl

@[simp] theorem wp_modify {returned : PUnit → σ → Prop} (f : σ → σ) :
    Wp (modify f : EStateM ε σ PUnit) returned stopped state ↔ returned ⟨⟩ (f state) := Iff.rfl

theorem wp_ite (condition : Prop) [Decidable condition] (first second : EStateM ε σ β) :
    Wp (if condition then first else second) returned stopped state ↔
      (condition → Wp first returned stopped state) ∧
        (¬ condition → Wp second returned stopped state) := by
  split
  · next holds => simp [holds]
  · next fails => simp [fails]

/-- Weakening of both outcomes. -/
theorem Wp.mono {program : EStateM ε σ β} {returned' : β → σ → Prop} {stopped' : ε → σ → Prop}
    (holds : Wp program returned stopped state)
    (onReturn : ∀ value final, returned value final → returned' value final)
    (onStop : ∀ stop final, stopped stop final → stopped' stop final) :
    Wp program returned' stopped' state := by
  simp only [Wp] at *
  cases outcome : program state with
  | ok value final => exact onReturn value final (by simpa only [outcome] using holds)
  | error stop final => exact onStop stop final (by simpa only [outcome] using holds)

/-- Two statements about one run. -/
theorem Wp.and {program : EStateM ε σ β} {returned' : β → σ → Prop} {stopped' : ε → σ → Prop}
    (first : Wp program returned stopped state) (second : Wp program returned' stopped' state) :
    Wp program (fun value final => returned value final ∧ returned' value final)
      (fun stop final => stopped stop final ∧ stopped' stop final) state := by
  simp only [Wp] at *
  cases outcome : program state with
  | ok value final =>
    simp only [outcome] at first second
    exact ⟨first, second⟩
  | error stop final =>
    simp only [outcome] at first second
    exact ⟨first, second⟩

/-- The rule for a program whose result is known. -/
theorem Wp.of_ok {program : EStateM ε σ β} {value : β} {final : σ}
    (holds : Wp program returned stopped state) (outcome : program state = .ok value final) :
    returned value final := by
  simpa only [Wp, outcome] using holds

theorem Wp.of_error {program : EStateM ε σ β} {stop : ε} {final : σ}
    (holds : Wp program returned stopped state) (outcome : program state = .error stop final) :
    stopped stop final := by
  simpa only [Wp, outcome] using holds

/-- A property of the whole result, outcome by outcome. -/
theorem wp_result {program : EStateM ε σ β} {property : EStateM.Result ε σ β → Prop} :
    Wp program (fun value final => property (.ok value final))
      (fun stop final => property (.error stop final)) state ↔ property (program state) := by
  rw [Wp]
  cases program state <;> rfl

/-- The outcome is the outcome of the run. -/
theorem wp_self (program : EStateM ε σ β) :
    Wp program (fun value final => program state = .ok value final)
      (fun stop final => program state = .error stop final) state :=
  wp_result.mpr rfl

theorem wp_of_ok {program : EStateM ε σ α} {returned : α → σ → Prop} {value : α} {final : σ}
    (outcome : program state = .ok value final) :
    Wp program returned stopped state ↔ returned value final := by
  rw [Wp, outcome]

theorem wp_of_error {program : EStateM ε σ β} {stop : ε} {final : σ}
    (outcome : program state = .error stop final) :
    Wp program returned stopped state ↔ stopped stop final := by
  rw [Wp, outcome]

/-- Evaluation as a rule. -/
theorem wp_eq {program : EStateM ε σ β} {result : EStateM.Result ε σ β} :
    Wp program (fun value final => result = .ok value final)
      (fun stop final => result = .error stop final) state ↔ program state = result :=
  wp_result.trans eq_comm

/-- Iteration of `body`, which either continues with new locals or leaves the loop. -/
def loop (outOfFuel : ε) (body : α → EStateM ε σ (α ⊕ β)) : ℕ → α → EStateM ε σ β
  | 0, _ => throw outOfFuel
  | fuel + 1, locals => do
    match ← body locals with
    | .inl next => loop outOfFuel body fuel next
    | .inr value => pure value

/-- The invariant rule: a body that keeps the invariant when it continues leaves the loop in a
state that satisfies the postcondition. -/
theorem wp_loop {outOfFuel : ε} {body : α → EStateM ε σ (α ⊕ β)} (invariant : α → σ → Prop)
    (step : ∀ locals state, invariant locals state →
      Wp (body locals) (Sum.elim invariant returned) stopped state)
    (exhausted : ∀ locals state, invariant locals state → stopped outOfFuel state)
    (fuel : ℕ) (locals : α) (holds : invariant locals state) :
    Wp (loop outOfFuel body fuel locals) returned stopped state := by
  induction fuel generalizing locals state with
  | zero => exact exhausted locals state holds
  | succ fuel ih =>
    rw [loop, wp_bind]
    refine (step locals state holds).mono ?_ fun _ _ stop => stop
    intro next final kept
    cases next with
    | inl next => exact ih next kept
    | inr value => exact kept

/-- The loop has gone round a number of times. -/
inductive Turns (body : α → EStateM ε σ (α ⊕ β)) : ℕ → α → σ → α → σ → Prop
  | none {locals : α} {state : σ} : Turns body 0 locals state locals state
  | next {turns : ℕ} {locals between locals' : α} {state middle state' : σ} :
      Turns body turns locals state between middle →
      body between middle = .ok (.inl locals') state' →
      Turns body (turns + 1) locals state locals' state'

/-- What every turn keeps holds after any number of them. -/
theorem Turns.invariant {body : α → EStateM ε σ (α ⊕ β)} {turns : ℕ} {locals next : α}
    {state final : σ} (run : Turns body turns locals state next final) (holds : α → σ → Prop)
    (step : ∀ locals state, holds locals state →
      Wp (body locals) (Sum.elim holds fun _ _ => True) (fun _ _ => True) state)
    (start : holds locals state) : holds next final := by
  induction run with
  | none => exact start
  | next _ turn ih => exact (step _ _ (ih start)).of_ok turn

section

variable {outOfFuel : ε} {body : α → EStateM ε σ (α ⊕ β)} {locals next : α} {final : σ}

theorem loop_of_inl (fuel : ℕ) (turn : body locals state = .ok (.inl next) final) :
    loop outOfFuel body (fuel + 1) locals state = loop outOfFuel body fuel next final := by
  rw [← wp_eq, loop, wp_bind, wp_of_ok turn, wp_eq]

theorem loop_of_inr (fuel : ℕ) {value : β} (turn : body locals state = .ok (.inr value) final) :
    loop outOfFuel body (fuel + 1) locals state = .ok value final := by
  rw [← wp_eq, loop, wp_bind, wp_of_ok turn, wp_pure]

theorem loop_of_error (fuel : ℕ) {stop : ε} (turn : body locals state = .error stop final) :
    loop outOfFuel body (fuel + 1) locals state = .error stop final := by
  rw [← wp_eq, loop, wp_bind, wp_of_error turn]

/-- After its turns the loop runs on with the fuel that is left. -/
theorem Turns.loop_add {turns : ℕ} (run : Turns body turns locals state next final) (fuel : ℕ) :
    loop outOfFuel body (turns + fuel) locals state = loop outOfFuel body fuel next final := by
  induction run generalizing fuel with
  | none => rw [Nat.zero_add]
  | next _ turn ih =>
    rw [Nat.add_assoc, Nat.add_comm 1 fuel, ih, loop_of_inl fuel turn]

/-- Some number of turns takes the loop to its end. -/
def LoopEnds (outOfFuel : ε) (body : α → EStateM ε σ (α ⊕ β)) (locals : α) (state : σ) : Prop :=
  ∃ fuel, ∀ final, loop outOfFuel body fuel locals state ≠ .error outOfFuel final

theorem loopEnds_of_inr {value : β} (turn : body locals state = .ok (.inr value) final) :
    LoopEnds outOfFuel body locals state :=
  ⟨1, fun _ same => by simp [loop_of_inr 0 turn] at same⟩

theorem loopEnds_of_error {stop : ε} (turn : body locals state = .error stop final)
    (other : stop ≠ outOfFuel) : LoopEnds outOfFuel body locals state :=
  ⟨1, fun _ same => other (EStateM.Result.error.inj ((loop_of_error 0 turn).symm.trans same)).1⟩

theorem loopEnds_iff_of_inl (turn : body locals state = .ok (.inl next) final) :
    LoopEnds outOfFuel body locals state ↔ LoopEnds outOfFuel body next final := by
  constructor
  · rintro ⟨fuel, ends⟩
    cases fuel with
    | zero => exact absurd rfl (ends state)
    | succ fuel => exact ⟨fuel, loop_of_inl fuel turn ▸ ends⟩
  · rintro ⟨fuel, ends⟩
    exact ⟨fuel + 1, (loop_of_inl fuel turn).symm ▸ ends⟩

/-- A loop that a turn leaves as it was never ends. -/
theorem not_loopEnds_of_fixed (turn : body locals state = .ok (.inl locals) state) :
    ¬ LoopEnds outOfFuel body locals state := by
  rintro ⟨fuel, ends⟩
  induction fuel with
  | zero => exact ends state rfl
  | succ fuel ih => exact ih (loop_of_inl fuel turn ▸ ends)

/-- The rule for two loops over one state. When a turn of the first goes through, a turn of the second
does, to the same state and with related locals; then so do the loops. -/
theorem wp_loop_pair {α' β' : Type} {outOfFuel : ε} {body : α → EStateM ε σ (α ⊕ β)}
    {body' : α' → EStateM ε σ (α' ⊕ β')} (related : α → α' → Prop) (result : β → β' → Prop)
    (step : ∀ locals locals' state, related locals locals' →
      Wp (body locals)
        (fun next final => ∃ next', body' locals' state = .ok next' final ∧
          Sum.LiftRel related result next next')
        (fun _ _ => True) state)
    (fuel : ℕ) (locals : α) (locals' : α') (start : related locals locals') :
    Wp (loop outOfFuel body fuel locals)
      (fun value final => ∃ value', loop outOfFuel body' fuel locals' state = .ok value' final ∧
        result value value')
      (fun _ _ => True) state := by
  induction fuel generalizing locals locals' state with
  | zero => trivial
  | succ fuel ih =>
    rw [loop, wp_bind]
    refine (step locals locals' state start).mono ?_ fun _ _ _ => trivial
    rintro _ middle ⟨_, turn, related | result⟩
    · simpa only [loop_of_inl fuel turn] using ih _ _ related
    · exact ⟨_, loop_of_inr fuel turn, result⟩

/-- A loop does what another does, or stops, when its turns do. -/
theorem loop_eq_or_stops {other : α → EStateM ε σ (α ⊕ β)} {stop : ε}
    (step : ∀ locals state,
      body locals state = other locals state ∨ ∃ final, body locals state = .error stop final)
    (fuel : ℕ) (locals : α) (state : σ) :
    loop outOfFuel body fuel locals state = loop outOfFuel other fuel locals state ∨
      ∃ final, loop outOfFuel body fuel locals state = .error stop final := by
  induction fuel generalizing locals state with
  | zero => exact .inl rfl
  | succ fuel ih =>
    rcases step locals state with same | ⟨final, turn⟩
    · cases turn : other locals state with
      | error stop' final =>
        exact .inl ((loop_of_error fuel (same.trans turn)).trans (loop_of_error fuel turn).symm)
      | ok next final =>
        cases next with
        | inr value => exact .inl ((loop_of_inr fuel (same.trans turn)).trans (loop_of_inr fuel turn).symm)
        | inl next =>
          rw [loop_of_inl fuel (same.trans turn), loop_of_inl fuel turn]
          exact ih next final
    · exact .inr ⟨final, loop_of_error fuel turn⟩

end

end Machine
