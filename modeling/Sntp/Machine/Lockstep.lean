import Sntp.Machine.Program

/-! # Two runs side by side

Two programs run in lockstep when they take the same way from two states: both return, with values
and states that a relation demands, or both stop for the same reason. As with `Wp` the rules compute,
one for each way a program is built.
-/

namespace Machine

variable {ε σ α α' β β' : Type}

/-- Both runs return as `returned` demands, or both stop for the same reason. -/
def Lockstep (first : EStateM ε σ α) (second : EStateM ε σ α') (returned : α → α' → σ → σ → Prop)
    (state state' : σ) : Prop :=
  match first state, second state' with
  | .ok value final, .ok value' final' => returned value value' final final'
  | .error stop _, .error stop' _ => stop = stop'
  | _, _ => False

section Rules

variable {returned : β → β' → σ → σ → Prop} {state state' : σ}

theorem lockstep_bind {first : EStateM ε σ α} {second : EStateM ε σ α'}
    {next : α → EStateM ε σ β} {next' : α' → EStateM ε σ β'}
    (holds : Lockstep first second (fun value value' => Lockstep (next value) (next' value') returned)
      state state') :
    Lockstep (first >>= next) (second >>= next') returned state state' := by
  simp only [Lockstep, bind, EStateM.bind] at *
  cases outcome : first state with
  | ok value final =>
    cases outcome' : second state' with
    | ok value' final' => simpa only [outcome, outcome'] using holds
    | error stop' final' => simp only [outcome, outcome'] at holds
  | error stop final =>
    cases outcome' : second state' with
    | ok value' final' => simp only [outcome, outcome'] at holds
    | error stop' final' => simpa only [outcome, outcome'] using holds

@[simp] theorem lockstep_get {returned : σ → σ → σ → σ → Prop} :
    Lockstep (get : EStateM ε σ σ) get returned state state' ↔ returned state state' state state' :=
  Iff.rfl

@[simp] theorem lockstep_modify {returned : PUnit → PUnit → σ → σ → Prop} (f f' : σ → σ) :
    Lockstep (modify f : EStateM ε σ PUnit) (modify f') returned state state' ↔
      returned ⟨⟩ ⟨⟩ (f state) (f' state') := Iff.rfl

theorem lockstep_ite {condition condition' : Prop} [Decidable condition] [Decidable condition']
    {first second : EStateM ε σ β} {first' second' : EStateM ε σ β'}
    (same : condition ↔ condition')
    (holds : condition → Lockstep first first' returned state state')
    (fails : ¬ condition → Lockstep second second' returned state state') :
    Lockstep (if condition then first else second) (if condition' then first' else second') returned
      state state' := by
  by_cases test : condition
  · rw [if_pos test, if_pos (same.mp test)]
    exact holds test
  · rw [if_neg test, if_neg (same.not.mp test)]
    exact fails test

theorem Lockstep.mono {first : EStateM ε σ β} {second : EStateM ε σ β'}
    {returned' : β → β' → σ → σ → Prop} (holds : Lockstep first second returned state state')
    (weaken : ∀ value value' final final', returned value value' final final' →
      returned' value value' final final') :
    Lockstep first second returned' state state' := by
  simp only [Lockstep] at *
  cases outcome : first state with
  | ok value final =>
    cases outcome' : second state' with
    | ok value' final' => exact weaken _ _ _ _ (by simpa only [outcome, outcome'] using holds)
    | error stop' final' => simp only [outcome, outcome'] at holds
  | error stop final =>
    cases outcome' : second state' with
    | ok value' final' => simp only [outcome, outcome'] at holds
    | error stop' final' => simpa only [outcome, outcome'] using holds

/-- The second run returns when the first does. -/
theorem Lockstep.of_ok {first : EStateM ε σ β} {second : EStateM ε σ β'} {value : β} {final : σ}
    (holds : Lockstep first second returned state state') (outcome : first state = .ok value final) :
    ∃ value' final', second state' = .ok value' final' ∧ returned value value' final final' := by
  simp only [Lockstep, outcome] at holds
  cases outcome' : second state' with
  | ok value' final' => exact ⟨value', final', rfl, by simpa only [outcome'] using holds⟩
  | error stop' final' => simp only [outcome'] at holds

/-- The rule for programs whose results are known. -/
theorem lockstep_of_ok {first : EStateM ε σ β} {second : EStateM ε σ β'} {value : β} {value' : β'}
    {final final' : σ} (outcome : first state = .ok value final)
    (outcome' : second state' = .ok value' final') :
    Lockstep first second returned state state' ↔ returned value value' final final' := by
  rw [Lockstep, outcome, outcome']

end Rules

section Loops

variable {outOfFuel : ε} {body : α → EStateM ε σ (α ⊕ β)} {body' : α' → EStateM ε σ (α' ⊕ β')}
  {related : α → α' → σ → σ → Prop} {result : β → β' → σ → σ → Prop}

/-- Both bodies continue with related locals, or both leave their loops. -/
def Abreast (related : α → α' → σ → σ → Prop) (result : β → β' → σ → σ → Prop) :
    α ⊕ β → α' ⊕ β' → σ → σ → Prop
  | .inl next, .inl next' => related next next'
  | .inr value, .inr value' => result value value'
  | _, _ => fun _ _ => False

variable (step : ∀ locals locals' state state', related locals locals' state state' →
  Lockstep (body locals) (body' locals') (Abreast related result) state state')
include step

/-- Loops whose bodies run in lockstep run in lockstep. -/
theorem lockstep_loop (fuel : ℕ) {locals : α} {locals' : α'} {state state' : σ}
    (start : related locals locals' state state') :
    Lockstep (loop outOfFuel body fuel locals) (loop outOfFuel body' fuel locals') result
      state state' := by
  induction fuel generalizing locals locals' state state' with
  | zero => exact rfl
  | succ fuel ih =>
    rw [loop, loop]
    apply lockstep_bind
    refine (step locals locals' state state' start).mono ?_
    rintro (next | value) (next' | value') final final' abreast
    · exact ih abreast
    · exact abreast.elim
    · exact abreast.elim
    · exact abreast

/-- The second loop goes round as often as the first. -/
theorem Turns.lockstep {turns : ℕ} {locals next : α} {state final : σ}
    (run : Turns body turns locals state next final) {locals' : α'} {state' : σ}
    (start : related locals locals' state state') :
    ∃ next' final', Turns body' turns locals' state' next' final' ∧ related next next' final final' := by
  induction run with
  | none => exact ⟨locals', state', .none, start⟩
  | @next turns locals between locals'' state middle state'' _ turn ih =>
    obtain ⟨between', middle', run', middle_related⟩ := ih start
    obtain ⟨value, final', turn', abreast⟩ := (step _ _ _ _ middle_related).of_ok turn
    cases value with
    | inl next' => exact ⟨next', final', .next run' turn', abreast⟩
    | inr value => exact abreast.elim

end Loops

end Machine
