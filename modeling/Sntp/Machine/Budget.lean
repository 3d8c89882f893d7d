import Sntp.Machine.Program

/-! # Budgets

How much a program adds to a count kept by its state, whether it returns or stops. Budgets add up along
a sequence, and a loop is paid for by a potential of its locals: a turn that goes round again lowers the
potential by what it spends.
-/

namespace Machine

variable {ε σ α β : Type}

/-- The program adds at most `budget` to the count. -/
def Spends (count : σ → ℕ) (budget : ℕ) (program : EStateM ε σ α) (state : σ) : Prop :=
  Wp program (fun _ final => count final ≤ count state + budget)
    (fun _ final => count final ≤ count state + budget) state

variable {count : σ → ℕ} {budget : ℕ} {state : σ}

/-- The rule for sequences: what follows has a budget of its own wherever the program leaves off. -/
theorem spends_bind {program : EStateM ε σ α} {next : α → EStateM ε σ β} {later : ℕ}
    (spends : Spends count budget program state)
    (continues : ∀ value final, program state = .ok value final →
      Spends count later (next value) final) :
    Spends count (budget + later) (program >>= next) state := by
  rw [Spends, wp_bind]
  cases outcome : program state with
  | ok value middle =>
    rw [wp_of_ok outcome]
    have first := Wp.of_ok spends outcome
    exact Wp.mono (continues value middle outcome) (fun _ _ bound => by omega) fun _ _ bound => by omega
  | error stop final =>
    rw [wp_of_error outcome]
    have first := Wp.of_error spends outcome
    omega

/-- The rule for loops. -/
theorem spends_loop {outOfFuel : ε} {body : α → EStateM ε σ (α ⊕ β)} (invariant : α → Prop)
    (potential : α → ℕ)
    (step : ∀ locals state, invariant locals →
      Wp (body locals)
        (fun next final => next.elim
          (fun next => invariant next ∧ count final + potential next ≤ count state + potential locals)
          fun _ => count final ≤ count state + potential locals)
        (fun _ final => count final ≤ count state + potential locals) state)
    (fuel : ℕ) (locals : α) (holds : invariant locals) :
    Spends count (potential locals) (loop outOfFuel body fuel locals) state := by
  refine wp_loop (fun reached between => invariant reached ∧
    count between + potential reached ≤ count state + potential locals) ?_
    (fun _ _ bound => by omega) fuel locals ⟨holds, Nat.le_refl _⟩
  rintro reached between ⟨kept, paid⟩
  refine (step reached between kept).mono ?_ fun _ _ bound => by omega
  rintro (next | value) final outcome
  · exact ⟨outcome.1, Nat.le_trans outcome.2 paid⟩
  · exact Nat.le_trans outcome paid

end Machine
