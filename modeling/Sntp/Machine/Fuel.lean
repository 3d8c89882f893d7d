import Sntp.Machine.Program
import Mathlib.Order.WellFounded

/-! # Total correctness with enough fuel

A program whose loops are bounded by fuel is a family of programs, one for each amount. `WpTotal` says
that from some amount on the outcome no longer depends on it and is as required. Fuel that runs out is
a stop like any other, so a postcondition that rules it out makes termination part of the statement.
The rule for loops asks for a well-founded relation that every turn descends; the body may use the
same fuel for loops of its own.
-/

namespace Machine

variable {ε σ α β : Type}

/-- With enough fuel the outcome from `state` is settled and satisfies `returned` or `stopped`. -/
def WpTotal (program : ℕ → EStateM ε σ α) (returned : α → σ → Prop) (stopped : ε → σ → Prop)
    (state : σ) : Prop :=
  ∃ enough, Wp (program enough) returned stopped state ∧
    ∀ fuel, enough ≤ fuel → program fuel state = program enough state

variable {returned : β → σ → Prop} {stopped : ε → σ → Prop} {state : σ}

/-- Only the outcome counts. -/
private theorem wp_congr {program other : EStateM ε σ β} {start : σ}
    (holds : Wp program returned stopped state) (same : other start = program state) :
    Wp other returned stopped start := by
  rwa [Wp, same]

/-- A program that uses no fuel. -/
theorem wpTotal_const {program : EStateM ε σ β} (holds : Wp program returned stopped state) :
    WpTotal (fun _ => program) returned stopped state :=
  ⟨0, holds, fun _ _ => rfl⟩

/-- A program whose outcome is known as soon as there is fuel. -/
theorem wpTotal_of_succ {program : ℕ → EStateM ε σ β} {other : EStateM ε σ β} {start : σ}
    (known : ∀ fuel, program (fuel + 1) state = other start)
    (holds : Wp other returned stopped start) : WpTotal program returned stopped state := by
  refine ⟨1, wp_congr holds (known 0), fun fuel more => ?_⟩
  obtain ⟨rest, rfl⟩ := Nat.exists_eq_add_of_le' more
  rw [known, known 0]

/-- Weakening of both outcomes. -/
theorem WpTotal.mono {program : ℕ → EStateM ε σ β} {returned' : β → σ → Prop}
    {stopped' : ε → σ → Prop} (holds : WpTotal program returned stopped state)
    (onReturn : ∀ value final, returned value final → returned' value final)
    (onStop : ∀ stop final, stopped stop final → stopped' stop final) :
    WpTotal program returned' stopped' state := by
  obtain ⟨enough, outcome, settled⟩ := holds
  exact ⟨enough, outcome.mono onReturn onStop, settled⟩

/-- Programs that agree with enough fuel. -/
theorem WpTotal.congr {program other : ℕ → EStateM ε σ β}
    (holds : WpTotal program returned stopped state)
    (same : ∀ fuel, other fuel state = program fuel state) :
    WpTotal other returned stopped state := by
  obtain ⟨enough, outcome, settled⟩ := holds
  exact ⟨enough, wp_congr outcome (same enough), fun fuel more => by
    rw [same, same, settled fuel more]⟩

/-- The rule for sequences: what follows needs its own fuel. -/
theorem wpTotal_bind {program : ℕ → EStateM ε σ α} {next : ℕ → α → EStateM ε σ β}
    (holds : WpTotal program
      (fun value => WpTotal (fun fuel => next fuel value) returned stopped) stopped state) :
    WpTotal (fun fuel => program fuel >>= next fuel) returned stopped state := by
  obtain ⟨enough, outcome, settled⟩ := holds
  cases first : program enough state with
  | error stop final =>
    have ends (fuel : ℕ) (more : enough ≤ fuel) :
        (program fuel >>= next fuel) state = .error stop final := by
      rw [← wp_eq, wp_bind, wp_of_error ((settled fuel more).trans first)]
    refine ⟨enough, ?_, fun fuel more => (ends fuel more).trans (ends enough le_rfl).symm⟩
    rw [wp_of_error (ends enough le_rfl)]
    exact outcome.of_error first
  | ok value middle =>
    obtain ⟨more, rest, continued⟩ := outcome.of_ok first
    have goes (fuel : ℕ) (some : max enough more ≤ fuel) :
        (program fuel >>= next fuel) state = next more value middle := by
      rw [← wp_eq, wp_bind, wp_of_ok ((settled fuel (by omega)).trans first), wp_eq]
      exact continued fuel (by omega)
    exact ⟨max enough more, wp_congr rest (goes _ le_rfl), fun fuel some =>
      (goes fuel some).trans (goes _ le_rfl).symm⟩

/-- What follows a program without fuel may start from any outcome of it. -/
theorem wpTotal_bind_const {program : EStateM ε σ α} {next : ℕ → α → EStateM ε σ β}
    (holds : Wp program (fun value => WpTotal (fun fuel => next fuel value) returned stopped) stopped
      state) :
    WpTotal (fun fuel => program >>= next fuel) returned stopped state :=
  wpTotal_bind (wpTotal_const holds)

theorem wpTotal_ite (condition : Prop) [Decidable condition] {first second : ℕ → EStateM ε σ β}
    (onTrue : condition → WpTotal first returned stopped state)
    (onFalse : ¬ condition → WpTotal second returned stopped state) :
    WpTotal (fun fuel => if condition then first fuel else second fuel) returned stopped state := by
  by_cases holds : condition
  · exact (onTrue holds).congr fun fuel => by rw [if_pos holds]
  · exact (onFalse holds).congr fun fuel => by rw [if_neg holds]

section Loop

variable {outOfFuel : ε} {body : ℕ → α → EStateM ε σ (α ⊕ β)}

/-- A loop whose body and turns each have enough fuel. -/
private def Ends (outOfFuel : ε) (body : ℕ → α → EStateM ε σ (α ⊕ β)) (returned : β → σ → Prop)
    (stopped : ε → σ → Prop) (locals : α) (state : σ) : Prop :=
  ∃ enough result, (∀ inner outer, enough ≤ inner → enough ≤ outer →
    loop outOfFuel (body inner) outer locals state = result) ∧
    Wp (fun _ => result) returned stopped state

private theorem ends_of_turn {invariant : α → σ → Prop} {descends : α × σ → α × σ → Prop}
    (wf : WellFounded descends)
    (step : ∀ locals state, invariant locals state →
      WpTotal (fun fuel => body fuel locals)
        (fun next final => next.elim
          (fun next => invariant next final ∧ descends (next, final) (locals, state))
          fun value => returned value final) stopped state) :
    ∀ position : α × σ, invariant position.1 position.2 →
      Ends outOfFuel body returned stopped position.1 position.2 := by
  intro position
  induction position using wf.induction with
  | _ position ih =>
    intro holds
    obtain ⟨enough, outcome, settled⟩ := step position.1 position.2 holds
    cases turn : body enough position.1 position.2 with
    | error stop final =>
      refine ⟨enough + 1, .error stop final, fun inner outer some many => ?_, ?_⟩
      · obtain ⟨fuel, rfl⟩ := Nat.exists_eq_add_of_le' (show 1 ≤ outer by omega)
        exact loop_of_error fuel ((settled inner (by omega)).trans turn)
      · exact outcome.of_error turn
    | ok next final =>
      have kept := outcome.of_ok turn
      cases next with
      | inr value =>
        refine ⟨enough + 1, .ok value final, fun inner outer some many => ?_, kept⟩
        obtain ⟨fuel, rfl⟩ := Nat.exists_eq_add_of_le' (show 1 ≤ outer by omega)
        exact loop_of_inr fuel ((settled inner (by omega)).trans turn)
      | inl next =>
        obtain ⟨more, result, goes, ends⟩ := ih (next, final) kept.2 kept.1
        refine ⟨max enough more + 1, result, fun inner outer some many => ?_, ends⟩
        obtain ⟨fuel, rfl⟩ := Nat.exists_eq_add_of_le' (show 1 ≤ outer by omega)
        rw [loop_of_inl fuel ((settled inner (by omega)).trans turn)]
        exact goes inner fuel (by omega) (by omega)

/-- The rule for loops: a body that keeps the invariant and descends whenever it continues. -/
theorem wpTotal_loop (invariant : α → σ → Prop) {descends : α × σ → α × σ → Prop}
    (wf : WellFounded descends)
    (step : ∀ locals state, invariant locals state →
      WpTotal (fun fuel => body fuel locals)
        (fun next final => next.elim
          (fun next => invariant next final ∧ descends (next, final) (locals, state))
          fun value => returned value final) stopped state)
    (locals : α) (holds : invariant locals state) :
    WpTotal (fun fuel => loop outOfFuel (body fuel) fuel locals) returned stopped state := by
  have some : Ends outOfFuel body returned stopped locals state := ends_of_turn wf step (locals, state) holds
  obtain ⟨enough, result, goes, ends⟩ := some
  exact ⟨enough, wp_congr ends (goes enough enough le_rfl le_rfl), fun fuel more =>
    (goes fuel fuel more more).trans (goes enough enough le_rfl le_rfl).symm⟩

/-- The same with a number that every turn makes smaller. -/
theorem wpTotal_loop_measure (invariant : α → σ → Prop) (measure : α → σ → ℕ)
    (step : ∀ locals state, invariant locals state →
      WpTotal (fun fuel => body fuel locals)
        (fun next final => next.elim
          (fun next => invariant next final ∧ measure next final < measure locals state)
          fun value => returned value final) stopped state)
    (locals : α) (holds : invariant locals state) :
    WpTotal (fun fuel => loop outOfFuel (body fuel) fuel locals) returned stopped state :=
  wpTotal_loop invariant (InvImage.wf (fun position : α × σ => measure position.1 position.2)
    Nat.lt_wfRel.wf) step locals holds

end Loop

end Machine
