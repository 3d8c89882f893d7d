import Sntp.Machine.Fuel

/-! # A loop that is fed by another loop

A consumer asks for an item in every turn, and a producer loops until it has one. Seen from outside
this is a single loop, in which a turn of the producer that has nothing yet leaves the consumer alone.
What is proved about the single loop holds of the two.
-/

namespace Machine

variable {ε σ α β τ : Type}

/-- A turn of the producer, and of the consumer when there is an item. -/
def feedTurn (produce : EStateM ε σ (Unit ⊕ τ)) (consume : α → τ → EStateM ε σ (α ⊕ β)) (locals : α) :
    EStateM ε σ (α ⊕ β) := do
  match ← produce with
  | .inl () => return .inl locals
  | .inr item => consume locals item

/-- The consumer, whose producer has its own fuel. -/
def consumeNext (outOfFuel : ε) (produce : EStateM ε σ (Unit ⊕ τ))
    (consume : α → τ → EStateM ε σ (α ⊕ β)) (fuel : ℕ) (locals : α) : EStateM ε σ (α ⊕ β) := do
  consume locals (← loop outOfFuel (fun _ => produce) fuel ())

variable {outOfFuel : ε} {produce : EStateM ε σ (Unit ⊕ τ)} {consume : α → τ → EStateM ε σ (α ⊕ β)}
  {locals : α} {state : σ} {returned : β → σ → Prop} {stopped : ε → σ → Prop}

section

variable {middle : σ}

theorem feedTurn_of_inl (turn : produce state = .ok (.inl ()) middle) :
    feedTurn produce consume locals state = .ok (.inl locals) middle := by
  rw [← wp_eq, feedTurn, wp_bind, wp_of_ok turn, wp_pure]

theorem feedTurn_of_inr {item : τ} (turn : produce state = .ok (.inr item) middle) :
    feedTurn produce consume locals state = consume locals item middle := by
  rw [← wp_eq, feedTurn, wp_bind, wp_of_ok turn, wp_eq]

theorem feedTurn_of_error {stop : ε} (turn : produce state = .error stop middle) :
    feedTurn produce consume locals state = .error stop middle := by
  rw [← wp_eq, feedTurn, wp_bind, wp_of_error turn]

end

/-- What the consumer does when it has its item: it goes on with the others or is done. -/
private def goOn (outOfFuel : ε) (produce : EStateM ε σ (Unit ⊕ τ))
    (consume : α → τ → EStateM ε σ (α ⊕ β)) (inner outer : ℕ) : α ⊕ β → EStateM ε σ β
  | .inl next => loop outOfFuel (consumeNext outOfFuel produce consume inner) outer next
  | .inr value => pure value

private theorem bind_congr_left {γ δ : Type} {program other : EStateM ε σ γ} {next : γ → EStateM ε σ δ}
    {middle : σ} (same : program state = other middle) : (program >>= next) state = (other >>= next) middle := by
  simp only [bind, EStateM.bind, same]

private theorem loop_succ_eq (inner outer : ℕ) :
    loop outOfFuel (consumeNext outOfFuel produce consume inner) (outer + 1) locals =
      consumeNext outOfFuel produce consume inner locals >>= goOn outOfFuel produce consume inner outer :=
  bind_congr fun next => by cases next <;> rfl

/-- The turn that the consumer is in may have another amount of fuel left for the producer. -/
private theorem consumeNext_goOn (turns : ℕ) {inner outer first : ℕ} (enough : turns ≤ first)
    (inside : turns ≤ inner) (outside : turns ≤ outer + 1)
    (ends : ∀ final, loop outOfFuel (feedTurn produce consume) turns locals state ≠ .error outOfFuel final) :
    (consumeNext outOfFuel produce consume first locals >>= goOn outOfFuel produce consume inner outer)
        state =
      loop outOfFuel (feedTurn produce consume) turns locals state := by
  induction turns generalizing first outer locals state with
  | zero => exact absurd rfl (ends state)
  | succ turns ih =>
    obtain ⟨first, rfl⟩ := Nat.exists_eq_add_of_le' (Nat.le_of_add_left_le enough)
    cases turn : produce state with
    | error stop middle =>
      rw [loop_of_error turns (feedTurn_of_error turn), ← wp_eq, wp_bind, consumeNext, wp_bind,
        wp_of_error (loop_of_error first turn)]
    | ok item middle =>
      cases item with
      | inl =>
        have skipped : consumeNext outOfFuel produce consume (first + 1) locals state =
            consumeNext outOfFuel produce consume first locals middle :=
          bind_congr_left (loop_of_inl first turn)
        rw [loop_of_inl turns (feedTurn_of_inl turn)] at ends ⊢
        rw [bind_congr_left skipped]
        exact ih (by omega) (by omega) (by omega) ends
      | inr item =>
        have given : consumeNext outOfFuel produce consume (first + 1) locals state =
            feedTurn produce consume locals state := by
          rw [feedTurn_of_inr turn, ← wp_eq, consumeNext, wp_bind, wp_of_ok (loop_of_inr first turn), wp_eq]
        generalize outcome : feedTurn produce consume locals state = result at given
        match result with
        | .error stop final => rw [loop_of_error turns outcome, ← wp_eq, wp_bind, wp_of_error given]
        | .ok (.inr value) final =>
          rw [loop_of_inr turns outcome, ← wp_eq, wp_bind, wp_of_ok given, goOn, wp_pure]
        | .ok (.inl next) final =>
          rw [loop_of_inl turns outcome] at ends ⊢
          rw [← wp_eq, wp_bind, wp_of_ok given, goOn, wp_eq]
          cases outer with
          | zero =>
            obtain rfl : turns = 0 := by omega
            exact absurd rfl (ends final)
          | succ outer =>
            rw [loop_succ_eq]
            exact ih (by omega) (by omega) (by omega) ends

/-- What holds of the single loop holds of the two. -/
theorem wpTotal_consume (single : WpTotal (fun fuel => loop outOfFuel (feedTurn produce consume) fuel locals)
      returned stopped state) (fueled : ∀ final, ¬ stopped outOfFuel final) :
    WpTotal (fun fuel => loop outOfFuel (consumeNext outOfFuel produce consume fuel) fuel locals)
      returned stopped state := by
  obtain ⟨enough, outcome, -⟩ := single
  have ends (final : σ) :
      loop outOfFuel (feedTurn produce consume) enough locals state ≠ .error outOfFuel final :=
    fun same => fueled final (outcome.of_error same)
  have same (fuel : ℕ) (more : enough + 1 ≤ fuel) :
      loop outOfFuel (consumeNext outOfFuel produce consume fuel) fuel locals state =
        loop outOfFuel (feedTurn produce consume) enough locals state := by
    obtain ⟨outer, rfl⟩ := Nat.exists_eq_add_of_le' (Nat.le_of_add_left_le more)
    exact consumeNext_goOn enough (by omega) (by omega) (by omega) ends
  refine ⟨enough + 1, ?_, fun fuel more => (same fuel more).trans (same _ le_rfl).symm⟩
  simpa only [Wp, same _ le_rfl] using outcome

section Turns

variable {body : α → EStateM ε σ (α ⊕ β)} {next : α} {final : σ}

/-- The loop goes on. -/
theorem wpTotal_loop_inl (turn : body locals state = .ok (.inl next) final)
    (rest : WpTotal (fun fuel => loop outOfFuel body fuel next) returned stopped final) :
    WpTotal (fun fuel => loop outOfFuel body fuel locals) returned stopped state := by
  obtain ⟨enough, outcome, settled⟩ := rest
  refine ⟨enough + 1, ?_, fun fuel more => ?_⟩
  · simpa only [Wp, loop_of_inl enough turn] using outcome
  · obtain ⟨fuel, rfl⟩ := Nat.exists_eq_add_of_le' (Nat.le_of_add_left_le more)
    have same := settled fuel (Nat.le_of_succ_le_succ more)
    exact (loop_of_inl fuel turn).trans (same.trans (loop_of_inl enough turn).symm)

/-- The loop ends. -/
theorem wpTotal_loop_inr {value : β} (turn : body locals state = .ok (.inr value) final)
    (holds : returned value final) :
    WpTotal (fun fuel => loop outOfFuel body fuel locals) returned stopped state := by
  refine ⟨1, ?_, fun fuel more => ?_⟩
  · simpa only [Wp, loop_of_inr 0 turn] using holds
  · obtain ⟨fuel, rfl⟩ := Nat.exists_eq_add_of_le' more
    exact (loop_of_inr fuel turn).trans (loop_of_inr 0 turn).symm

end Turns

end Machine
