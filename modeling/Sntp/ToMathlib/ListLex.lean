import Mathlib.Data.List.Lex
import Mathlib.Order.WellFounded

/-! # Lexicographic descent

The lexicographic order on lists has infinite descents, but not within a bounded length: a stack whose
entries and whose height are compared in this order, from the bottom up, comes to an end.
-/

namespace List

variable {α : Type} {r : α → α → Prop}

/-- Lexicographically smaller, and no longer than the bound. -/
def BoundedLex (r : α → α → Prop) (bound : ℕ) (shorter longer : List α) : Prop :=
  shorter.length ≤ bound ∧ List.Lex r shorter longer

private theorem acc_nil {bound : ℕ} : Acc (BoundedLex r bound) [] :=
  ⟨_, fun _ smaller => nomatch smaller.2⟩

private theorem acc_cons {bound : ℕ} (wf : WellFounded r) (wf' : WellFounded (BoundedLex r bound))
    (a : α) (rest : List α) : Acc (BoundedLex r (bound + 1)) (a :: rest) := by
  induction a using wf.induction generalizing rest with
  | _ a smaller =>
    induction rest using wf'.induction with
    | _ rest shorter =>
      refine ⟨_, fun other below => ?_⟩
      obtain ⟨bounded, below⟩ := below
      cases below with
      | nil => exact acc_nil
      | cons below => exact shorter _ ⟨Nat.le_of_succ_le_succ bounded, below⟩
      | rel below => exact smaller _ below _

theorem wellFounded_boundedLex (wf : WellFounded r) (bound : ℕ) : WellFounded (BoundedLex r bound) := by
  induction bound with
  | zero =>
    refine ⟨fun longer => ⟨_, fun shorter below => ?_⟩⟩
    rw [List.eq_nil_of_length_eq_zero (Nat.le_zero.mp below.1)]
    exact acc_nil
  | succ bound ih =>
    refine ⟨fun list => ?_⟩
    cases list with
    | nil => exact acc_nil
    | cons a rest => exact acc_cons wf ih a rest

end List
