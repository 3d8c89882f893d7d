import Mathlib.Data.Nat.Prime.Basic
import Mathlib.Tactic.Ring
import Mathlib.Tactic.Linarith

/-! # Truncating changes of resolution

A count of `coarse` ticks per unit becomes a count of `fine` ticks per unit by an integer product
and a truncating division. Scaling up and back down again loses one tick unless the intermediate
product divides exactly; adding one tick before scaling up repairs that loss, and overshoots by
one tick in exactly the dividing case.
-/

namespace FixedPoint

/-- Convert `n` ticks of size `1 / source` into whole ticks of size `1 / target`, truncating. -/
def rescale (target source n : ℕ) : ℕ := n * target / source

variable {fine coarse n m : ℕ}

/-- A count below one unit stays below one unit at the other resolution. -/
theorem rescale_lt (finePos : 0 < fine) (bound : n < coarse) : rescale fine coarse n < fine := by
  apply Nat.div_lt_of_lt_mul
  exact Nat.mul_lt_mul_of_pos_right bound finePos

/-- With an exact intermediate product nothing is lost. -/
theorem rescale_rescale_of_dvd (finePos : 0 < fine)
    (whole : coarse ∣ n * fine) : rescale coarse fine (rescale fine coarse n) = n := by
  rw [rescale, rescale, Nat.div_mul_cancel whole, Nat.mul_div_cancel n finePos]

/-- With an inexact intermediate product the way back truncates to the previous tick. -/
theorem rescale_rescale_of_not_dvd (coarsePos : 0 < coarse) (finer : coarse ≤ fine)
    (inexact : ¬ coarse ∣ (n + 1) * fine) : rescale coarse fine (rescale fine coarse (n + 1)) = n := by
  have split := Nat.div_add_mod ((n + 1) * fine) coarse
  have remainder : (n + 1) * fine % coarse < coarse := Nat.mod_lt _ coarsePos
  have positive : 0 < (n + 1) * fine % coarse :=
    Nat.pos_of_ne_zero fun zero => inexact (Nat.dvd_of_mod_eq_zero zero)
  rw [rescale, rescale, Nat.div_eq_iff (by omega)]
  rw [Nat.mul_comm coarse] at split
  have expand : (n + 1) * fine = n * fine + fine := by ring
  constructor <;> omega

/-- Refining the resolution preserves the strict order of counts. -/
theorem rescale_lt_rescale (coarsePos : 0 < coarse) (finer : coarse ≤ fine) (less : n < m) :
    rescale fine coarse n < rescale fine coarse m := by
  have gap : n * fine + coarse ≤ m * fine := by nlinarith
  calc rescale fine coarse n < (n * fine + coarse) / coarse := by
        rw [Nat.add_div_right _ coarsePos]; exact Nat.lt_succ_self _
    _ ≤ rescale fine coarse m := Nat.div_le_div_right gap

end FixedPoint
