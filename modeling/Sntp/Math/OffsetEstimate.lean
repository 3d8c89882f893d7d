import Mathlib.Algebra.BigOperators.Group.List.Basic
import Mathlib.Algebra.Order.Field.Basic
import Mathlib.Tactic.Ring
import Mathlib.Tactic.LinearCombination
import Mathlib.Tactic.Linarith

/-! # Estimating a clock offset from four readings

A message leaves one clock, is stamped on arrival and on departure by a second clock that is ahead
by the true offset, and returns to the first. The midpoint estimate errs by half the difference of
the two delays, and the round-trip delay bounds that error. When the first three readings carry
errors of their own, the bound survives exactly under two linear inequalities between these errors
and the delays.
-/

namespace OffsetEstimate

variable {K : Type*} [Field K] [LinearOrder K] [IsStrictOrderedRing K]

/-- The midpoint estimate of the offset. -/
def offset (t₁ t₂ t₃ t₄ : K) : K := ((t₂ - t₁) + (t₃ - t₄)) / 2

/-- The time the message was under way. -/
def delay (t₁ t₂ t₃ t₄ : K) : K := (t₄ - t₁) - (t₃ - t₂)

variable (sent θ outbound processing inbound e₁ e₂ e₃ : K)

omit [LinearOrder K] [IsStrictOrderedRing K] in
/-- The delay seen through erroneous readings. -/
theorem delay_eq :
    delay (sent + e₁) (sent + outbound + θ + e₂) (sent + outbound + processing + θ + e₃)
      (sent + outbound + processing + inbound) = outbound + inbound + e₂ - e₁ - e₃ := by
  rw [delay]
  ring

/-- The offset seen through erroneous readings. -/
theorem offset_sub_eq :
    offset (sent + e₁) (sent + outbound + θ + e₂) (sent + outbound + processing + θ + e₃)
      (sent + outbound + processing + inbound) - θ = (outbound - inbound + e₂ + e₃ - e₁) / 2 := by
  rw [offset]
  linear_combination

/-- The delay and a slack bound the error of the estimate exactly when the reading errors leave room
for it in both directions. -/
theorem abs_offset_sub_le_delay_add_iff (slack : K) :
    |offset (sent + e₁) (sent + outbound + θ + e₂) (sent + outbound + processing + θ + e₃)
        (sent + outbound + processing + inbound) - θ| ≤
      delay (sent + e₁) (sent + outbound + θ + e₂) (sent + outbound + processing + θ + e₃)
        (sent + outbound + processing + inbound) + slack ↔
    e₁ + 3 * e₃ ≤ e₂ + (outbound + 3 * inbound) + 2 * slack ∧
      3 * e₁ + e₃ ≤ 3 * e₂ + (3 * outbound + inbound) + 2 * slack := by
  rw [offset_sub_eq, delay_eq, abs_le]
  constructor
  · rintro ⟨lower, upper⟩
    constructor <;> linarith
  · rintro ⟨upper, lower⟩
    constructor <;> linarith

/-- Without slack the delay alone bounds the error. -/
theorem abs_offset_sub_le_delay_iff :
    |offset (sent + e₁) (sent + outbound + θ + e₂) (sent + outbound + processing + θ + e₃)
        (sent + outbound + processing + inbound) - θ| ≤
      delay (sent + e₁) (sent + outbound + θ + e₂) (sent + outbound + processing + θ + e₃)
        (sent + outbound + processing + inbound) ↔
    e₁ + 3 * e₃ ≤ e₂ + (outbound + 3 * inbound) ∧
      3 * e₁ + e₃ ≤ 3 * e₂ + (3 * outbound + inbound) := by
  simpa using abs_offset_sub_le_delay_add_iff sent θ outbound processing inbound e₁ e₂ e₃ 0

section Mean

variable {α β : Type*} {samples : List α} {truths : List β} {value bound : α → K} {truth : β → K}
  {slack : K}

/-- Errors add up, and so do their bounds. -/
theorem abs_sum_sub_sum_le
    (near : List.Forall₂ (fun sample true => |value sample - truth true| ≤ bound sample + slack)
      samples truths) :
    |(samples.map value).sum - (truths.map truth).sum| ≤
      (samples.map bound).sum + samples.length * slack := by
  induction near with
  | nil => simp
  | @cons sample true samples truths head _ ih =>
    simp only [List.map_cons, List.sum_cons, List.length_cons, Nat.cast_succ]
    calc |value sample + (samples.map value).sum - (truth true + (truths.map truth).sum)|
        = |(value sample - truth true) + ((samples.map value).sum - (truths.map truth).sum)| := by
          congr 1
          ring
      _ ≤ |value sample - truth true| + |(samples.map value).sum - (truths.map truth).sum| :=
          abs_add_le ..
      _ ≤ bound sample + (samples.map bound).sum + (samples.length + 1) * slack := by linarith

/-- The mean of estimates errs by no more than the mean of their bounds. -/
theorem abs_mean_sub_mean_le
    (near : List.Forall₂ (fun sample true => |value sample - truth true| ≤ bound sample + slack)
      samples truths) (nonempty : samples ≠ []) :
    |(samples.map value).sum / samples.length - (truths.map truth).sum / truths.length| ≤
      (samples.map bound).sum / samples.length + slack := by
  have positive : (0 : K) < samples.length := Nat.cast_pos.mpr (List.length_pos_of_ne_nil nonempty)
  rw [← near.length_eq, ← sub_div, abs_div, abs_of_pos positive, div_le_iff₀ positive, add_mul,
    div_mul_cancel₀ _ positive.ne', mul_comm slack]
  exact abs_sum_sub_sum_le near

end Mean

end OffsetEstimate
