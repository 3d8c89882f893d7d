import Sntp.Soundness.QueriedServer
import Sntp.Proofs.MainSteps
import Mathlib.Algebra.BigOperators.Group.List.Basic
import Mathlib.Data.Rat.Cast.Defs
import Mathlib.Tactic.FieldSimp
import Mathlib.Tactic.Linarith

/-! # The averages of the repeat mode

The repeat loop of `main` adds the samples of the calls that succeed to two totals, and divides
them by the number of these calls. The totals are not initialised: what they hold at the start is
divided as well. The averages are true exactly when there is nothing to divide by, or both totals
happen to be zero at the start.
-/

namespace Sntp.Averages

open Machine

/-- The outcome of one call of `unicast_mode`: what it returns, and what `offset` and `error_bound`
then hold. -/
structure Call where
  exitCode : ℤ
  offset : ℚ
  errorBound : ℚ
deriving DecidableEq, Repr

/-- The calls that succeed. -/
def successes (calls : List Call) : List Call := calls.filter fun call => call.exitCode = 0

/-- What the repeat loop does with the outcome of a call. -/
def addCall (totals : MainLocals) (call : Call) : MainLocals :=
  if call.exitCode ≠ 0 then totals
  else
    { sCounter := totals.sCounter + 1
      offsetTotal := totals.offsetTotal + call.offset
      errorBoundTotal := totals.errorBoundTotal + call.errorBound }

/-- What `main` prints after the calls, from the first contents of its totals. -/
def printed (calls : List Call) (offsetTotal errorBoundTotal : ℚ) : Event :=
  (calls.foldl addCall
    { sCounter := 0, offsetTotal := offsetTotal, errorBoundTotal := errorBoundTotal }).statistics

/-- The true averages over the calls that succeed, if there is one. -/
def averages (calls : List Call) : Event :=
  if successes calls = [] then .noSamples
  else .statistics (((successes calls).map Call.offset).sum / (successes calls).length)
    (((successes calls).map Call.errorBound).sum / (successes calls).length)

/-- The calls that the repeat loop makes from a counter on, each one after its wait. -/
inductive Calls (env : Env) (cSet : ClientSettings) (fuel : ℕ) :
    ℤ → List Call → World → World → Prop
  | done {counter : ℤ} {world : World} :
      cSet.timedRepeatUpdatesLimit ≤ counter → Calls env cSet fuel counter [] world world
  | call {counter : ℤ} {calls : List Call} {world ready called next final : World} {exitCode : ℤ} :
      counter < cSet.timedRepeatUpdatesLimit →
      loop .outOfFuel (waitPoll env cSet counter) fuel () world = .ok () ready →
      unicastMode env cSet fuel ready = .ok exitCode called →
      next = (if exitCode ≠ 0 then called.log (.errorMessage exitCode) else called) →
      Calls env cSet fuel (counter + 1) calls next final →
      Calls env cSet fuel counter (⟨exitCode, called.vars.offset, called.vars.errorBound⟩ :: calls)
        world final

/-- The calls of a run of `main` in repeat mode: those after a server has been chosen. -/
def CallsOfRun (env : Env) (fuel : ℕ) (cSet : ClientSettings) (ntpServers : ℕ → CharPtr)
    (calls : List Call) (world final : World) : Prop :=
  ∃ chosen started, chooseServer env fuel cSet ntpServers world = .ok chosen started ∧
    Calls env chosen fuel 0 calls started final

section

variable {env : Env} {cSet : ClientSettings} {fuel : ℕ} {calls : List Call} {world final : World}

/-- The loop makes as many calls as the limit allows. -/
theorem Calls.length {counter : ℤ} (run : Calls env cSet fuel counter calls world final) :
    calls.length = (cSet.timedRepeatUpdatesLimit - counter).toNat := by
  induction run with
  | done reached => rw [List.length_nil, Int.toNat_eq_zero.mpr (sub_nonpos.mpr reached)]
  | call below _ _ _ _ ih =>
    rw [List.length_cons, ih]
    omega

/-- The accumulators after the calls: their first contents, plus the samples of the successes. -/
theorem foldl_add (totals : MainLocals) :
    calls.foldl addCall totals =
      { sCounter := totals.sCounter + (successes calls).length
        offsetTotal := totals.offsetTotal + ((successes calls).map Call.offset).sum
        errorBoundTotal := totals.errorBoundTotal + ((successes calls).map Call.errorBound).sum } := by
  induction calls generalizing totals with
  | nil => simp [successes]
  | cons call calls ih =>
    rw [List.foldl_cons, ih, addCall]
    by_cases failed : call.exitCode = 0
    · simp only [failed, ne_eq, not_true_eq_false, ↓reduceIte, successes, decide_true,
        List.filter_cons_of_pos, List.length_cons, List.map_cons, List.sum_cons]
      grind
    · simp [failed, successes]

/-- Main prints the true averages exactly when no call succeeds or both totals start at zero. -/
theorem printed_eq_averages_iff (offsetTotal errorBoundTotal : ℚ) :
    printed calls offsetTotal errorBoundTotal = averages calls ↔
      (∀ call ∈ calls, call.exitCode ≠ 0) ∨ (offsetTotal = 0 ∧ errorBoundTotal = 0) := by
  have none : successes calls = [] ↔ ∀ call ∈ calls, call.exitCode ≠ 0 := by
    simp [successes]
  rw [printed, foldl_add, averages, MainLocals.statistics, ← none]
  rcases Nat.eq_zero_or_pos (successes calls).length with empty | some
  · simp [List.length_eq_zero_iff.mp empty]
  have nonempty : successes calls ≠ [] := List.ne_nil_of_length_pos some
  have positive : (0 : ℤ) < 0 + (successes calls).length := by omega
  have nonzero : ((successes calls).length : ℚ) ≠ 0 := Nat.cast_ne_zero.mpr (Nat.ne_of_gt some)
  have total (initial sum : ℚ) : (initial + sum) / ((successes calls).length : ℚ) =
      sum / (successes calls).length ↔ initial = 0 := by
    rw [div_left_inj' nonzero, add_eq_right]
  rw [if_pos positive, if_neg nonempty, Event.statistics.injEq]
  simp only [zero_add, Int.cast_natCast, total, nonempty, false_or]

/-- The repeat loop accumulates its calls. -/
private theorem wp_repeat (turns : ℕ) (counter : ℤ) (totals : MainLocals) :
    Wp (loop .outOfFuel (repeatSample env cSet fuel) turns (counter, totals))
      (fun sums final => ∃ calls, Calls env cSet fuel counter calls world final ∧
        sums = calls.foldl addCall totals)
      (fun _ _ => True) world := by
  apply wp_repeatLoop
  · exact fun counter totals world reached => ⟨[], .done reached, rfl⟩
  · rintro counter totals world ready exitCode called sums final below waited sampled failure
      ⟨calls, run, rfl⟩
    refine ⟨_, .call below waited sampled (if_pos failure).symm run, ?_⟩
    rw [List.foldl_cons, addCall, if_pos failure]
  · rintro counter totals world ready called sums final below waited sampled ⟨calls, run, rfl⟩
    refine ⟨_, .call below waited sampled (if_neg (not_not.mpr rfl)).symm run, ?_⟩
    rw [List.foldl_cons, addCall, if_neg (not_not.mpr rfl)]

/-- A turn of the loop makes a call. -/
private theorem repeatSample_call {counter : ℤ} {ready called next : World} {exitCode : ℤ}
    (below : counter < cSet.timedRepeatUpdatesLimit)
    (waited : loop .outOfFuel (waitPoll env cSet counter) fuel () world = .ok () ready)
    (sampled : unicastMode env cSet fuel ready = .ok exitCode called)
    (after : next = if exitCode ≠ 0 then called.log (.errorMessage exitCode) else called)
    (totals : MainLocals) :
    repeatSample env cSet fuel (counter, totals) world =
      .ok (.inl (counter + 1, addCall totals ⟨exitCode, called.vars.offset, called.vars.errorBound⟩))
        next := by
  rw [← wp_eq, repeatSample, if_pos below, wp_bind, wp_of_ok waited, wp_bind, takeSample, wp_bind,
    wp_of_ok sampled, after]
  by_cases failure : exitCode = 0
  · rw [failure]
    rfl
  · simp [failure, addCall]

/-- With a turn for each of its calls and one to end, the loop returns. -/
private theorem Calls.loop_eq {counter : ℤ} (run : Calls env cSet fuel counter calls world final)
    {turns : ℕ} (enough : calls.length < turns) (totals : MainLocals) :
    loop .outOfFuel (repeatSample env cSet fuel) turns (counter, totals) world =
      .ok (calls.foldl addCall totals) final := by
  obtain ⟨turns, rfl⟩ := Nat.exists_eq_add_of_lt enough
  rw [Nat.add_assoc, Nat.add_comm]
  clear enough
  induction run generalizing totals with
  | @done counter world reached =>
    have turn : repeatSample env cSet fuel (counter, totals) world = .ok (.inr totals) world := by
      rw [repeatSample, if_neg (not_lt.mpr reached)]
      rfl
    exact loop_of_inr turns turn
  | call below waited sampled after _ ih =>
    exact (loop_of_inl _ (repeatSample_call below waited sampled after totals)).trans (ih _)

private theorem repeats_of_chosen {ntpServers : ℕ → CharPtr} {chosen : ClientSettings} {started : World}
    (choice : chooseServer env fuel cSet ntpServers world = .ok chosen started) :
    chosen.timedRepeatUpdatesEnabled = cSet.timedRepeatUpdatesEnabled ∧
      chosen.timedRepeatUpdatesLimit = cSet.timedRepeatUpdatesLimit := by
  have settings : Wp (chooseServer env fuel cSet ntpServers)
      (fun chosen _ => chosen.timedRepeatUpdatesEnabled = cSet.timedRepeatUpdatesEnabled ∧
        chosen.timedRepeatUpdatesLimit = cSet.timedRepeatUpdatesLimit)
      (fun _ _ => True) world :=
    wp_chooseServer (fun _ => ⟨rfl, rfl⟩) fun _ _ _ _ _ => ⟨rfl, rfl⟩
  exact settings.of_ok choice

/-- With more fuel than calls, a run of `main` in repeat mode returns once its calls are made. -/
theorem clientMain_returns {ntpServers : ℕ → CharPtr} (repeats : cSet.timedRepeatUpdatesEnabled = 1)
    (made : CallsOfRun env fuel cSet ntpServers calls world final) (enough : calls.length < fuel)
    (offsetTotal errorBoundTotal : ℚ) :
    clientMain env fuel cSet ntpServers offsetTotal errorBoundTotal world =
      .ok 0 (final.log (printed calls offsetTotal errorBoundTotal)) := by
  obtain ⟨chosen, started, choice, run⟩ := made
  have enabled := (repeats_of_chosen choice).1.trans repeats
  rw [← wp_eq, clientMain, wp_bind, wp_of_ok choice, if_neg (not_not.mpr enabled), wp_bind,
    wp_of_ok (run.loop_eq enough _)]
  rfl

/-- A run of `main` in repeat mode prints what its calls add up to. -/
theorem clientMain_prints {ntpServers : ℕ → CharPtr} {offsetTotal errorBoundTotal : ℚ} {code : ℤ}
    (repeats : cSet.timedRepeatUpdatesEnabled = 1)
    (returned : clientMain env fuel cSet ntpServers offsetTotal errorBoundTotal world =
      .ok code final) :
    ∃ calls last, CallsOfRun env fuel cSet ntpServers calls world last ∧
      calls.length = cSet.timedRepeatUpdatesLimit.toNat ∧
      final = last.log (printed calls offsetTotal errorBoundTotal) := by
  have run : Wp (clientMain env fuel cSet ntpServers offsetTotal errorBoundTotal)
      (fun _ final => ∃ calls last, CallsOfRun env fuel cSet ntpServers calls world last ∧
        calls.length = cSet.timedRepeatUpdatesLimit.toNat ∧
        final = last.log (printed calls offsetTotal errorBoundTotal))
      (fun _ _ => True) world := by
    rw [clientMain, wp_bind]
    refine (wp_self _).mono ?_ fun _ _ _ => trivial
    intro chosen started choice
    obtain ⟨enabled, limit⟩ := repeats_of_chosen choice
    rw [wp_ite]
    refine ⟨fun once => absurd (enabled.trans repeats) once, fun _ => ?_⟩
    rw [wp_bind]
    refine (wp_repeat fuel 0 _).mono ?_ fun _ _ _ => trivial
    rintro totals last ⟨calls, made, rfl⟩
    refine ⟨calls, last, ⟨chosen, started, choice, made⟩, ?_, rfl⟩
    rw [made.length, limit, sub_zero]
  exact run.of_ok returned

/-- The outcomes of the calls determine where a run gets. -/
private theorem Calls.unique {counter : ℤ} {world final final' : World}
    (run : Calls env cSet fuel counter calls world final) {calls' : List Call}
    (run' : Calls env cSet fuel counter calls' world final') : calls = calls' ∧ final = final' := by
  induction run generalizing calls' with
  | done reached =>
    cases run' with
    | done => exact ⟨rfl, rfl⟩
    | call below => exact absurd reached (not_le.mpr below)
  | call below waited sampled after _ ih =>
    cases run' with
    | done reached => exact absurd reached (not_le.mpr below)
    | call _ waited' sampled' after' rest' =>
      obtain rfl := (EStateM.Result.ok.inj (waited.symm.trans waited')).2
      obtain ⟨rfl, rfl⟩ := EStateM.Result.ok.inj (sampled.symm.trans sampled')
      obtain rfl := after.trans after'.symm
      obtain ⟨rfl, rfl⟩ := ih rest'
      exact ⟨rfl, rfl⟩

private theorem CallsOfRun.unique {ntpServers : ℕ → CharPtr} {calls' : List Call} {final' : World}
    (run : CallsOfRun env fuel cSet ntpServers calls world final)
    (run' : CallsOfRun env fuel cSet ntpServers calls' world final') :
    calls = calls' ∧ final = final' := by
  obtain ⟨chosen, started, choice, made⟩ := run
  obtain ⟨chosen', started', choice', made'⟩ := run'
  obtain ⟨rfl, rfl⟩ := EStateM.Result.ok.inj (choice.symm.trans choice')
  exact made.unique made'

end

/-- Whatever the outcomes of the calls, `main` prints their true averages exactly when no call
succeeds or its totals start at zero; and what it prints is what a run with these outcomes ends
with. Such a run returns, when its calls are made and there is fuel for one more turn. -/
theorem averages_true_iff (calls : List Call) (offsetTotal errorBoundTotal : ℚ) :
    (printed calls offsetTotal errorBoundTotal = averages calls ↔
      (∀ call ∈ calls, call.exitCode ≠ 0) ∨ (offsetTotal = 0 ∧ errorBoundTotal = 0)) ∧
    (∀ env fuel cSet ntpServers world code final last, cSet.timedRepeatUpdatesEnabled = 1 →
      clientMain env fuel cSet ntpServers offsetTotal errorBoundTotal world = .ok code final →
      CallsOfRun env fuel cSet ntpServers calls world last →
      (calls.length = cSet.timedRepeatUpdatesLimit.toNat ∧
        final = last.log (printed calls offsetTotal errorBoundTotal))) ∧
    ∀ env fuel cSet ntpServers world last, cSet.timedRepeatUpdatesEnabled = 1 →
      CallsOfRun env fuel cSet ntpServers calls world last → calls.length < fuel →
      clientMain env fuel cSet ntpServers offsetTotal errorBoundTotal world =
        .ok 0 (last.log (printed calls offsetTotal errorBoundTotal)) := by
  refine ⟨printed_eq_averages_iff offsetTotal errorBoundTotal, ?_, ?_⟩
  · intro env fuel cSet ntpServers world code final last repeats returned made
    obtain ⟨calls', last', made', length, prints⟩ := clientMain_prints repeats returned
    obtain ⟨rfl, rfl⟩ := made.unique made'
    exact ⟨length, prints⟩
  · intro env fuel cSet ntpServers world last repeats made enough
    exact clientMain_returns repeats made enough offsetTotal errorBoundTotal

/-- One sample of a server whose clock agrees with the client's. -/
def onceSettings : ClientSettings :=
  { ClientSettings.defaults (.text (dotted QueriedServer.queriedAddr)) 0 with
    timedRepeatUpdatesEnabled := 1, timedRepeatUpdatesLimit := 1 }

def onceEnv : Env := QueriedServer.sampleEnv ⟨0, QueriedServer.queriedAddr⟩

def onceRun (offsetTotal errorBoundTotal : ℚ) : EStateM.Result Stop World ℤ :=
  clientMain onceEnv 2 onceSettings (fun _ => .text []) offsetTotal errorBoundTotal
    ⟨[], ⟨0, 0, default⟩, []⟩

private theorem onceRun_calls : ∃ last,
    CallsOfRun onceEnv 2 onceSettings (fun _ => .text []) [⟨0, 0, 0⟩] ⟨[], ⟨0, 0, default⟩, []⟩ last := by
  let run := unicastMode onceEnv onceSettings 2 ⟨[], ⟨0, 0, default⟩, []⟩
  have sampled : run = .ok 0 (finalWorld run) := eq_ok_of_returnValue (by decide +kernel)
  have offset : (finalWorld run).vars.offset = 0 := by decide +kernel
  have errorBound : (finalWorld run).vars.errorBound = 0 := by decide +kernel
  refine ⟨finalWorld run, onceSettings, _, rfl, ?_⟩
  have made : Calls onceEnv onceSettings 2 0 [⟨0, (finalWorld run).vars.offset,
      (finalWorld run).vars.errorBound⟩] ⟨[], ⟨0, 0, default⟩, []⟩ (finalWorld run) :=
    .call (by decide) rfl sampled rfl (.done (by decide))
  rwa [offset, errorBound] at made

/-- From totals that start at zero the average of one sample is that sample. -/
theorem averages_true_iff_once : ∃ final, ∃ last : World, onceRun 0 0 = .ok 0 final ∧
    final = last.log (averages [⟨0, 0, 0⟩]) := by
  have returned : onceRun 0 0 = .ok 0 (finalWorld (onceRun 0 0)) :=
    eq_ok_of_returnValue (by decide +kernel)
  obtain ⟨last, made⟩ := onceRun_calls
  have outcome := averages_true_iff [⟨0, 0, 0⟩] 0 0
  refine ⟨_, last, returned, ?_⟩
  rw [← outcome.1.mpr (.inr ⟨rfl, rfl⟩)]
  exact (outcome.2.1 _ _ _ _ _ _ _ _ rfl returned made).2

/-- A total that starts at one is printed as an average, though the only sample is zero. -/
theorem averages_uninitialised : ∃ final, ∃ last : World, onceRun 1 0 = .ok 0 final ∧
    CallsOfRun onceEnv 2 onceSettings (fun _ => .text []) [⟨0, 0, 0⟩] ⟨[], ⟨0, 0, default⟩, []⟩ last ∧
    final = last.log (.statistics 1 0) ∧ averages [⟨0, 0, 0⟩] = .statistics 0 0 := by
  have returned : onceRun 1 0 = .ok 0 (finalWorld (onceRun 1 0)) :=
    eq_ok_of_returnValue (by decide +kernel)
  obtain ⟨last, made⟩ := onceRun_calls
  obtain ⟨calls, last', made', -, prints⟩ := clientMain_prints rfl returned
  obtain ⟨rfl, rfl⟩ := made.unique made'
  have printed_one : printed [⟨0, 0, 0⟩] 1 0 = .statistics 1 0 := by decide +kernel
  exact ⟨_, last, returned, made, printed_one ▸ prints, by decide +kernel⟩

end Sntp.Averages
