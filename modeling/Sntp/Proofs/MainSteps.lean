import Sntp.Model.ClientMain

/-! # The steps of the client's main

What `main` does when it chooses a server and when it goes round its repeat loop, for statements
about runs that return.
-/

namespace Sntp

open Machine

variable {env : Env} {cSet : ClientSettings} {fuel : ℕ} {ntpServers : ℕ → CharPtr} {world : World}

/-- Main goes on with its own settings, or with the first server that discovery returns. -/
theorem wp_chooseServer {returned : ClientSettings → World → Prop}
    (unicast : cSet.manycastEnabled = 0 → returned cSet world)
    (manycast : ∀ table found final, cSet.manycastEnabled ≠ 0 →
      discoverUnicastServersWithManycast env cSet fuel ntpServers world = .ok (0, table) found →
      returned { cSet with serverHost := table.ntpServers 0 } final) :
    Wp (chooseServer env fuel cSet ntpServers) returned (fun _ _ => True) world := by
  rw [chooseServer, wp_ite]
  refine ⟨fun enabled => ?_, fun disabled => unicast (not_not.mp disabled)⟩
  rw [wp_bind]
  refine (wp_self _).mono ?_ fun _ _ _ => trivial
  rintro ⟨exitCode, table⟩ found search
  rw [wp_ite]
  refine ⟨fun success => ?_, fun _ => trivial⟩
  obtain rfl : exitCode = 0 := success
  exact manycast table found _ enabled search

/-- A turn of the repeat loop ends it, or waits and takes a sample that fails or succeeds. -/
theorem wp_repeatSample {counter : ℤ} {totals : MainLocals}
    {returned : (ℤ × MainLocals) ⊕ MainLocals → World → Prop}
    (done : cSet.timedRepeatUpdatesLimit ≤ counter → returned (.inr totals) world)
    (failed : ∀ ready exitCode called, counter < cSet.timedRepeatUpdatesLimit →
      loop .outOfFuel (waitPoll env cSet counter) fuel () world = .ok () ready →
      unicastMode env cSet fuel ready = .ok exitCode called → exitCode ≠ 0 →
      returned (.inl (counter + 1, totals)) (called.log (.errorMessage exitCode)))
    (succeeded : ∀ ready called, counter < cSet.timedRepeatUpdatesLimit →
      loop .outOfFuel (waitPoll env cSet counter) fuel () world = .ok () ready →
      unicastMode env cSet fuel ready = .ok 0 called →
      returned (.inl (counter + 1,
        { sCounter := totals.sCounter + 1
          offsetTotal := totals.offsetTotal + called.vars.offset
          errorBoundTotal := totals.errorBoundTotal + called.vars.errorBound })) called) :
    Wp (repeatSample env cSet fuel (counter, totals)) returned (fun _ _ => True) world := by
  rw [repeatSample, wp_ite]
  refine ⟨fun below => ?_, fun reached => done (not_lt.mp reached)⟩
  rw [wp_bind]
  refine (wp_self _).mono ?_ fun _ _ _ => trivial
  rintro ⟨⟩ ready waited
  rw [wp_bind, takeSample, wp_bind]
  refine (wp_self _).mono ?_ fun _ _ _ => trivial
  intro exitCode called sampled
  by_cases failure : exitCode = 0
  · obtain rfl := failure
    exact succeeded ready called below waited sampled
  · simpa [failure] using failed ready exitCode called below waited sampled failure

/-- A repeat loop that returns has gone round for each counter below the limit. -/
theorem wp_repeatLoop {ends : ℤ → MainLocals → World → MainLocals → World → Prop}
    (done : ∀ counter totals world, cSet.timedRepeatUpdatesLimit ≤ counter →
      ends counter totals world totals world)
    (failed : ∀ counter totals world ready exitCode called sums final,
      counter < cSet.timedRepeatUpdatesLimit →
      loop .outOfFuel (waitPoll env cSet counter) fuel () world = .ok () ready →
      unicastMode env cSet fuel ready = .ok exitCode called → exitCode ≠ 0 →
      ends (counter + 1) totals (called.log (.errorMessage exitCode)) sums final →
      ends counter totals world sums final)
    (succeeded : ∀ counter totals world ready called sums final,
      counter < cSet.timedRepeatUpdatesLimit →
      loop .outOfFuel (waitPoll env cSet counter) fuel () world = .ok () ready →
      unicastMode env cSet fuel ready = .ok 0 called →
      ends (counter + 1)
        { sCounter := totals.sCounter + 1
          offsetTotal := totals.offsetTotal + called.vars.offset
          errorBoundTotal := totals.errorBoundTotal + called.vars.errorBound } called sums final →
      ends counter totals world sums final)
    (turns : ℕ) (counter : ℤ) (totals : MainLocals) :
    Wp (loop .outOfFuel (repeatSample env cSet fuel) turns (counter, totals))
      (fun sums final => ends counter totals world sums final) (fun _ _ => True) world := by
  induction turns generalizing counter totals world with
  | zero => trivial
  | succ turns ih =>
    rw [loop, wp_bind]
    apply wp_repeatSample
    · exact fun reached => done counter totals world reached
    · intro ready exitCode called below waited sampled failure
      exact (ih (counter + 1) totals).mono
        (fun sums final => failed _ _ _ _ _ _ sums final below waited sampled failure) fun _ _ _ => trivial
    · intro ready called below waited sampled
      exact (ih (counter + 1) _).mono
        (fun sums final => succeeded _ _ _ _ _ sums final below waited sampled) fun _ _ _ => trivial

/-- The counter is the number of turns. -/
theorem counter_eq {turns : ℕ} {locals locals' : ℤ × MainLocals} {world final : World}
    (run : Turns (repeatSample env cSet fuel) turns locals world locals' final) :
    locals'.1 = locals.1 + turns := by
  induction run with
  | none => simp
  | @next _ _ between _ _ middle _ _ turn ih =>
    -- A turn that goes round again counts one up.
    have counted : Wp (repeatSample env cSet fuel between)
        (fun next _ => next.elim (fun next => next.1 = between.1 + 1) fun _ => True)
        (fun _ _ => True) middle :=
      wp_repeatSample (fun _ => trivial) (fun _ _ _ _ _ _ _ => rfl) fun _ _ _ _ _ => rfl
    have counted := counted.of_ok turn
    rw [Sum.elim_inl, ih] at counted
    rw [counted]
    push_cast
    ring

/-- The calls of `unicast_mode` that the repeat loop makes from a counter on, each with the worlds
before and after it, and where the loop ends. -/
inductive RepeatCalls (env : Env) (cSet : ClientSettings) (fuel : ℕ) :
    ℤ → List (World × World) → World → World → Prop
  | done {counter : ℤ} {world : World} :
      cSet.timedRepeatUpdatesLimit ≤ counter → RepeatCalls env cSet fuel counter [] world world
  | call {counter : ℤ} {calls : List (World × World)} {world ready called next final : World}
      {exitCode : ℤ} :
      counter < cSet.timedRepeatUpdatesLimit →
      loop .outOfFuel (waitPoll env cSet counter) fuel () world = .ok () ready →
      unicastMode env cSet fuel ready = .ok exitCode called →
      next = (if exitCode ≠ 0 then called.log (.errorMessage exitCode) else called) →
      RepeatCalls env cSet fuel (counter + 1) calls next final →
      RepeatCalls env cSet fuel counter ((ready, called) :: calls) world final

/-- A repeat loop that ends has made its calls. -/
theorem wp_repeatCalls (turns : ℕ) (counter : ℤ) (totals : MainLocals) :
    Wp (loop .outOfFuel (repeatSample env cSet fuel) turns (counter, totals))
      (fun _ final => ∃ calls, RepeatCalls env cSet fuel counter calls world final)
      (fun _ _ => True) world := by
  apply wp_repeatLoop
  · exact fun counter _ world reached => ⟨[], .done reached⟩
  · rintro counter _ world ready exitCode called _ final below waited sampled failure ⟨calls, run⟩
    exact ⟨_, .call below waited sampled (if_pos failure).symm run⟩
  · rintro counter _ world ready called _ final below waited sampled ⟨calls, run⟩
    exact ⟨_, .call below waited sampled (if_neg (not_not.mpr rfl)).symm run⟩

/-- Waiting only reads the clock. -/
theorem wp_waitPoll {kept : World → Prop} (tick : ∀ world, kept world → kept (world.tick env))
    (counter : ℤ) (locals : Unit) (holds : kept world) :
    Wp (waitPoll env cSet counter locals) (Sum.elim (fun _ => kept) fun _ => kept) (fun _ _ => True)
      world := by
  rw [waitPoll, wp_ite]
  refine ⟨fun _ => ?_, fun _ => holds⟩
  simp only [wp_bind, wp_get, wp_elapsedTime, wp_ite, wp_pure, Sum.elim_inl, Sum.elim_inr]
  exact ⟨fun _ => tick world holds, fun _ => tick world holds⟩

theorem wp_loop_waitPoll {kept : World → Prop} (tick : ∀ world, kept world → kept (world.tick env))
    (turns : ℕ) (counter : ℤ) (start : kept world) :
    Wp (loop .outOfFuel (waitPoll env cSet counter) turns ()) (fun _ ready => kept ready)
      (fun _ _ => True) world :=
  wp_loop (fun _ => kept) (fun locals _ => wp_waitPoll tick counter locals) (fun _ _ _ => trivial)
    turns () start

end Sntp
