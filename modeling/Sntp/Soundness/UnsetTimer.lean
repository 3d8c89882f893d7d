import Sntp.Proofs.MainSteps
import Sntp.Proofs.Observations
import Sntp.Proofs.UnicastLockstep

/-! # The first contents of the poll timer

`main` does not initialise the timer it waits on before every sample but the first. A call of
`unicast_mode` writes it once its socket, its option and its server are set up, so from the first call
that gets as far the timer holds. If the first call does not and there is a second sample, the wait
for it reads what the timer happens to hold.
-/

namespace Sntp.UnsetTimer

open Machine

/-- The world with other contents of the poll timer. -/
def withTimer (world : World) (time : Timeval) : World :=
  { world with vars := { world.vars with pollTimer := time } }

/-- In a run of the repeat loop from `started`, the wait at the given counter has gone round a number
of times and evaluates its condition in `waiting`. -/
def Evaluates (env : Env) (cSet : ClientSettings) (fuel : ℕ) (started : World) (counter : ℤ)
    (turns : ℕ) (waiting : World) : Prop :=
  ∃ samples initial totals state,
    Turns (repeatSample env cSet fuel) samples (0, initial) started (counter, totals) state ∧
    counter < cSet.timedRepeatUpdatesLimit ∧ counter ≠ 0 ∧
    Turns (waitPoll env cSet counter) turns () state () waiting

/-- The seconds of the timer have been written by an event of the given number or a later one. Only
`unicast_mode` writes them. -/
def WrittenSince (entry : ℕ) (world : World) : Prop :=
  ∃ time, (world.trace.drop entry).latest Event.timer = some time ∧
    time.tvSec = world.vars.pollTimer.tvSec

/-- Whatever the timer holds at first, every evaluation of a wait reads a value written by the run,
and the waits of the run go round as often as with any other contents. -/
structure NeverUnset (env : Env) (cSet : ClientSettings) (fuel : ℕ) (started : World) : Prop where
  written : ∀ time counter turns waiting,
    Evaluates env cSet fuel (withTimer started time) counter turns waiting →
    WrittenSince started.trace.length waiting
  independent : ∀ time time' counter turns waiting,
    Evaluates env cSet fuel (withTimer started time) counter turns waiting →
    ∃ waiting', Evaluates env cSet fuel (withTimer started time') counter turns waiting'

section

variable {env : Env} {cSet : ClientSettings} {fuel : ℕ} {entry : ℕ} {world final : World}

theorem WrittenSince.later (written : WrittenSince entry world) : entry < world.trace.length := by
  obtain ⟨time, latest, -⟩ := written
  by_contra late
  rw [List.drop_eq_nil_of_le (not_lt.mp late)] at latest
  cases latest

theorem WrittenSince.log (written : WrittenSince entry world) {event : Event}
    (quiet : event.timer = none) : WrittenSince entry (world.log event) := by
  have later := written.later.le
  obtain ⟨time, latest, same⟩ := written
  refine ⟨time, ?_, same⟩
  rw [World.trace_log, List.drop_append_of_le_length later, List.latest_concat, quiet, Option.none_or,
    latest]

theorem WrittenSince.tick (written : WrittenSince entry world) : WrittenSince entry (world.tick env) :=
  written.log rfl

theorem writtenSince_setTimer (later : entry ≤ world.trace.length) (time : Timeval) :
    WrittenSince entry (world.setTimer time) := by
  refine ⟨time, ?_, rfl⟩
  rw [World.trace_setTimer, List.drop_append_of_le_length later, List.latest_concat, Event.timer,
    Option.some_or]

private theorem WrittenSince.asked {pollWait sockfd : ℤ} {addr : SockaddrIn} {success : Bool}
    {request : NtpPacket} {asked : World} (written : WrittenSince entry world)
    (step : Asked env pollWait sockfd addr success world request asked) :
    WrittenSince entry asked := by
  cases step with
  | @intro rested wait =>
    have kept : WrittenSince entry rested := wait.kept written written.tick
    have later : entry ≤ ((rested.tick env).tick env).trace.length := kept.tick.tick.later.le
    have started : WrittenSince entry (rested.startTimer env) := writtenSince_setTimer later _
    cases success <;> exact started.log rfl

private theorem WrittenSince.opened {sockfd : ℤ} (written : WrittenSince entry world)
    (opened : Opened env world sockfd final) : WrittenSince entry final := by
  induction opened with
  | socket => exact written.log rfl
  | log _ prepares ih => exact ih.log prepares.setsUp.timer_eq_none

/-- No turn of the retry loop forgets the timer. -/
private theorem WrittenSince.attempt {pollWait sockfd : ℤ} {userver : HostInfo} {retryCount : ℤ}
    {result : EStateM.Result Stop World (ℤ ⊕ Option Received)} (written : WrittenSince entry world)
    (step : AttemptStep env pollWait sockfd userver retryCount world result) :
    WrittenSince entry (finalWorld result) := by
  cases step with
  | exhausted => exact written
  | waiting => exact written.tick
  | unsent asked => exact (written.asked asked).tick
  | unfinished asked => exact written.asked asked
  | unanswered asked => exact ((written.asked asked).log rfl).tick
  | overrun _ asked => exact (written.asked asked).log rfl
  | rejected _ _ asked => exact (((written.asked asked).log rfl).tick.log rfl).tick
  | accepted _ _ asked => exact ((written.asked asked).log rfl).tick.log rfl

private theorem WrittenSince.sample (written : WrittenSince entry world) (sockfd : ℤ)
    (userver : HostInfo) (received : Received) :
    WrittenSince entry (world.sample env sockfd userver received) := by
  have later := written.later.le
  obtain ⟨time, latest, same⟩ := written
  obtain ⟨_, _, _, _, _, trace⟩ := world.trace_sample env sockfd userver received
  refine ⟨time, ?_, by rw [World.vars_sample, same]⟩
  rw [trace, List.append_assoc, List.drop_append_of_le_length later]
  exact (List.latest_append_of_forall (by simp [Event.timer])).trans latest

/-- A call writes the timer if setting up succeeds, and never forgets it. -/
theorem wp_unicastMode_written (later : entry ≤ world.trace.length) :
    Wp (unicastMode env cSet fuel)
      (fun _ final => WrittenSince entry world ∨ SetUpSucceeds env cSet world →
        WrittenSince entry final)
      (fun _ _ => True) world := by
  apply wp_unicastMode_cases
  · intro refused written
    exact (written.resolve_right fun succeeds => succeeds.1 refused).log rfl
  · intro code sockfd final _ fails opened written
    exact (written.resolve_right fails).opened opened
  intro sockfd userver ready _ opened _
  have grown := opened.setUp.trace_prefix.length_le
  refine wp_loop (fun _ => WrittenSince entry) ?_ (fun _ _ _ => trivial) fuel 1
    (writtenSince_setTimer (later.trans grown) _)
  intro retryCount state written
  refine (wp_attempt fuel retryCount).mono ?_ fun _ _ _ => trivial
  intro next final step
  have kept := written.attempt step
  rcases next with retry | none | received
  · exact kept
  · exact fun _ => kept
  · exact fun _ => kept.sample sockfd userver received

/-- A call whose setting up fails returns an error and has only set up. -/
theorem wp_unicastMode_failed (fuel : ℕ) (fails : ¬ SetUpSucceeds env cSet world) :
    Wp (unicastMode env cSet fuel) (fun code final => code ≠ 0 ∧ SetUp world final)
      (fun _ _ => False) world := by
  apply wp_unicastMode_cases
  · exact fun _ => ⟨by decide, (SetUp.refl world).log trivial⟩
  · exact fun code sockfd final nonzero _ opened => ⟨nonzero, opened.setUp⟩
  · exact fun _ _ _ succeeds => absurd succeeds fails

/-- The first sample does not wait. -/
private theorem ready_eq {ready : World}
    (waited : loop .outOfFuel (waitPoll env cSet 0) fuel () world = .ok () ready) : ready = world := by
  cases fuel with
  | zero => cases waited
  | succ fuel => exact (EStateM.Result.ok.inj waited).2.symm

/-- What holds at the head of the repeat loop. -/
private structure Head (entry : ℕ) (env : Env) (cSet : ClientSettings) (counter : ℤ) (state : World) :
    Prop where
  positive : 0 ≤ counter
  later : entry ≤ state.trace.length
  first : counter = 0 → SetUpSucceeds env cSet state
  written : counter ≠ 0 → WrittenSince entry state

private theorem written_tick (state : World) (written : WrittenSince entry state) :
    WrittenSince entry (state.tick env) :=
  written.tick

/-- A turn of the repeat loop writes the timer or keeps it. -/
private theorem Head.sample {locals : ℤ × MainLocals} (head : Head entry env cSet locals.1 world) :
    Wp (repeatSample env cSet fuel locals)
      (Sum.elim (fun next final => Head entry env cSet next.1 final) fun _ _ => True)
      (fun _ _ => True) world := by
  obtain ⟨counter, totals⟩ := locals
  have sampled {ready called : World} {exitCode : ℤ}
      (waited : loop .outOfFuel (waitPoll env cSet counter) fuel () world = .ok () ready)
      (call : unicastMode env cSet fuel ready = .ok exitCode called) : WrittenSince entry called := by
    by_cases first : counter = 0
    · subst first
      obtain rfl := ready_eq waited
      exact (wp_unicastMode_written head.later).of_ok call (.inr (head.first rfl))
    · have written : WrittenSince entry ready :=
        (wp_loop_waitPoll written_tick fuel counter (head.written first)).of_ok waited
      exact (wp_unicastMode_written written.later.le).of_ok call (.inl written)
  have after {final : World} (written : WrittenSince entry final) :
      Head entry env cSet (counter + 1) final := by
    have positive : 0 ≤ counter := head.positive
    exact ⟨by omega, written.later.le, fun none => by omega, fun _ => written⟩
  apply wp_repeatSample
  · exact fun _ => trivial
  · exact fun ready exitCode called _ waited call _ => after ((sampled waited call).log rfl)
  · exact fun ready called _ waited call => after (sampled waited call)

/-- If the first call sets up, every evaluation reads what the run has written. -/
private theorem Evaluates.written {counter : ℤ} {turns : ℕ} {waiting : World}
    (succeeds : SetUpSucceeds env cSet world)
    (evaluates : Evaluates env cSet fuel world counter turns waiting) :
    WrittenSince world.trace.length waiting := by
  obtain ⟨samples, initial, totals, state, run, -, later, waits⟩ := evaluates
  have head : Head world.trace.length env cSet counter state :=
    run.invariant (fun locals state => Head world.trace.length env cSet locals.1 state)
      (fun _ _ => Head.sample) ⟨le_rfl, le_rfl, fun _ => succeeds, fun other => absurd rfl other⟩
  refine waits.invariant (fun _ => WrittenSince world.trace.length) ?_ (head.written later)
  intro locals state written
  refine (wp_waitPoll written_tick counter locals written).mono ?_ fun _ _ _ => trivial
  rintro (_ | _) final kept
  · exact kept
  · trivial

/-- If it does not, the wait for the second sample reads what the timer held at first. -/
private theorem evaluates_unset (fails : ¬ SetUpSucceeds env cSet world)
    (limit : 1 < cSet.timedRepeatUpdatesLimit) :
    ∃ waiting, Evaluates env cSet 1 world 1 0 waiting ∧
      ¬ WrittenSince world.trace.length waiting := by
  have failed := wp_unicastMode_failed 1 fails
  cases call : unicastMode env cSet 1 world with
  | error stop final => exact (failed.of_error call).elim
  | ok exitCode called =>
    obtain ⟨nonzero, events, all, rfl⟩ := failed.of_ok call
    have waited : loop .outOfFuel (waitPoll env cSet 0) 1 () world = .ok () world := rfl
    have turn : repeatSample env cSet 1 (0, ⟨0, 0, 0⟩) world = .ok (.inl (1, ⟨0, 0, 0⟩))
        (World.log { world with trace := world.trace ++ events } (.errorMessage exitCode)) := by
      rw [← wp_eq, repeatSample, if_pos (by omega), wp_bind, wp_of_ok waited, wp_bind, takeSample,
        wp_bind, wp_of_ok call]
      simp [nonzero]
    refine ⟨_, ⟨1, _, _, _, .next .none turn, limit, one_ne_zero, .none⟩, ?_⟩
    rintro ⟨time, latest, -⟩
    rw [World.trace_log, List.append_assoc, List.drop_left, List.latest_concat] at latest
    have unwritten : events.latest Event.timer = none :=
      List.latest_eq_none_iff.mpr fun event member => (all event member).timer_eq_none
    simp [Event.timer, unwritten] at latest

/-- The counter is positive when a wait evaluates its condition. -/
private theorem Evaluates.positive {counter : ℤ} {turns : ℕ} {waiting : World}
    (evaluates : Evaluates env cSet fuel world counter turns waiting) :
    0 < counter ∧ counter < cSet.timedRepeatUpdatesLimit := by
  obtain ⟨samples, initial, totals, state, run, below, later, -⟩ := evaluates
  have counted := counter_eq run
  simp only [zero_add] at counted
  omega

end

section Independence

variable {env : Env} {cSet : ClientSettings} {fuel : ℕ} {world world' : World}

/-- What two runs share at the head of the repeat loop. -/
private def Alongside (env : Env) (cSet : ClientSettings) (locals locals' : ℤ × MainLocals)
    (state state' : World) : Prop :=
  locals.1 = locals'.1 ∧ 0 ≤ locals.1 ∧ Agree (locals.1 ≠ 0) state state' ∧
    (locals.1 = 0 → SetUpSucceeds env cSet state)

/-- What two runs share while they wait; before the first sample they do not. -/
private def Waiting (counter : ℤ) (world : World) (state state' : World) : Prop :=
  Agree (counter ≠ 0) state state' ∧ (counter = 0 → state = world)

private theorem Waiting.turn {counter : ℤ} (locals locals' : Unit) (state state' : World)
    (waiting : Waiting counter world state state') :
    Lockstep (waitPoll env cSet counter locals) (waitPoll env cSet counter locals')
      (Abreast (fun _ _ => Waiting counter world) fun _ _ => Waiting counter world) state state' := by
  rw [waitPoll]
  refine lockstep_ite Iff.rfl (fun later => ?_) fun _ => waiting
  apply lockstep_bind
  rw [lockstep_get]
  apply lockstep_bind
  apply lockstep_elapsedTime waiting.1 (waiting.1.timer later)
  intro elapsed final final' agree
  have kept : Waiting counter world final final' := ⟨agree, fun first => absurd first later⟩
  exact lockstep_ite Iff.rfl (fun _ => kept) fun _ => kept

private theorem Alongside.sample (locals locals' : ℤ × MainLocals) (world world' : World)
    (alongside : Alongside env cSet locals locals' world world') :
    Lockstep (repeatSample env cSet fuel locals) (repeatSample env cSet fuel locals')
      (Abreast (Alongside env cSet) fun _ _ _ _ => True) world world' := by
  obtain ⟨counter, totals⟩ := locals
  obtain ⟨_, totals'⟩ := locals'
  obtain ⟨rfl, positive, agree, first⟩ := alongside
  rw [repeatSample, repeatSample]
  refine lockstep_ite Iff.rfl (fun _ => ?_) fun _ => trivial
  apply lockstep_bind
  have start : Waiting counter world world world' := ⟨agree, fun _ => rfl⟩
  refine (lockstep_loop Waiting.turn fuel start).mono ?_
  rintro _ _ ready ready' ⟨agree, same⟩
  apply lockstep_bind
  rw [takeSample]
  apply lockstep_bind
  refine (lockstep_unicastMode agree fuel).mono ?_
  rintro exitCode _ called called' ⟨rfl, agree⟩
  have timed : Agree True called called' := by
    refine agree.weaken fun _ => ?_
    by_cases zero : counter = 0
    · exact .inr (same zero ▸ first zero)
    · exact .inl zero
  have after (totals totals' : MainLocals) {final final' : World} (agree : Agree True final final') :
      Alongside env cSet (counter + 1, totals) (counter + 1, totals') final final' := by
    have positive : 0 ≤ counter := positive
    exact ⟨rfl, Int.le_add_one positive, agree.weaken fun _ => trivial, fun none => by
      simp only at none
      omega⟩
  refine lockstep_ite Iff.rfl (fun failure => ?_) fun success => ?_
  · apply lockstep_bind
    apply lockstep_record timed
    intro final final' agree
    exact lockstep_ite Iff.rfl (fun _ => after totals totals' agree) fun success =>
      absurd failure success
  · refine lockstep_ite Iff.rfl (fun failure => absurd failure success) fun _ => ?_
    apply lockstep_bind
    exact after _ _ timed

end Independence

/-- The waits of the repeat loop never read an unset timer, and take as long whatever it holds at
first, exactly when there is no second sample or the first call of `unicast_mode` gets its socket, its
option and its server. -/
theorem neverUnset_iff (env : Env) (cSet : ClientSettings) (started : World) :
    (∀ fuel, NeverUnset env cSet fuel started) ↔
      cSet.timedRepeatUpdatesLimit ≤ 1 ∨ SetUpSucceeds env cSet started := by
  constructor
  · intro never
    by_contra unset
    rw [not_or, not_le] at unset
    obtain ⟨waiting, evaluates, unwritten⟩ := evaluates_unset unset.2 unset.1
    exact unwritten ((never 1).written started.vars.pollTimer 1 0 waiting evaluates)
  · rintro (single | succeeds) fuel
    · have none {time : Timeval} {counter : ℤ} {turns : ℕ} {waiting : World}
          (evaluates : Evaluates env cSet fuel (withTimer started time) counter turns waiting) : False := by
        have positive := evaluates.positive
        omega
      exact ⟨fun _ _ _ _ evaluates => (none evaluates).elim, fun _ _ _ _ _ evaluates =>
        (none evaluates).elim⟩
    · have own (time : Timeval) : SetUpSucceeds env cSet (withTimer started time) := succeeds
      refine ⟨fun time counter turns waiting evaluates => ?_, ?_⟩
      · have written := evaluates.written (own time)
        exact written
      rintro time time' counter turns waiting ⟨samples, initial, totals, state, run, below, later, waits⟩
      have start : Alongside env cSet (0, initial) (0, initial) (withTimer started time)
          (withTimer started time') :=
        ⟨rfl, le_rfl, ⟨rfl, rfl, fun other => absurd rfl other⟩, fun _ => own time⟩
      obtain ⟨⟨_, totals'⟩, state', run', rfl, positive, agree, first⟩ := run.lockstep Alongside.sample start
      have waiting : Waiting counter state state state' := ⟨agree, fun _ => rfl⟩
      obtain ⟨_, waiting', waits', -⟩ := waits.lockstep Waiting.turn waiting
      exact ⟨waiting', samples, initial, totals', state', run', below, later, waits'⟩

/-- Two samples on a host that has no socket for the first. -/
def refusedEnv : Env :=
  { Env.benign (fun _ => ⟨1000000000, 0⟩) (fun _ => none) with
    socket := fun index => if index = 0 then -1 else 3 }

def twoSamples : ClientSettings :=
  { ClientSettings.defaults (.text (dotted ⟨10, 0, 0, 1⟩)) 0 with timedRepeatUpdatesLimit := 2 }

/-- The wait for the second sample reads what `main` never wrote. -/
theorem refusedEnv_reads_unset :
    ¬ NeverUnset refusedEnv twoSamples 1 ⟨[], ⟨0, 0, default⟩, []⟩ := by
  intro never
  have fails : ¬ SetUpSucceeds refusedEnv twoSamples ⟨[], ⟨0, 0, default⟩, []⟩ :=
    fun succeeds => succeeds.1 rfl
  obtain ⟨waiting, evaluates, unwritten⟩ := evaluates_unset fails (by decide)
  exact unwritten (never.written default 1 0 waiting evaluates)

end Sntp.UnsetTimer
