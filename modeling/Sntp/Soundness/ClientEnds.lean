import Sntp.Machine.Fuel
import Sntp.Model.ClientMain
import Sntp.Proofs.ManycastSteps
import Sntp.Soundness.RetryLoop
import Mathlib.Order.Lattice.Nat

/-! # The client ends

Every loop of the client waits for the clock, for a reply or for its own counter. On a clock that gets
past the poll interval and the manycast wait, and stays there for a few readings, each of them ends:
the waits because every turn takes a reading, the retries because their limit is below the largest
`int`, the gathering because a turn takes at most three answers. So `main` returns zero, exits with
one, or overruns a variable.
-/

namespace Sntp.ClientEnds

open Machine RetryLoop

/-- From whatever time it is measured and however late, the clock is past the limit for three readings
on end. -/
def Passes (clock : ℕ → Timeval) (limit : ℤ) : Prop :=
  ∀ timer index, ∃ later, index ≤ later ∧ ∀ near, later ≤ near → near ≤ later + 2 →
    limit < getElapsedTime timer (clock near)

/-- The stops that are not for want of fuel. -/
def Proper (stop : Stop) (_ : World) : Prop := stop = .overrun ∨ stop = .exit 1

/-- The readings that a wait still takes before one is late. -/
noncomputable def untilLate (env : Env) (pollWait : ℤ) (world : World) : ℕ :=
  sInf {ahead | pollWait <
    getElapsedTime world.vars.pollTimer (env.clock (world.trace.length + ahead))}

section

variable {env : Env} {cSet : ClientSettings} {world : World}

/-- An early reading brings the late one closer. -/
theorem untilLate_tick {pollWait : ℤ} (passes : Passes env.clock pollWait)
    (early : getElapsedTime world.vars.pollTimer (world.now env) ≤ pollWait) :
    untilLate env pollWait (world.tick env) < untilLate env pollWait world := by
  obtain ⟨later, order, late⟩ := passes world.vars.pollTimer world.trace.length
  obtain ⟨ahead, rfl⟩ := Nat.exists_eq_add_of_le order
  have found := Nat.sInf_mem (s := {ahead | pollWait < getElapsedTime world.vars.pollTimer
    (env.clock (world.trace.length + ahead))}) ⟨ahead, late _ le_rfl (by omega)⟩
  rw [← untilLate] at found
  cases left : untilLate env pollWait world with
  | zero =>
    rw [left] at found
    exact absurd early (not_le.mpr found)
  | succ rest =>
    rw [left] at found
    refine Nat.lt_succ_of_le (Nat.sInf_le ?_)
    have length : (world.tick env).trace.length + rest = world.trace.length + (rest + 1) := by
      rw [World.trace_tick, List.length_append, List.length_singleton]
      omega
    change pollWait < getElapsedTime world.vars.pollTimer (env.clock ((world.tick env).trace.length + rest))
    rw [length]
    exact found

/-- The busy wait of `main` ends. -/
theorem wpTotal_waitPoll (passes : Passes env.clock cSet.pollWait) (counter : ℤ) :
    WpTotal (fun fuel => loop .outOfFuel (waitPoll env cSet counter) fuel ()) (fun _ _ => True) Proper
      world := by
  refine wpTotal_loop_measure (fun _ _ => True) (fun _ => untilLate env cSet.pollWait) ?_ () trivial
  intro _ state _
  apply wpTotal_const
  rw [waitPoll, wp_ite]
  refine ⟨fun _ => ?_, fun _ => trivial⟩
  simp only [wp_bind, wp_get, wp_elapsedTime, wp_ite, wp_pure, Sum.elim_inl, Sum.elim_inr, implies_true,
    and_true, true_and]
  exact untilLate_tick passes

/-- An attempt counts a retry, ends the loop, or overruns the packet. -/
private theorem attempted_cases (env : Env) (sockfd : ℤ) (addr : SockaddrIn) (retryCount : ℤ)
    (rested : World) :
    (∃ final, rested.attempted env sockfd addr retryCount =
      .ok (.inl (toInt (retryCount + 1))) final) ∨
    (∃ answer final, rested.attempted env sockfd addr retryCount = .ok (.inr answer) final) ∨
    ∃ final, rested.attempted env sockfd addr retryCount = .error .overrun final := by
  rw [World.attempted]
  split
  · exact .inl ⟨_, rfl⟩
  rcases arrives : env.recvfrom (rested.dispatch env sockfd addr true).trace.length with _ | datagram
  · rw [World.listened_of_none _ _ arrives]
    exact .inl ⟨_, rfl⟩
  rcases lt_or_ge sizeofNtpPacket datagram.stored.length with long | fits
  · rw [World.listened_of_long _ _ arrives long]
    exact .inr (.inr ⟨_, rfl⟩)
  obtain ⟨replyLast, heard⟩ := World.listened_of_fits sockfd addr arrives fits
  rw [heard]
  dsimp only
  split
  · exact .inl ⟨_, rfl⟩
  · exact .inr (.inl ⟨_, _, rfl⟩)

/-- A turn of the retry loop counts a retry, waits for one more reading, or ends the loop. -/
private theorem wpTotal_attempt (passes : Passes env.clock cSet.pollWait) (sockfd : ℤ)
    (userver : HostInfo) (retryCount : ℤ) :
    WpTotal (fun fuel => attempt env cSet fuel sockfd userver retryCount)
      (fun next final => next.elim
        (fun next => retryCount ≤ cSet.maxUnicastRetries ∧
          (next = toInt (retryCount + 1) ∨ next = retryCount ∧
            untilLate env cSet.pollWait final < untilLate env cSet.pollWait world))
        fun _ => True)
      Proper world := by
  rcases lt_or_ge cSet.maxUnicastRetries retryCount with used | open_
  · exact wpTotal_of_succ (fun fuel => attempt_exhausted used) trivial
  rcases rested_or_waiting env cSet.pollWait world with ⟨rested, rest⟩ | ⟨set, early⟩
  · refine wpTotal_of_succ (fun fuel => attempt_rested open_ rest) ?_
    rcases attempted_cases env sockfd userver.addr retryCount rested with
      ⟨final, outcome⟩ | ⟨answer, final, outcome⟩ | ⟨final, outcome⟩
    · exact (wp_of_ok outcome).mpr ⟨open_, .inl rfl⟩
    · exact (wp_of_ok outcome).mpr trivial
    · exact (wp_of_error outcome).mpr (.inl rfl)
  · refine wpTotal_of_succ (fun fuel => attempt_waiting open_ set early) ?_
    exact ⟨open_, .inr ⟨rfl, untilLate_tick passes early⟩⟩

/-- The retry loop ends when its limit is below the largest `int`. -/
theorem wpTotal_retries (passes : Passes env.clock cSet.pollWait)
    (limit : cSet.maxUnicastRetries < 2 ^ 31 - 1) (sockfd : ℤ) (userver : HostInfo) :
    WpTotal (fun fuel => loop .outOfFuel (attempt env cSet fuel sockfd userver) fuel 1)
      (fun _ _ => True) Proper world := by
  have wf : WellFounded (Prod.Lex (fun first second : ℕ => first < second)
      (fun first second : ℕ => first < second)) := WellFounded.prod_lex Nat.lt_wfRel.wf Nat.lt_wfRel.wf
  refine wpTotal_loop (fun retryCount _ => 1 ≤ retryCount) (InvImage.wf (fun position : ℤ × World =>
    ((cSet.maxUnicastRetries + 1 - position.1).toNat, untilLate env cSet.pollWait position.2)) wf)
    ?_ 1 le_rfl
  intro retryCount state positive
  refine (wpTotal_attempt passes sockfd userver retryCount).mono ?_ fun _ _ stop => stop
  rintro (next | answer) final outcome
  · obtain ⟨open_, rfl | ⟨rfl, closer⟩⟩ := outcome
    · have counted : toInt (retryCount + 1) = retryCount + 1 := by
        rw [toInt, Int.bmod_def]
        omega
      rw [Sum.elim_inl, counted]
      exact ⟨by omega, Prod.Lex.left _ _ (by dsimp only; omega)⟩
    · exact ⟨positive, Prod.Lex.right _ closer⟩
  · trivial

/-- A call of `unicast_mode` ends. -/
theorem wpTotal_unicastMode (passes : Passes env.clock cSet.pollWait)
    (limit : cSet.maxUnicastRetries < 2 ^ 31 - 1) :
    WpTotal (fun fuel => unicastMode env cSet fuel) (fun _ _ => True) Proper world := by
  have returns (code : ℤ) (final : World) :
      WpTotal (fun _ => (pure code : ClientM ℤ)) (fun _ _ => True) Proper final := wpTotal_const trivial
  simp only [unicastMode]
  refine wpTotal_bind_const (wp_initialiseSocket env _ (fun _ => returns 3 _) ?_)
  intro sockfd success _ _ _
  cases success with
  | false => exact returns 8 _
  | true =>
    refine wpTotal_bind_const (wp_initialiseServerInterface env _ _ (fun _ _ _ => returns 2 _) ?_)
    intro event he name _ _
    refine wpTotal_bind_const (wpTotal_bind ((wpTotal_retries passes limit sockfd _).mono ?_
      fun _ _ stop => stop))
    rintro (_ | received) final _
    · exact returns 4 _
    · exact wpTotal_const trivial

/-- So does the call with its error message. -/
theorem wpTotal_takeSample (passes : Passes env.clock cSet.pollWait)
    (limit : cSet.maxUnicastRetries < 2 ^ 31 - 1) :
    WpTotal (fun fuel => takeSample env cSet fuel) (fun _ _ => True) Proper world := by
  simp only [takeSample]
  refine wpTotal_bind ((wpTotal_unicastMode passes limit).mono (fun exitCode called _ => ?_)
    fun _ _ stop => stop)
  apply wpTotal_const
  rw [wp_ite]
  exact ⟨fun _ => trivial, fun _ => trivial⟩

/-- The gathering loop ends. -/
theorem wpTotal_collect (passes : Passes env.clock cSet.manycastWaitTime) (sockfd : ℤ)
    (request : NtpPacket) (timer : Timeval) (table : ServerTable) :
    WpTotal (fun fuel => loop .outOfFuel (collect env cSet sockfd request timer) fuel table)
      (fun _ _ => True) Proper world := by
  obtain ⟨later, order, late⟩ := passes timer world.trace.length
  refine wpTotal_loop_measure (fun _ state => state.trace.length ≤ later + 2)
    (fun _ state => later + 3 - state.trace.length) ?_ table (by omega)
  intro table state near
  apply wpTotal_const
  refine (wp_collect sockfd request timer table).mono ?_ ?_
  · rintro (next | next) final step
    · have early : state.trace.length < later := by
        by_contra reached
        have past := late state.trace.length (by omega) near
        cases step with
        | silent early | discarded _ early | approved _ early => exact absurd early (not_le.mpr past)
      cases step with
      | silent | discarded | approved =>
        simp only [Sum.elim_inl, World.trace_log, World.trace_gather, World.trace_tick,
          List.length_append, List.length_singleton]
        omega
    · trivial
  · intro stop final step
    cases step <;> exact .inl rfl

/-- Discovery ends. -/
theorem wpTotal_discover (passes : Passes env.clock cSet.manycastWaitTime) (ntpServers : ℕ → CharPtr) :
    WpTotal (fun fuel => discoverUnicastServersWithManycast env cSet fuel ntpServers)
      (fun _ _ => True) Proper world := by
  have returns (value : ℤ × ServerTable) (final : World) :
      WpTotal (fun _ => (pure value : ClientM (ℤ × ServerTable))) (fun _ _ => True) Proper final :=
    wpTotal_const trivial
  simp only [discoverUnicastServersWithManycast]
  refine wpTotal_bind_const (wp_initialiseSocket env _ (fun _ => returns _ _) ?_)
  intro sockfd success _ _ _
  cases success with
  | false => exact returns _ _
  | true =>
    refine wpTotal_bind_const (wp_initialiseServerInterface env _ _ (fun _ _ _ => returns _ _) ?_)
    intro event he name _ _
    refine wpTotal_bind_const ((wp_ask ..).mpr (wpTotal_ite _ (fun _ => returns _ _) fun _ => ?_))
    refine wpTotal_bind_const ((wp_createRequest ..).mpr ?_)
    refine wpTotal_bind_const ((wp_sendSntpPacket ..).mpr ?_)
    split
    · refine wpTotal_bind_const ((wp_gettimeofday ..).mpr ?_)
      refine wpTotal_bind ((wpTotal_collect passes _ _ _ _).mono ?_ fun _ _ stop => stop)
      intro table final _
      exact wpTotal_ite _ (fun _ => returns _ _) fun _ => wpTotal_const trivial
    · exact returns _ _

/-- Discovery ends, or the client exits. -/
theorem wpTotal_chooseServer (passes : cSet.manycastEnabled ≠ 0 → Passes env.clock cSet.manycastWaitTime)
    (ntpServers : ℕ → CharPtr) :
    WpTotal (fun fuel => chooseServer env fuel cSet ntpServers)
      (fun settings _ => settings.pollWait = cSet.pollWait ∧
        settings.maxUnicastRetries = cSet.maxUnicastRetries) Proper world := by
  by_cases enabled : cSet.manycastEnabled ≠ 0
  · simp only [chooseServer, if_pos enabled]
    refine wpTotal_bind ((wpTotal_discover (passes enabled) ntpServers).mono ?_ fun _ _ stop => stop)
    rintro ⟨exitCode, table⟩ found _
    apply wpTotal_const
    rw [wp_ite]
    exact ⟨fun _ => ⟨rfl, rfl⟩, fun _ => .inr rfl⟩
  · simp only [chooseServer, if_neg enabled]
    exact wpTotal_const ⟨rfl, rfl⟩

/-- A turn of the repeat loop counts one up, or ends the loop. -/
private theorem wpTotal_repeatSample (passes : Passes env.clock cSet.pollWait)
    (limit : cSet.maxUnicastRetries < 2 ^ 31 - 1) (counter : ℤ) (totals : MainLocals) :
    WpTotal (fun fuel => repeatSample env cSet fuel (counter, totals))
      (fun next _ => next.elim
        (fun next => next.1 = counter + 1 ∧ counter < cSet.timedRepeatUpdatesLimit) fun _ => True)
      Proper world := by
  simp only [repeatSample]
  refine wpTotal_ite _ (fun below => ?_) fun _ => wpTotal_const trivial
  refine wpTotal_bind ((wpTotal_waitPoll passes counter).mono ?_ fun _ _ stop => stop)
  intro _ ready _
  refine wpTotal_bind ((wpTotal_takeSample passes limit).mono (fun exitCode called _ => ?_)
    fun _ _ stop => stop)
  apply wpTotal_const
  rw [wp_ite]
  exact ⟨fun _ => ⟨rfl, below⟩, fun _ => ⟨rfl, below⟩⟩

/-- On a clock that gets past the poll interval and the manycast wait, with fewer retries than the
largest `int`, the client ends: it returns zero, exits with one, or overruns a variable. -/
theorem clientMain_ends (env : Env) (cSet : ClientSettings) (ntpServers : ℕ → CharPtr)
    (offsetTotal errorBoundTotal : ℚ) (world : World)
    (waits : Passes env.clock cSet.pollWait)
    (gathers : cSet.manycastEnabled ≠ 0 → Passes env.clock cSet.manycastWaitTime)
    (limit : cSet.maxUnicastRetries < 2 ^ 31 - 1) :
    ∃ enough final, ∃ result ∈ [.ok 0 final, .error (.exit 1) final, .error .overrun final],
      ∀ fuel, enough ≤ fuel →
        clientMain env fuel cSet ntpServers offsetTotal errorBoundTotal world = result := by
  have run : WpTotal (fun fuel => clientMain env fuel cSet ntpServers offsetTotal errorBoundTotal)
      (fun code _ => code = 0) Proper world := by
    simp only [clientMain]
    refine wpTotal_bind ((wpTotal_chooseServer gathers ntpServers).mono ?_ fun _ _ stop => stop)
    rintro settings started ⟨samePoll, sameRetries⟩
    rw [← samePoll] at waits
    rw [← sameRetries] at limit
    refine wpTotal_ite _ (fun _ => ?_) fun _ => ?_
    · refine wpTotal_bind ((wpTotal_takeSample waits limit).mono ?_ fun _ _ stop => stop)
      exact fun _ _ _ => wpTotal_const rfl
    · have loops : WpTotal (fun fuel => loop .outOfFuel (repeatSample env settings fuel) fuel
          (0, { sCounter := 0, offsetTotal := offsetTotal, errorBoundTotal := errorBoundTotal }))
          (fun _ _ => True) Proper started := by
        refine wpTotal_loop_measure (fun _ _ => True)
          (fun locals _ => (settings.timedRepeatUpdatesLimit - locals.1).toNat) ?_ _ trivial
        rintro ⟨counter, totals⟩ state _
        refine (wpTotal_repeatSample waits limit counter totals).mono ?_ fun _ _ stop => stop
        rintro (next | totals) final outcome
        · obtain ⟨counted, below⟩ := outcome
          exact ⟨trivial, by dsimp only; omega⟩
        · trivial
      exact wpTotal_bind (loops.mono (fun _ _ _ => wpTotal_const rfl) fun _ _ stop => stop)
  obtain ⟨enough, outcome, settled⟩ := run
  cases result : clientMain env enough cSet ntpServers offsetTotal errorBoundTotal world with
  | ok code final =>
    obtain rfl := outcome.of_ok result
    exact ⟨enough, final, _, by simp, fun fuel more => (settled fuel more).trans result⟩
  | error stop final =>
    obtain rfl | rfl := outcome.of_error result
    · exact ⟨enough, final, _, by simp, fun fuel more => (settled fuel more).trans result⟩
    · exact ⟨enough, final, _, by simp, fun fuel more => (settled fuel more).trans result⟩

end

/-- A clock that goes on by a second at every reading. -/
def ticking (index : ℕ) : Timeval := ⟨index, 0⟩

/-- It gets past every small limit. -/
private theorem passes_ticking {limit : ℤ} (nonneg : 0 ≤ limit) (small : limit < 2 ^ 31 - 3) :
    Passes ticking limit := by
  intro timer index
  refine ⟨index + ((limit + 1 + timer.tvSec - index) % 2 ^ 32).toNat, Nat.le_add_right .., ?_⟩
  intro near after before
  simp only [getElapsedTime, toInt, Int.bmod_def, ticking]
  omega

/-- Nobody answers the client, neither on the way to a server nor after. -/
theorem clientMain_ends_silent :
    ∃ enough final, ∃ result ∈ [.ok 0 final, .error (.exit 1) final, .error .overrun final],
      ∀ fuel, enough ≤ fuel →
        clientMain (.benign ticking fun _ => none) fuel (.defaults (.text []) 1) (fun _ => .text [])
          0 0 ⟨[], ⟨0, 0, default⟩, []⟩ = result :=
  clientMain_ends (.benign ticking fun _ => none) (.defaults (.text []) 1) (fun _ => .text []) 0 0
    ⟨[], ⟨0, 0, default⟩, []⟩ (passes_ticking (by decide) (by decide))
    (fun _ => passes_ticking (by decide) (by decide)) (by decide)

end Sntp.ClientEnds
