import Sntp.Proofs.Observations
import Sntp.Soundness.ClientMachine

/-! # What the poll timer enforces

The poll interval is enforced in two places, the busy wait of `main` and the retry loop, and every
call of `unicast_mode` forgets the timer first. `Discipline` describes a permission that a request
uses up and that comes back once the timer has run for longer than `poll_wait`; `Paced` is the
invariant that carries such a permission through every phase of the client. It holds on every run
under a clock that never goes back, so each send attempt of a run is a permitted one.
-/

namespace Sntp.PollTimer

open Machine ClientMachine

/-- A clock that never goes back, with readings close enough for their difference to fit an
`int`. -/
structure Steady (clock : ℕ → Timeval) : Prop where
  normal : ∀ index, (clock index).Normal
  monotone : ∀ ⦃first second⦄, first ≤ second → (clock first).micros ≤ (clock second).micros
  span : ∀ first second, (clock second).tvSec - (clock first).tvSec < 2 ^ 31

theorem Steady.tvSec_le {clock : ℕ → Timeval} (steady : Steady clock) {first second : ℕ}
    (order : first ≤ second) : (clock first).tvSec ≤ (clock second).tvSec := by
  have := steady.monotone order
  obtain ⟨_, _⟩ := steady.normal first
  obtain ⟨_, _⟩ := steady.normal second
  simp only [Timeval.micros] at this
  omega

/-- The elapsed time between two readings is their difference. -/
theorem Steady.getElapsedTime_eq {clock : ℕ → Timeval} (steady : Steady clock) {first second : ℕ}
    (order : first ≤ second) :
    getElapsedTime (clock first) (clock second) = (clock second).tvSec - (clock first).tvSec := by
  have forward := steady.tvSec_le order
  have near := steady.span first second
  exact Int.bmod_eq_of_le (by omega) (by omega)

/-- A permission to send a request at a given second after a given trace. Only requests use it up;
it grows with time, and a request with the poll timer in force gives it back after `poll_wait`. -/
structure Discipline (env : Env) (pollWait : ℤ) (permits : List Event → ℤ → Prop) : Prop where
  empty : ∀ second, permits [] second
  later : ∀ {trace : List Event} {first second : ℤ}, first ≤ second → permits trace first →
    permits trace second
  quiet : ∀ {trace : List Event} {event : Event} {second : ℤ}, event.request = none →
    permits trace second → permits (trace ++ [event]) second
  sent : ∀ {trace : List Event} {index : ℕ} {timer : Timeval} (sockfd : ℤ) (addr : SockaddrIn)
    (success : Bool) {second : ℤ}, trace.latest Event.timer = some timer →
    permits trace (env.clock index).tvSec → (env.clock index).tvSec ≤ timer.tvSec →
    pollWait < second - timer.tvSec →
    permits (trace ++ [.sendto sockfd
      (createPacket env.host (getNtpTimeOfDay (env.clock index))) addr success]) second
  searched : ∀ {trace : List Event} {index : ℕ} (sockfd : ℤ) (addr : SockaddrIn) {second : ℤ},
    trace.latest Event.timer = none → (∀ first, permits trace first) →
    (env.clock index).tvSec < second →
    permits (trace ++ [.sendto sockfd
      (createPacket env.host (getNtpTimeOfDay (env.clock index))) addr true]) second

/-- A unicast request is created and sent at permitted readings, the second of which is the timer. -/
def Permitted (env : Env) (permits : List Event → ℤ → Prop) (before : List Event) (event : Event) :
    Prop :=
  ∀ pkt addr timer, event.request = some (pkt, addr) → before.latest Event.timer = some timer →
    (∃ index, timer = env.clock index) ∧ permits before timer.tvSec ∧
    ∃ index, pkt = createPacket env.host (getNtpTimeOfDay (env.clock index)) ∧
      permits before (env.clock index).tvSec

/-- A request is permitted from now on. -/
def Cooled (env : Env) (permits : List Event → ℤ → Prop) (world : World) : Prop :=
  ∀ index, world.trace.length ≤ index → permits world.trace (env.clock index).tvSec

/-- The timer is a past reading, and a request is permitted once it has run for long enough. -/
def Timed (env : Env) (pollWait : ℤ) (permits : List Event → ℤ → Prop) (world : World) : Prop :=
  (∃ index, index ≤ world.trace.length ∧ world.vars.pollTimer = env.clock index) ∧
    ∀ second, pollWait < second - world.vars.pollTimer.tvSec → permits world.trace second

/-- What the gathering loop maintains: a request is permitted from the second after the timer, and
a table with a server shows that the loop waits for at least that long. -/
def Gathering (env : Env) (waitTime : ℤ) (permits : List Event → ℤ → Prop) (timer : Timeval)
    (table : ServerTable) (world : World) : Prop :=
  world.trace.EachAfter (Permitted env permits) ∧
    (∃ index, index ≤ world.trace.length ∧ timer = env.clock index) ∧
    (∀ second, timer.tvSec < second → permits world.trace second) ∧
    (table.sCount ≠ 0 → 0 ≤ waitTime)

/-- What the retry loop maintains. -/
def Retrying (env : Env) (pollWait : ℤ) (permits : List Event → ℤ → Prop) (world : World) : Prop :=
  world.trace.EachAfter (Permitted env permits) ∧
    ((world.vars.pollTimer.tvSec = -1 ∧ Cooled env permits world) ∨ Timed env pollWait permits world)

/-- The invariant of each phase. -/
def Paced (env : Env) (cSet : ClientSettings) (permits : List Event → ℤ → Prop) (phase : Phase)
    (world : World) : Prop :=
  world.trace.EachAfter (Permitted env permits) ∧
  match phase with
  | .start => world.trace = []
  | .searching _ _ timer table => Gathering env cSet.manycastWaitTime permits timer table world
  | .ready _ => Cooled env permits world
  | .retrying _ _ _ _ => Retrying env cSet.pollWait permits world
  | .between _ => Cooled env permits world ∨ Timed env cSet.pollWait permits world
  | .done => True

section Quiet

variable {env : Env} {pollWait : ℤ} {permits : List Event → ℤ → Prop} {world : World}

theorem Discipline.append_quiet (discipline : Discipline env pollWait permits) {trace : List Event}
    {second : ℤ} (permitted : permits trace second) {events : List Event}
    (quiet : ∀ event ∈ events, event.request = none) : permits (trace ++ events) second := by
  induction events using List.reverseRecOn with
  | nil => simpa using permitted
  | append_singleton events event ih =>
    rw [← List.append_assoc]
    refine discipline.quiet (quiet event (by simp)) (ih fun other member => ?_)
    exact quiet other (List.mem_append_left _ member)

private theorem concerns_permitted (env : Env) (permits : List Event → ℤ → Prop) :
    List.Concerns Event.request (Permitted env permits) := by
  intro before event none pkt addr timer asked
  simp [none] at asked

private theorem permitted_quiet {trace : List Event}
    (history : trace.EachAfter (Permitted env permits)) {event : Event}
    (quiet : event.request = none) : (trace ++ [event]).EachAfter (Permitted env permits) :=
  history.concat_of_none (concerns_permitted env permits) quiet

private theorem permitted_setUp {ready : World}
    (history : world.trace.EachAfter (Permitted env permits)) (setUp : SetUp world ready) :
    ready.trace.EachAfter (Permitted env permits) :=
  setUp.eachAfter (concerns_permitted env permits) (fun _ => Event.SetsUp.request_eq_none) history

private theorem Cooled.log (discipline : Discipline env pollWait permits)
    (cooled : Cooled env permits world) {event : Event} (quiet : event.request = none) :
    Cooled env permits (world.log event) := by
  intro index after
  rw [World.trace_log, List.length_append] at after
  exact discipline.quiet quiet (cooled index (by omega))

private theorem Cooled.setUp (discipline : Discipline env pollWait permits)
    (cooled : Cooled env permits world) {ready : World} (setUp : SetUp world ready) :
    Cooled env permits ready := by
  obtain ⟨events, all, rfl⟩ := setUp
  intro index after
  simp only [List.length_append] at after
  exact discipline.append_quiet (cooled index (by omega)) fun event member =>
    (all event member).request_eq_none

private theorem Timed.log (discipline : Discipline env pollWait permits)
    (timed : Timed env pollWait permits world) {event : Event} (quiet : event.request = none) :
    Timed env pollWait permits (world.log event) := by
  obtain ⟨⟨index, past, reading⟩, cools⟩ := timed
  refine ⟨⟨index, ?_, reading⟩, fun second late => discipline.quiet quiet (cools second late)⟩
  rw [World.trace_log, List.length_append]
  omega

/-- When the timer has run for longer than `poll_wait`, a request is permitted from then on. -/
private theorem Timed.cooled (discipline : Discipline env pollWait permits)
    (steady : Steady env.clock) (timed : Timed env pollWait permits world)
    (late : pollWait < getElapsedTime world.vars.pollTimer (world.now env)) :
    Cooled env permits (world.tick env) := by
  obtain ⟨⟨start, past, reading⟩, cools⟩ := timed
  rw [reading, World.now, steady.getElapsedTime_eq past] at late
  intro index after
  refine discipline.quiet rfl (cools _ ?_)
  rw [World.trace_tick, List.length_append, List.length_singleton] at after
  have := steady.tvSec_le (show world.trace.length ≤ index by omega)
  rw [reading]
  omega

end Quiet

section Steps

variable {env : Env} {cSet : ClientSettings} {permits : List Event → ℤ → Prop} {world : World}
variable (steady : Steady env.clock) (set : ∀ index, (env.clock index).tvSec ≠ -1)

private theorem Retrying.log {pollWait : ℤ} (discipline : Discipline env pollWait permits)
    (retrying : Retrying env pollWait permits world) {event : Event}
    (quiet : event.request = none) : Retrying env pollWait permits (world.log event) := by
  refine ⟨permitted_quiet retrying.1 quiet, ?_⟩
  obtain ⟨unset, cooled⟩ | timed := retrying.2
  · exact .inl ⟨unset, cooled.log discipline quiet⟩
  · exact .inr (timed.log discipline quiet)

include steady set in
private theorem retrying_rested {pollWait : ℤ} (discipline : Discipline env pollWait permits)
    {rested : World} (retrying : Retrying env pollWait permits world)
    (wait : Rested env pollWait world rested) :
    rested.trace.EachAfter (Permitted env permits) ∧ Cooled env permits rested := by
  obtain ⟨history, ⟨unset, cooled⟩ | timed⟩ := retrying
  · cases wait with
    | unset => exact ⟨history, cooled⟩
    | elapsed isSet => exact absurd unset isSet
  · cases wait with
    | unset unset =>
      obtain ⟨⟨index, _, reading⟩, _⟩ := timed
      exact absurd (reading ▸ unset) (set index)
    | elapsed _ late => exact ⟨permitted_quiet history rfl, timed.cooled discipline steady late⟩

include steady set in
/-- A request uses the permission up, and its timer will give it back. -/
private theorem retrying_asked {pollWait : ℤ} (discipline : Discipline env pollWait permits)
    {sockfd : ℤ} {addr : SockaddrIn} {success : Bool} {request : NtpPacket} {asked : World}
    (retrying : Retrying env pollWait permits world)
    (step : Asked env pollWait sockfd addr success world request asked) :
    Retrying env pollWait permits asked := by
  cases step with
  | @intro rested wait =>
    obtain ⟨history, cooled⟩ := retrying_rested steady set discipline retrying wait
    have timer : (rested.tick env).now env = env.clock (rested.trace.length + 1) := by
      rw [World.now, World.trace_tick, List.length_append, List.length_singleton]
    have started : (rested.startTimer env).trace.EachAfter (Permitted env permits) :=
      permitted_quiet (permitted_quiet (permitted_quiet history rfl) rfl) rfl
    have latest : (rested.startTimer env).trace.latest Event.timer =
        some (env.clock (rested.trace.length + 1)) := by
      rw [World.trace_startTimer, List.latest_concat, timer]
      rfl
    have permitted (index : ℕ) (after : rested.trace.length ≤ index) :
        permits (rested.startTimer env).trace (env.clock index).tvSec :=
      discipline.quiet rfl (discipline.quiet rfl (discipline.quiet rfl (cooled index after)))
    rw [Retrying, Timed, World.trace_dispatch]
    refine ⟨?_, .inr ?_⟩
    · refine List.eachAfter_concat.mpr ⟨started, fun pkt target other asked inForce => ?_⟩
      obtain ⟨rfl, -⟩ := Prod.mk.inj (Option.some.inj asked)
      obtain rfl := Option.some.inj (latest.symm.trans inForce)
      exact ⟨⟨_, rfl⟩, permitted _ (Nat.le_succ _), _, rfl, permitted _ le_rfl⟩
    · rw [World.pollTimer_dispatch, timer]
      refine ⟨⟨_, ?_, rfl⟩, fun second late => ?_⟩
      · simp only [World.trace_startTimer, List.length_append, List.length_singleton]
        omega
      · exact discipline.sent sockfd addr success latest (permitted _ le_rfl)
          (steady.tvSec_le (Nat.le_succ _)) late

include steady set in
private theorem paced_attempt {pollWait : ℤ} (discipline : Discipline env pollWait permits)
    {sockfd : ℤ} {userver : HostInfo} {retryCount : ℤ}
    {result : EStateM.Result Stop World (ℤ ⊕ Option Received)}
    (retrying : Retrying env pollWait permits world)
    (step : AttemptStep env pollWait sockfd userver retryCount world result) :
    Retrying env pollWait permits (finalWorld result) := by
  have asked {success : Bool} {request : NtpPacket} {asked : World}
      (step : Asked env pollWait sockfd userver.addr success world request asked) :=
    retrying_asked steady set discipline retrying step
  cases step with
  | exhausted => exact retrying
  | waiting => exact retrying.log discipline rfl
  | unsent step => exact (asked step).log discipline rfl
  | unfinished step => exact asked step
  | unanswered step => exact ((asked step).log discipline rfl).log discipline rfl
  | overrun datagram step => exact (asked step).log discipline rfl
  | rejected datagram replyLast step =>
    exact ((((asked step).log discipline rfl).log discipline rfl).log discipline rfl).log discipline rfl
  | accepted datagram replyLast step =>
    exact (((asked step).log discipline rfl).log discipline rfl).log discipline rfl

private theorem Gathering.log {pollWait waitTime : ℤ} (discipline : Discipline env pollWait permits)
    {timer : Timeval} {table : ServerTable}
    (gathering : Gathering env waitTime permits timer table world) {event : Event}
    (quiet : event.request = none) : Gathering env waitTime permits timer table (world.log event) := by
  obtain ⟨history, ⟨index, past, reading⟩, cools, found⟩ := gathering
  refine ⟨permitted_quiet history quiet, ⟨index, ?_, reading⟩, fun second late => ?_, found⟩
  · rw [World.trace_log, List.length_append]
    omega
  · exact discipline.quiet quiet (cools second late)

include steady in
private theorem paced_collect {pollWait waitTime : ℤ} (discipline : Discipline env pollWait permits)
    {sockfd : ℤ} {request : NtpPacket} {timer : Timeval} {table : ServerTable}
    {result : EStateM.Result Stop World (ServerTable ⊕ ServerTable)}
    (gathering : Gathering env waitTime permits timer table world)
    (step : CollectStep env waitTime sockfd request timer table world result) :
    match result with
    | .ok (.inl next) final => Gathering env waitTime permits timer next final
    | .ok (.inr next) final => final.trace.EachAfter (Permitted env permits) ∧
        (next.sCount ≠ 0 → Cooled env permits final)
    | .error _ final => final.trace.EachAfter (Permitted env permits) := by
  obtain ⟨start, past, reading⟩ := gathering.2.1
  have elapsed : getElapsedTime timer (world.now env) =
      (env.clock world.trace.length).tvSec - timer.tvSec := by
    rw [reading, World.now, steady.getElapsedTime_eq past]
  cases step with
  | finished late =>
    refine ⟨permitted_quiet gathering.1 rfl, fun found index after => ?_⟩
    have waits := gathering.2.2.2 found
    rw [World.trace_tick, List.length_append, List.length_singleton] at after
    have later := steady.tvSec_le (show world.trace.length ≤ index by omega)
    exact discipline.quiet rfl (gathering.2.2.1 _ (by omega))
  | silent => exact (gathering.log discipline rfl).log discipline rfl
  | overrun datagram => exact ((gathering.log discipline rfl).log discipline rfl).1
  | discarded datagram =>
    exact ((gathering.log discipline rfl).log discipline rfl).log discipline rfl
  | full datagram => exact (((gathering.log discipline rfl).log discipline rfl).log discipline rfl).1
  | approved datagram early =>
    have gathered : Gathering env waitTime permits timer table (world.gather env sockfd datagram) :=
      ((gathering.log discipline rfl).log discipline rfl).log discipline rfl
    have forward := steady.tvSec_le past
    rw [← reading] at forward
    exact ⟨gathered.1, gathered.2.1, gathered.2.2.1, fun _ => by omega⟩

private theorem Retrying.sample {pollWait : ℤ} (discipline : Discipline env pollWait permits)
    (retrying : Retrying env pollWait permits world) (sockfd : ℤ) (userver : HostInfo)
    (received : Received) :
    Retrying env pollWait permits (world.sample env sockfd userver received) := by
  obtain ⟨transmitTime, offset, errorBound, name, stratum, trace⟩ :=
    world.trace_sample env sockfd userver received
  have logged : Retrying env pollWait permits ((world.log (.serverResults transmitTime offset
      errorBound name userver.addr.sinAddr stratum)).log (.close sockfd)) :=
    (retrying.log discipline rfl).log discipline rfl
  rw [Retrying, Timed, Cooled, trace, World.vars_sample]
  exact logged

/-- The manycast request is not a unicast one, as no timer has been written. -/
private theorem permitted_search {ready : World} (empty : world.trace = [])
    (setUp : SetUp world ready) (sockfd : ℤ) (addr : SockaddrIn) (success : Bool) :
    (ready.search env sockfd addr success).trace.EachAfter (Permitted env permits) ∧
      (ready.tick env).trace.latest Event.timer = none := by
  obtain ⟨events, all, rfl⟩ := setUp
  have timers : (World.tick env { world with trace := world.trace ++ events }).trace.latest
      Event.timer = none := by
    rw [World.trace_tick, empty, List.nil_append, List.latest_concat]
    exact List.latest_eq_none_iff.mpr fun event member => (all event member).timer_eq_none
  have history : world.trace.EachAfter (Permitted env permits) := by
    rw [empty]
    exact List.eachAfter_nil _
  refine ⟨?_, timers⟩
  rw [World.trace_search]
  refine List.eachAfter_concat.mpr
    ⟨permitted_quiet (permitted_setUp history ⟨events, all, rfl⟩) rfl, ?_⟩
  intro pkt target timer _ inForce
  rw [timers] at inForce
  exact absurd inForce (by simp)

include steady in
private theorem gathering_search {pollWait : ℤ} (waitTime : ℤ)
    (discipline : Discipline env pollWait permits) {ready : World} (empty : world.trace = [])
    (setUp : SetUp world ready) (sockfd : ℤ) (addr : SockaddrIn) (ntpServers : ℕ → CharPtr) :
    let sent := ready.search env sockfd addr true
    Gathering env waitTime permits (sent.now env) ⟨ntpServers, 0⟩ (sent.tick env) := by
  intro sent
  obtain ⟨history, timers⟩ : sent.trace.EachAfter (Permitted env permits) ∧ _ :=
    permitted_search empty setUp sockfd addr true
  have permitted (first : ℤ) : permits (ready.tick env).trace first := by
    obtain ⟨events, all, rfl⟩ := setUp
    rw [World.trace_tick, empty]
    exact discipline.quiet rfl (discipline.append_quiet (discipline.empty first) fun event member =>
      (all event member).request_eq_none)
  have later : ready.trace.length ≤ sent.trace.length := by
    simp only [sent, World.trace_search, World.trace_tick, List.length_append]
    omega
  refine ⟨permitted_quiet history rfl, ⟨sent.trace.length, ?_, rfl⟩, fun second late => ?_,
    fun found => absurd rfl found⟩
  · rw [World.trace_tick, List.length_append]
    omega
  · refine discipline.quiet rfl (discipline.searched sockfd addr timers permitted ?_)
    exact lt_of_le_of_lt (steady.tvSec_le later) late

include steady set in
/-- Every step of the client keeps the invariant. -/
theorem paced_step (discipline : Discipline env cSet.pollWait permits) {phase next : Phase}
    {final : World} (step : ClientStep env cSet phase world next final)
    (paced : Paced env cSet permits phase world) : Paced env cSet permits next final := by
  have history := paced.1
  cases step with
  | direct =>
    refine ⟨history, fun index _ => ?_⟩
    rw [show world.trace = [] from paced.2]
    exact discipline.empty _
  | searchFailed code setUp => exact ⟨permitted_quiet (permitted_setUp history setUp) rfl, trivial⟩
  | searchUnsent code sockfd addr setUp =>
    exact ⟨permitted_quiet (permitted_search paced.2 setUp sockfd addr false).1 rfl, trivial⟩
  | search sockfd addr ntpServers setUp =>
    have gathering := gathering_search steady cSet.manycastWaitTime discipline paced.2 setUp sockfd
      addr ntpServers
    exact ⟨gathering.1, gathering⟩
  | gather step =>
    have kept := paced_collect steady discipline paced.2 step
    exact ⟨kept.1, kept⟩
  | gatherStopped step => exact ⟨paced_collect steady discipline paced.2 step, trivial⟩
  | unfound step none =>
    exact ⟨permitted_quiet (paced_collect steady discipline paced.2 step).1 rfl, trivial⟩
  | found step some =>
    have kept := paced_collect steady discipline paced.2 step
    exact ⟨permitted_quiet (permitted_quiet kept.1 rfl) rfl,
      ((kept.2 some).log discipline rfl).log discipline rfl⟩
  | setUpFailed code setUp =>
    exact ⟨permitted_quiet (permitted_setUp history setUp) rfl,
      .inl ((paced.2.setUp discipline setUp).log discipline rfl)⟩
  | @begin _ ready _ sockfd userver setUp resolved =>
    have history : (ready.setTimer (unsetTimer ready.vars.pollTimer)).trace.EachAfter
        (Permitted env permits) := permitted_quiet (permitted_setUp history setUp) rfl
    exact ⟨history, history, .inl ⟨rfl, (paced.2.setUp discipline setUp).log discipline rfl⟩⟩
  | retry step =>
    have kept := paced_attempt steady set discipline paced.2 step
    exact ⟨kept.1, kept⟩
  | retryStopped step => exact ⟨(paced_attempt steady set discipline paced.2 step).1, trivial⟩
  | @exhausted _ final _ _ _ _ step =>
    have kept : Retrying env cSet.pollWait permits (final.log (.errorMessage 4)) :=
      (paced_attempt steady set discipline paced.2 step).log discipline rfl
    exact ⟨kept.1, kept.2.imp And.right id⟩
  | sampled step =>
    have kept := (paced_attempt steady set discipline paced.2 step).sample discipline
    exact ⟨(kept ..).1, (kept ..).2.imp And.right id⟩
  | wait =>
    exact ⟨permitted_quiet history rfl, paced.2.imp (·.log discipline rfl) (·.log discipline rfl)⟩
  | waited late =>
    refine ⟨permitted_quiet history rfl, ?_⟩
    rcases paced.2 with cooled | timed
    · exact cooled.log discipline rfl
    · exact timed.cooled discipline steady late
  | finish totals =>
    refine ⟨permitted_quiet history ?_, trivial⟩
    rw [MainLocals.statistics]
    split <;> rfl

end Steps

/-- On every run each unicast request is a permitted one. -/
theorem clientMain_permitted {env : Env} {cSet : ClientSettings} {permits : List Event → ℤ → Prop}
    (steady : Steady env.clock) (set : ∀ index, (env.clock index).tvSec ≠ -1)
    (discipline : Discipline env cSet.pollWait permits) (fuel : ℕ) (ntpServers : ℕ → CharPtr)
    (offsetTotal errorBoundTotal : ℚ) (ntoa : Text) (vars : SampleVars) :
    (finalWorld (clientMain env fuel cSet ntpServers offsetTotal errorBoundTotal
      ⟨ntoa, vars, []⟩)).trace.EachAfter (Permitted env permits) := by
  obtain ⟨phase, reaches⟩ :=
    clientMain_reaches env cSet ⟨ntoa, vars, []⟩ fuel ntpServers offsetTotal errorBoundTotal
  have start : Paced env cSet permits .start ⟨ntoa, vars, []⟩ := ⟨List.eachAfter_nil _, rfl⟩
  exact (reaches.invariant (Paced env cSet permits) start fun phase world next final step =>
    paced_step steady set discipline step).1

end Sntp.PollTimer
