import Sntp.Proofs.UnicastSteps
import Sntp.ToMathlib.ListHistory

/-! # What a trace shows

The parts of an event that statements about runs speak of, to be used with `List.latest`, and the
traces that the steps of a retry leave.
-/

namespace Sntp

namespace Event

/-- A request passed to `sendto`, with its destination. -/
def request : Event → Option (NtpPacket × SockaddrIn)
  | .sendto _ pkt addr _ => some (pkt, addr)
  | _ => none

/-- A datagram that was received. -/
def datagram : Event → Option Datagram
  | .recvfrom _ datagram => datagram
  | _ => none

/-- A reading of the clock. -/
def reading : Event → Option Timeval
  | .gettimeofday now => some now
  | _ => none

/-- A value written to the poll timer. -/
def timer : Event → Option Timeval
  | .pollTimer time => some time
  | _ => none

/-- A sample that was reported. -/
def results : Event → Option (ℚ × ℚ)
  | .serverResults _ offset errorBound _ _ _ => some (offset, errorBound)
  | _ => none

theorem SetsUp.request_eq_none {event : Event} (setsUp : event.SetsUp) : event.request = none := by
  cases event <;> first | rfl | exact setsUp.elim

theorem SetsUp.datagram_eq_none {event : Event} (setsUp : event.SetsUp) : event.datagram = none := by
  cases event <;> first | rfl | exact setsUp.elim

theorem SetsUp.timer_eq_none {event : Event} (setsUp : event.SetsUp) : event.timer = none := by
  cases event <;> first | rfl | exact setsUp.elim

theorem SetsUp.results_eq_none {event : Event} (setsUp : event.SetsUp) : event.results = none := by
  cases event <;> first | rfl | exact setsUp.elim

end Event

/-- Setting up keeps what restricts other events only. -/
theorem SetUp.eachAfter {β : Type} {select : Event → Option β} {allowed : List Event → Event → Prop}
    {world final : World} (setUp : SetUp world final) (concerns : List.Concerns select allowed)
    (quiet : ∀ event : Event, event.SetsUp → select event = none)
    (each : world.trace.EachAfter allowed) : final.trace.EachAfter allowed := by
  obtain ⟨events, all, rfl⟩ := setUp
  exact each.append_of_forall_none concerns fun event member => quiet event (all event member)

namespace World

variable (env : Env) (sockfd : ℤ) (addr : SockaddrIn) (datagram : Datagram) (replyLast : Bool)
  (world : World)

@[simp] theorem trace_startTimer : (world.startTimer env).trace =
    world.trace ++ [.gettimeofday (world.now env)] ++ [.gettimeofday ((world.tick env).now env)] ++
      [.pollTimer ((world.tick env).now env)] := rfl

@[simp] theorem trace_dispatch (success : Bool) :
    (world.dispatch env sockfd addr success).trace =
      (world.startTimer env).trace ++ [.sendto sockfd (world.request env) addr success] := by
  cases success <;> rfl

@[simp] theorem pollTimer_dispatch (success : Bool) :
    (world.dispatch env sockfd addr success).vars.pollTimer = (world.tick env).now env := by
  cases success <;> rfl

@[simp] theorem trace_arrive :
    (world.arrive sockfd datagram).trace = world.trace ++ [.recvfrom sockfd (some datagram)] := rfl

@[simp] theorem trace_answer :
    (world.answer env sockfd addr datagram replyLast).trace =
      (world.arrive sockfd datagram).trace ++
        [.gettimeofday ((world.arrive sockfd datagram).now env)] ++
        [.compare addr.sinAddr datagram.source.sinAddr replyLast] := rfl

section Report

variable (userver : HostInfo) (transmitTime : Timeval) (offset errorBound : ℚ) (stratum : UInt8)

theorem trace_report :
    (world.report sockfd userver transmitTime offset errorBound stratum).trace = world.trace ++
      [.serverResults transmitTime offset errorBound (world.deref userver.name)
        userver.addr.sinAddr stratum] ++ [.close sockfd] := by
  cases userver with
  | mk name addr => cases name <;> rfl

theorem vars_report :
    (world.report sockfd userver transmitTime offset errorBound stratum).vars =
      ⟨offset, errorBound, world.vars.pollTimer⟩ := rfl

theorem ntoa_report :
    (world.report sockfd userver transmitTime offset errorBound stratum).ntoa =
      dotted userver.addr.sinAddr := rfl

end Report

variable (userver : HostInfo) (received : Received)

/-- A sample adds its results and the close of the socket. -/
theorem trace_sample : ∃ transmitTime offset errorBound name stratum,
    (world.sample env sockfd userver received).trace = world.trace ++
      [.serverResults transmitTime offset errorBound name userver.addr.sinAddr stratum] ++
        [.close sockfd] :=
  ⟨_, _, _, _, _, trace_report ..⟩

theorem vars_sample :
    (world.sample env sockfd userver received).vars =
      ⟨calculateClockOffset (received.servTs env), calculateErrorBound (received.servTs env),
        world.vars.pollTimer⟩ :=
  vars_report ..

theorem ntoa_sample :
    (world.sample env sockfd userver received).ntoa = dotted userver.addr.sinAddr :=
  ntoa_report ..

end World

section Growth

variable {env : Env} {pollWait sockfd : ℤ} {world : World}

namespace Asked

variable {addr : SockaddrIn} {success : Bool} {request : NtpPacket} {asked : World}
  (step : Asked env pollWait sockfd addr success world request asked)
include step

/-- Asking reads the clock, sets the timer and passes the request to `sendto`. -/
theorem trace_eq : ∃ (readings : List Timeval) (timer : Timeval),
    asked.trace = world.trace ++ readings.map Event.gettimeofday ++ [.pollTimer timer] ++
      [.sendto sockfd request addr success] := by
  cases step with
  | intro wait =>
    rw [World.trace_dispatch, World.trace_startTimer]
    cases wait with
    | unset =>
      exact ⟨[world.now env, (world.tick env).now env], (world.tick env).now env, by simp⟩
    | elapsed =>
      exact ⟨[world.now env, (world.tick env).now env, ((world.tick env).tick env).now env],
        ((world.tick env).tick env).now env, by simp⟩

/-- The request is in force once it has been passed to `sendto`. -/
theorem latest_request : asked.trace.latest Event.request = some (request, addr) := by
  obtain ⟨readings, timer, trace⟩ := step.trace_eq
  rw [trace, List.latest_concat, Event.request, Option.some_or]

theorem trace_prefix : world.trace <+: asked.trace := by
  obtain ⟨readings, timer, trace⟩ := step.trace_eq
  rw [trace, List.append_assoc, List.append_assoc]
  exact List.prefix_append ..

/-- Asking keeps what restricts other events only. -/
theorem eachAfter {β : Type} {select : Event → Option β} {allowed : List Event → Event → Prop}
    (concerns : List.Concerns select allowed) (read : ∀ now, select (.gettimeofday now) = none)
    (set : ∀ time, select (.pollTimer time) = none)
    (sent : select (.sendto sockfd request addr success) = none)
    (each : world.trace.EachAfter allowed) : asked.trace.EachAfter allowed := by
  obtain ⟨readings, timer, trace⟩ := step.trace_eq
  have before : (world.trace ++ readings.map Event.gettimeofday).EachAfter allowed :=
    each.append_of_forall_none concerns (by simp [read])
  rw [trace]
  exact (before.concat_of_none concerns (set timer)).concat_of_none concerns sent

end Asked

/-- A turn of the retry loop only adds events. -/
theorem AttemptStep.trace_prefix {userver : HostInfo} {retryCount : ℤ}
    {result : EStateM.Result Stop World (ℤ ⊕ Option Received)}
    (step : AttemptStep env pollWait sockfd userver retryCount world result) :
    world.trace <+: (finalWorld result).trace := by
  cases step with
  | exhausted => exact List.prefix_rfl
  | waiting => exact List.prefix_append ..
  | unsent asked | unfinished asked | unanswered asked | overrun _ asked | rejected _ _ asked
  | accepted _ _ asked =>
    apply asked.trace_prefix.trans
    simp [finalWorld, List.append_assoc]

end Growth

end Sntp
