import Sntp.Proofs.Observations
import Sntp.Soundness.ClientMachine

/-! # Where a sample comes from

The events right before a printed sample are those of the exchange it is computed from: the clock
reading its request is made of, the timer, the request, the reply and the time of its arrival, with
nothing in between. A property of printed samples holds on every run when it holds after every
accepted attempt.
-/

namespace Sntp.SampleOrigin

open Machine ClientMachine

/-- The timestamps of a reply that arrived at the given reading. -/
def servTs (host : ByteOrder) (reply : Datagram) (arrival : Timeval) : CoreTs :=
  getTimestampsFromPacketInEpochTime host (reply.packet host)
    { originateTimestamp := default
      receiveTimestamp := default
      transmitTimestamp := default
      destinationTimestamp := arrival }

@[simp] theorem servTs_received (env : Env) (reply : Datagram) (arrival : Timeval) :
    (reply.received arrival).servTs env = servTs env.host reply arrival := by
  simp only [Received.servTs, servTs, Datagram.load_received, Datagram.destTime_received]

/-- The exchange behind a sample. -/
structure Exchanged where
  request : Timeval
  timer : Timeval
  sockfd : ℤ
  addr : SockaddrIn
  reply : Datagram
  arrival : Timeval
  replyLast : Bool

namespace Exchanged

variable (host : ByteOrder) (exchanged : Exchanged)

/-- The request of the exchange. -/
def requestPkt : NtpPacket := createPacket host (getNtpTimeOfDay exchanged.request)

/-- The events of the exchange. -/
def events : List Event :=
  [.gettimeofday exchanged.request, .gettimeofday exchanged.timer, .pollTimer exchanged.timer,
    .sendto exchanged.sockfd (exchanged.requestPkt host) exchanged.addr true,
    .recvfrom exchanged.sockfd (some exchanged.reply), .gettimeofday exchanged.arrival,
    .compare exchanged.addr.sinAddr exchanged.reply.source.sinAddr exchanged.replyLast]

/-- The sample that is printed for the exchange, under a name of the server. -/
def sample (name : Text) : Event :=
  let ts := servTs host exchanged.reply exchanged.arrival
  .serverResults ts.transmitTimestamp (calculateClockOffset ts) (calculateErrorBound ts) name
    exchanged.addr.sinAddr (exchanged.reply.packet host).stratum

end Exchanged

/-- The calls by which a client speaks of its exchanges: requests and samples. -/
def exchanges : Event → Option Unit
  | .sendto _ _ _ _ | .serverResults _ _ _ _ _ _ => some ()
  | _ => none

/-- A property of requests and samples that the moves of the client respect. -/
structure Respects (env : Env) (pollWait : ℤ) (allowed : List Event → Event → Prop) : Prop where
  concerns : List.Concerns exchanges allowed
  asked : ∀ (rested : World) (sockfd : ℤ) (addr : SockaddrIn) (success : Bool),
    allowed (rested.startTimer env).trace (.sendto sockfd (rested.request env) addr success)
  searched : ∀ (ready : World) (sockfd : ℤ) (addr : SockaddrIn) (success : Bool),
    allowed (ready.tick env).trace (.sendto sockfd (ready.request env) addr success)
  sampled : ∀ {world final : World} {sockfd : ℤ} {userver : HostInfo} {retryCount : ℤ}
    {received : Received}, AttemptStep env pollWait sockfd userver retryCount world
      (.ok (.inr (some received)) final) → ∀ name,
    allowed final.trace (.serverResults (received.servTs env).transmitTimestamp
      (calculateClockOffset (received.servTs env)) (calculateErrorBound (received.servTs env))
      name userver.addr.sinAddr (NtpPacket.load env.host received.memory 0).stratum)

namespace Respects

variable {env : Env} {cSet : ClientSettings} {pollWait : ℤ} {world : World}
  {allowed : List Event → Event → Prop} (respects : Respects env pollWait allowed)
include respects

private theorem quiet {trace : List Event} (each : trace.EachAfter allowed) {event : Event}
    (none : exchanges event = none) : (trace ++ [event]).EachAfter allowed :=
  each.concat_of_none respects.concerns none

private theorem setUp {ready : World} (each : world.trace.EachAfter allowed)
    (setUp : SetUp world ready) : ready.trace.EachAfter allowed := by
  refine setUp.eachAfter respects.concerns (fun event setsUp => ?_) each
  cases event <;> first | rfl | exact setsUp.elim

private theorem asks {sockfd : ℤ} {addr : SockaddrIn} {success : Bool}
    {request : NtpPacket} {asked : World} (each : world.trace.EachAfter allowed)
    (step : Asked env pollWait sockfd addr success world request asked) :
    asked.trace.EachAfter allowed := by
  cases step with
  | @intro rested wait =>
    have waited : rested.trace.EachAfter allowed := wait.kept each (respects.quiet each rfl)
    have started : (rested.startTimer env).trace.EachAfter allowed :=
      respects.quiet (respects.quiet (respects.quiet waited rfl) rfl) rfl
    rw [World.trace_dispatch]
    exact List.eachAfter_concat.mpr ⟨started, respects.asked rested sockfd addr success⟩

private theorem searches {ready : World} (each : ready.trace.EachAfter allowed)
    (sockfd : ℤ) (addr : SockaddrIn) (success : Bool) :
    (ready.search env sockfd addr success).trace.EachAfter allowed := by
  have read : (ready.tick env).trace.EachAfter allowed := respects.quiet each rfl
  rw [World.trace_search]
  exact List.eachAfter_concat.mpr ⟨read, respects.searched ready sockfd addr success⟩

private theorem attempt {sockfd : ℤ} {userver : HostInfo} {retryCount : ℤ}
    {result : EStateM.Result Stop World (ℤ ⊕ Option Received)}
    (each : world.trace.EachAfter allowed)
    (step : AttemptStep env pollWait sockfd userver retryCount world result) :
    (finalWorld result).trace.EachAfter allowed := by
  cases step with
  | exhausted => exact each
  | waiting => exact respects.quiet each rfl
  | unsent asked => exact respects.quiet (respects.asks each asked) rfl
  | unfinished asked => exact respects.asks each asked
  | unanswered asked => exact respects.quiet (respects.quiet (respects.asks each asked) rfl) rfl
  | overrun datagram asked => exact respects.quiet (respects.asks each asked) rfl
  | rejected datagram replyLast asked =>
    exact respects.quiet (respects.quiet (respects.quiet (respects.quiet (respects.asks each asked)
      rfl) rfl) rfl) rfl
  | accepted datagram replyLast asked =>
    exact respects.quiet (respects.quiet (respects.quiet (respects.asks each asked) rfl) rfl) rfl

private theorem collect {waitTime sockfd : ℤ} {request : NtpPacket} {timer : Timeval}
    {table : ServerTable} {result : EStateM.Result Stop World (ServerTable ⊕ ServerTable)}
    (each : world.trace.EachAfter allowed)
    (step : CollectStep env waitTime sockfd request timer table world result) :
    (finalWorld result).trace.EachAfter allowed := by
  cases step with
  | finished => exact respects.quiet each rfl
  | silent | overrun => exact respects.quiet (respects.quiet each rfl) rfl
  | discarded | full | approved =>
    exact respects.quiet (respects.quiet (respects.quiet each rfl) rfl) rfl

end Respects

/-- Every step of the client keeps a property that its moves respect. -/
theorem respects_step {env : Env} {cSet : ClientSettings} {allowed : List Event → Event → Prop}
    (respects : Respects env cSet.pollWait allowed) {phase next : Phase} {world final : World}
    (step : ClientStep env cSet phase world next final) (each : world.trace.EachAfter allowed) :
    final.trace.EachAfter allowed := by
  cases step with
  | direct => exact each
  | searchFailed code setUp => exact respects.quiet (respects.setUp each setUp) rfl
  | searchUnsent code sockfd addr setUp =>
    exact respects.quiet (respects.searches (respects.setUp each setUp) sockfd addr false) rfl
  | search sockfd addr ntpServers setUp =>
    exact respects.quiet (respects.searches (respects.setUp each setUp) sockfd addr true) rfl
  | gather step => exact respects.collect each step
  | gatherStopped step => exact respects.collect each step
  | unfound step => exact respects.quiet (respects.collect each step) rfl
  | found step => exact respects.quiet (respects.quiet (respects.collect each step) rfl) rfl
  | setUpFailed code setUp => exact respects.quiet (respects.setUp each setUp) rfl
  | begin sockfd userver setUp =>
    have ready := respects.setUp each setUp
    exact respects.quiet ready rfl
  | retry step => exact respects.attempt each step
  | retryStopped step => exact respects.attempt each step
  | exhausted step => exact respects.quiet (respects.attempt each step) rfl
  | sampled step =>
    rw [World.sample, World.trace_report]
    exact respects.quiet (List.eachAfter_concat.mpr
      ⟨respects.attempt each step, respects.sampled step _⟩) rfl
  | wait | waited => exact respects.quiet each rfl
  | finish totals =>
    apply respects.quiet each
    rw [MainLocals.statistics]
    split <;> rfl

/-- What the moves of the client respect holds on every run. -/
theorem clientMain_respects {env : Env} {cSet : ClientSettings}
    {allowed : List Event → Event → Prop} (respects : Respects env cSet.pollWait allowed)
    (fuel : ℕ) (ntpServers : ℕ → CharPtr) (offsetTotal errorBoundTotal : ℚ) (ntoa : Text)
    (vars : SampleVars) :
    (finalWorld (clientMain env fuel cSet ntpServers offsetTotal errorBoundTotal
      ⟨ntoa, vars, []⟩)).trace.EachAfter allowed := by
  obtain ⟨phase, reaches⟩ :=
    clientMain_reaches env cSet ⟨ntoa, vars, []⟩ fuel ntpServers offsetTotal errorBoundTotal
  exact reaches.invariant (fun _ world => world.trace.EachAfter allowed)
    (List.eachAfter_nil _) fun phase world next final step => respects_step respects step

/-- A request is made of a reading, and a sample is printed right after its exchange, whose reply
passed the sanity checks. -/
def Originates (host : ByteOrder) (before : List Event) : Event → Prop
  | .sendto _ pkt _ _ => ∃ reading, pkt = createPacket host (getNtpTimeOfDay reading)
  | .serverResults transmitTime offset errorBound name addr stratum =>
    ∃ (exchanged : Exchanged) (earlier : List Event), before = earlier ++ exchanged.events host ∧
      .serverResults transmitTime offset errorBound name addr stratum = exchanged.sample host name ∧
      runSanityChecks (exchanged.requestPkt host) (exchanged.reply.packet host) = 0
  | _ => True

theorem respects_originates (env : Env) (pollWait : ℤ) :
    Respects env pollWait (Originates env.host) where
  concerns := by
    intro before event none
    cases event <;> trivial
  asked := fun rested _ _ _ => ⟨rested.now env, rfl⟩
  searched := fun ready _ _ _ => ⟨ready.now env, rfl⟩
  sampled := by
    intro world final sockfd userver retryCount received step name
    cases step with
    | @accepted request asked datagram replyLast asking passes =>
      cases asking with
      | @intro rested wait =>
        refine ⟨⟨rested.now env, (rested.tick env).now env, sockfd, userver.addr, datagram,
          ((rested.dispatch env sockfd userver.addr true).arrive sockfd datagram).now env,
          replyLast⟩, rested.trace, ?_, ?_, passes⟩
        · simp only [World.trace_answer, World.trace_arrive, World.trace_dispatch,
            World.trace_startTimer, Exchanged.events, List.append_assoc, List.cons_append,
            List.nil_append]
          rfl
        · simp only [Exchanged.sample, servTs_received, Datagram.load_received]

/-- On every run the requests are made of readings and the samples are printed right after their
exchanges. -/
theorem clientMain_originates (env : Env) (cSet : ClientSettings) (fuel : ℕ)
    (ntpServers : ℕ → CharPtr) (offsetTotal errorBoundTotal : ℚ) (ntoa : Text) (vars : SampleVars) :
    (finalWorld (clientMain env fuel cSet ntpServers offsetTotal errorBoundTotal
      ⟨ntoa, vars, []⟩)).trace.EachAfter (Originates env.host) :=
  clientMain_respects (respects_originates env cSet.pollWait) fuel ntpServers offsetTotal
    errorBoundTotal ntoa vars

end Sntp.SampleOrigin
