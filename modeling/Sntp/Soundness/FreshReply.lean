import Sntp.Soundness.Exchange
import Sntp.Soundness.PollTimer

/-! # Every sample answers the latest request

Replies to earlier requests of a run, manycast or unicast, may still arrive while a new request is
waiting for its own. They are recognised by their originate timestamp, because the poll interval
gives every request a second of its own and the encoding of seconds is injective over a run. The
exception is the one reading that looks like a timer that has not been set.
-/

namespace Sntp.FreshReply

open Machine ClientMachine PollTimer

/-- The reply is what some server makes of the request. -/
def ProducedFrom (env : Env) (request : NtpPacket) (reply : Datagram) : Prop :=
  ∃ server memory clientAddr serverAddr timeOfRequest transmitTsNtp,
    reply = (createReplyPacket server
      { client := clientAddr
        pkt := Exchange.arrive server memory (request.datagram env.host clientAddr)
        timeOfRequest := timeOfRequest } transmitTsNtp).datagram server serverAddr

/-- If the reply behind a sample was produced from a request of the run, that request is the latest
one. -/
def Fresh (env : Env) (before : List Event) (event : Event) : Prop :=
  event.results.isSome → ∀ reply, before.latest Event.datagram = some reply →
    ∀ earlier send later request addr, before = earlier ++ send :: later →
      send.request = some (request, addr) → ProducedFrom env request reply →
      ∀ other ∈ later, other.request = none

/-- The originate timestamp of a produced reply is the transmit timestamp of its request. -/
theorem ProducedFrom.originateTimestamp {env : Env} {request : NtpPacket} {reply : Datagram}
    (produced : ProducedFrom env request reply) :
    (reply.packet env.host).originateTimestamp = request.transmitTimestamp := by
  obtain ⟨server, memory, clientAddr, serverAddr, timeOfRequest, transmitTsNtp, rfl⟩ := produced
  have fields := Exchange.reply_fields env.host server (fun _ => 0) memory clientAddr serverAddr
    timeOfRequest transmitTsNtp request
  simp only [Exchange.reply, Exchange.arrive, load_recieve] at fields ⊢
  exact fields.2.2.1

/-- Requests made at readings of different seconds differ in their transmit timestamps. -/
theorem transmitTimestamp_ne (host : ByteOrder) {first second : Timeval}
    (later : first.tvSec < second.tvSec) (near : second.tvSec - first.tvSec < 2 ^ 32) :
    (createPacket host (getNtpTimeOfDay first)).transmitTimestamp ≠
      (createPacket host (getNtpTimeOfDay second)).transmitTimestamp := by
  intro same
  have encoded := NtpTime.hton_injective host same
  exact convertUnix_second_ne later near (congrArg NtpTime.second encoded)

/-- A request may be sent in a second after those of all requests before it. -/
def freshness (env : Env) (trace : List Event) (second : ℤ) : Prop :=
  ∀ event ∈ trace, ∀ request addr, event.request = some (request, addr) →
    ∃ index, request = createPacket env.host (getNtpTimeOfDay (env.clock index)) ∧
      (env.clock index).tvSec < second

theorem freshness_send {env : Env} {trace : List Event} {second : ℤ}
    (permitted : freshness env trace second) {index : ℕ} (past : (env.clock index).tvSec < second)
    (sockfd : ℤ) (addr : SockaddrIn) (success : Bool) :
    freshness env (trace ++ [.sendto sockfd
      (createPacket env.host (getNtpTimeOfDay (env.clock index))) addr success]) second := by
  intro event member request target asked
  rcases List.mem_append.mp member with old | new
  · exact permitted event old request target asked
  · rw [List.mem_singleton.mp new] at asked
    exact ⟨index, (Prod.mk.inj (Option.some.inj asked)).1.symm, past⟩

theorem discipline_freshness (env : Env) {pollWait : ℤ} (nonneg : 0 ≤ pollWait) :
    Discipline env pollWait (freshness env) where
  empty := fun _ event member => absurd member List.not_mem_nil
  later := by
    intro trace first second order permitted event member request addr asked
    obtain ⟨index, made, past⟩ := permitted event member request addr asked
    exact ⟨index, made, past.trans_le order⟩
  quiet := by
    intro trace event second none permitted other member request addr asked
    rcases List.mem_append.mp member with old | new
    · exact permitted other old request addr asked
    · rw [List.mem_singleton.mp new, none] at asked
      exact absurd asked (by simp)
  sent := by
    intro trace index timer sockfd addr success second _ permitted order late
    refine freshness_send (fun event member request target asked => ?_) (by omega) sockfd addr success
    obtain ⟨start, made, past⟩ := permitted event member request target asked
    exact ⟨start, made, by omega⟩
  searched := by
    intro trace index sockfd addr second _ permitted past
    exact freshness_send (permitted second) past sockfd addr true

/-- A sample is computed from a datagram that passes the sanity checks against the latest request,
which is a unicast one. -/
def Sound (env : Env) (before : List Event) (event : Event) : Prop :=
  event.results.isSome → ∃ earlier timer sockfd request addr later reply,
    before = earlier ++ [.pollTimer timer] ++ .sendto sockfd request addr true :: later ∧
    (∀ other ∈ later, other.request = none) ∧ before.latest Event.datagram = some reply ∧
    runSanityChecks request (reply.packet env.host) = 0

section

variable {env : Env} {cSet : ClientSettings} {world : World}

private theorem concerns_sound (env : Env) : List.Concerns Event.results (Sound env) := by
  intro before event none some
  simp [none] at some

private theorem sound_quiet {trace : List Event} (sound : trace.EachAfter (Sound env))
    {event : Event} (quiet : event.results = none) : (trace ++ [event]).EachAfter (Sound env) :=
  sound.concat_of_none (concerns_sound env) quiet

private theorem sound_setUp {ready : World} (sound : world.trace.EachAfter (Sound env))
    (setUp : SetUp world ready) : ready.trace.EachAfter (Sound env) :=
  setUp.eachAfter (concerns_sound env) (fun _ => Event.SetsUp.results_eq_none) sound

private theorem sound_asked {pollWait sockfd : ℤ} {addr : SockaddrIn} {success : Bool}
    {request : NtpPacket} {asked : World} (sound : world.trace.EachAfter (Sound env))
    (step : Asked env pollWait sockfd addr success world request asked) :
    asked.trace.EachAfter (Sound env) :=
  step.eachAfter (concerns_sound env) (fun _ => rfl) (fun _ => rfl) rfl sound

private theorem sound_attempt {pollWait sockfd : ℤ} {userver : HostInfo} {retryCount : ℤ}
    {result : EStateM.Result Stop World (ℤ ⊕ Option Received)}
    (sound : world.trace.EachAfter (Sound env))
    (step : AttemptStep env pollWait sockfd userver retryCount world result) :
    (finalWorld result).trace.EachAfter (Sound env) := by
  cases step with
  | exhausted => exact sound
  | waiting => exact sound_quiet sound rfl
  | unsent asked => exact sound_quiet (sound_asked sound asked) rfl
  | unfinished asked => exact sound_asked sound asked
  | unanswered asked => exact sound_quiet (sound_quiet (sound_asked sound asked) rfl) rfl
  | overrun datagram asked => exact sound_quiet (sound_asked sound asked) rfl
  | rejected datagram replyLast asked =>
    exact sound_quiet (sound_quiet (sound_quiet (sound_quiet (sound_asked sound asked) rfl) rfl)
      rfl) rfl
  | accepted datagram replyLast asked =>
    exact sound_quiet (sound_quiet (sound_quiet (sound_asked sound asked) rfl) rfl) rfl

private theorem sound_collect {waitTime sockfd : ℤ} {request : NtpPacket} {timer : Timeval}
    {table : ServerTable} {result : EStateM.Result Stop World (ServerTable ⊕ ServerTable)}
    (sound : world.trace.EachAfter (Sound env))
    (step : CollectStep env waitTime sockfd request timer table world result) :
    (finalWorld result).trace.EachAfter (Sound env) := by
  cases step with
  | finished => exact sound_quiet sound rfl
  | silent | overrun => exact sound_quiet (sound_quiet sound rfl) rfl
  | discarded | full | approved => exact sound_quiet (sound_quiet (sound_quiet sound rfl) rfl) rfl

private theorem sound_search {ready : World} (sound : ready.trace.EachAfter (Sound env))
    (sockfd : ℤ) (addr : SockaddrIn) (success : Bool) :
    (ready.search env sockfd addr success).trace.EachAfter (Sound env) := by
  rw [World.trace_search]
  exact sound_quiet (sound_quiet sound rfl) rfl

private theorem sound_sample {pollWait sockfd : ℤ} {userver : HostInfo} {retryCount : ℤ}
    {received : Received} {final : World} (sound : world.trace.EachAfter (Sound env))
    (step : AttemptStep env pollWait sockfd userver retryCount world
      (.ok (.inr (some received)) final)) :
    (final.sample env sockfd userver received).trace.EachAfter (Sound env) := by
  obtain ⟨_, _, _, _, _, trace⟩ := final.trace_sample env sockfd userver received
  rw [trace]
  refine sound_quiet (List.eachAfter_concat.mpr ⟨sound_attempt sound step, fun _ => ?_⟩) rfl
  cases step with
  | @accepted request sent datagram replyLast asked passes =>
    obtain ⟨readings, timer, split⟩ := asked.trace_eq
    refine ⟨world.trace ++ readings.map .gettimeofday, timer, sockfd, request, userver.addr,
      [.recvfrom sockfd (some datagram), .gettimeofday ((sent.arrive sockfd datagram).now env),
        .compare userver.addr.sinAddr datagram.source.sinAddr replyLast], datagram, ?_, ?_, ?_, passes⟩
    · simp only [finalWorld, World.trace_answer, World.trace_arrive, split, List.append_assoc,
        List.cons_append, List.nil_append]
    · simp [Event.request]
    · simp only [finalWorld, World.trace_answer, World.trace_arrive, List.latest_concat, Event.datagram,
        Option.none_or, Option.some_or]

/-- Every step of the client keeps the samples sound. -/
theorem sound_step {phase next : Phase} {final : World}
    (step : ClientStep env cSet phase world next final)
    (sound : world.trace.EachAfter (Sound env)) : final.trace.EachAfter (Sound env) := by
  cases step with
  | direct => exact sound
  | searchFailed code setUp => exact sound_quiet (sound_setUp sound setUp) rfl
  | searchUnsent code sockfd addr setUp =>
    exact sound_quiet (sound_search (sound_setUp sound setUp) sockfd addr false) rfl
  | search sockfd addr ntpServers setUp =>
    exact sound_quiet (sound_search (sound_setUp sound setUp) sockfd addr true) rfl
  | gather step => exact sound_collect sound step
  | gatherStopped step => exact sound_collect sound step
  | unfound step => exact sound_quiet (sound_collect sound step) rfl
  | found step => exact sound_quiet (sound_quiet (sound_collect sound step) rfl) rfl
  | setUpFailed code setUp => exact sound_quiet (sound_setUp sound setUp) rfl
  | begin sockfd userver setUp => exact sound_quiet (sound_setUp sound setUp) rfl
  | retry step => exact sound_attempt sound step
  | retryStopped step => exact sound_attempt sound step
  | exhausted step => exact sound_quiet (sound_attempt sound step) rfl
  | sampled step => exact sound_sample sound step
  | wait => exact sound_quiet sound rfl
  | waited => exact sound_quiet sound rfl
  | finish totals =>
    apply sound_quiet sound
    rw [MainLocals.statistics]
    split <;> rfl

end

/-- On every run each sample is computed from a datagram that passes the sanity checks against the
latest request. -/
theorem clientMain_sound (env : Env) (cSet : ClientSettings) (fuel : ℕ) (ntpServers : ℕ → CharPtr)
    (offsetTotal errorBoundTotal : ℚ) (ntoa : Text) (vars : SampleVars) :
    (finalWorld (clientMain env fuel cSet ntpServers offsetTotal errorBoundTotal
      ⟨ntoa, vars, []⟩)).trace.EachAfter (Sound env) := by
  obtain ⟨phase, reaches⟩ :=
    clientMain_reaches env cSet ⟨ntoa, vars, []⟩ fuel ntpServers offsetTotal errorBoundTotal
  exact reaches.invariant (fun _ world => world.trace.EachAfter (Sound env)) (List.eachAfter_nil _)
    fun phase world next final step => sound_step step

/-- Under a steady clock without the reading of an unset timer, no run reports a sample from a reply
to any but its latest request. -/
theorem samples_fresh (env : Env) (cSet : ClientSettings) (fuel : ℕ) (ntpServers : ℕ → CharPtr)
    (offsetTotal errorBoundTotal : ℚ) (ntoa : Text) (vars : SampleVars)
    (nonneg : 0 ≤ cSet.pollWait) (steady : Steady env.clock)
    (set : ∀ index, (env.clock index).tvSec ≠ -1) :
    (finalWorld (clientMain env fuel cSet ntpServers offsetTotal errorBoundTotal
      ⟨ntoa, vars, []⟩)).trace.EachAfter (Fresh env) := by
  have history := clientMain_permitted steady set (discipline_freshness env nonneg) fuel ntpServers
    offsetTotal errorBoundTotal ntoa vars
  have sound := clientMain_sound env cSet fuel ntpServers offsetTotal errorBoundTotal ntoa vars
  intro before event after split reported reply latest earlier send later request addr before_eq
    asked produced other member
  obtain ⟨prior, timer, sockfd, own, target, rest, accepted, own_split, quiet, inForce, passes⟩ :=
    sound before event after split reported
  obtain rfl := Option.some.inj (latest.symm.trans inForce)
  rcases List.mem_or_eq_or_mem_of_append_cons (before_eq.symm.trans own_split) with
    past | ⟨-, -, rfl⟩ | future
  · -- An earlier request was made in an earlier second, so the reply would carry its own timestamp.
    rw [own_split, List.append_assoc, List.cons_append] at split
    have written : (prior ++ [Event.pollTimer timer]).latest Event.timer = some timer :=
      List.latest_concat ..
    obtain ⟨-, -, index, rfl, fresh⟩ := history _ _ _ split own target timer rfl written
    obtain ⟨start, rfl, order⟩ := fresh send past request addr asked
    have matched := ((runSanityChecks_eq_zero_iff ..).mp passes).1
    rw [produced.originateTimestamp] at matched
    have near := steady.span start index
    exact absurd matched.symm (transmitTimestamp_ne env.host order (by omega))
  · exact quiet other member
  · exact absurd (quiet send future) (by simp [asked])

/-- A clock may stand still. -/
theorem steady_const (now : Timeval) (normal : now.Normal) : Steady fun _ => now where
  normal := fun _ => normal
  monotone := fun _ _ _ => le_rfl
  span := fun _ _ => by simp

def queriedAddr : SockaddrIn := ⟨0, ⟨10, 0, 0, 1⟩⟩

/-- The request and the reply of a client and a server whose clocks stand still. -/
def requestAt (now : Timeval) : NtpPacket := createPacket .little (getNtpTimeOfDay now)

def replyAt (now : Timeval) : Datagram :=
  (createReplyPacket .little
    { client := queriedAddr
      pkt := Exchange.arrive .little (fun _ => 0) ((requestAt now).datagram .little queriedAddr)
      timeOfRequest := getNtpTimeOfDay now } (getNtpTimeOfDay now)).datagram .little queriedAddr

/-- The reply arrives from the given event on; until then receiving times out. -/
def replyEnv (now : Timeval) (arrival : ℕ) : Env :=
  .benign (fun _ => now) fun index => if index < arrival then none else some (replyAt now)

def replyRun (now : Timeval) (arrival : ℕ) : EStateM.Result Stop World ℤ :=
  clientMain (replyEnv now arrival) 3 (.defaults (.text (dotted queriedAddr.sinAddr)) 0)
    (fun _ => .ntoaBuffer) 0 0 ⟨[], ⟨0, 0, default⟩, []⟩

/-- The reply arrives in time. -/
theorem samples_fresh_in_time :
    (finalWorld (replyRun ⟨1000000000, 0⟩ 0)).trace.EachAfter
      (Fresh (replyEnv ⟨1000000000, 0⟩ 0)) :=
  samples_fresh _ _ _ _ _ _ _ _ (by decide) (steady_const _ ⟨le_rfl, by decide⟩) fun _ =>
    show (1000000000 : ℤ) ≠ -1 by decide

/-- At the reading of an unset timer the second attempt does not wait, and the reply to the first
is accepted after the second request was sent. -/
theorem sample_not_fresh_before_epoch :
    0 ≤ (ClientSettings.defaults (.text (dotted queriedAddr.sinAddr)) 0).pollWait ∧
    Steady (replyEnv ⟨-1, 0⟩ 10).clock ∧
    ¬ (finalWorld (replyRun ⟨-1, 0⟩ 10)).trace.EachAfter (Fresh (replyEnv ⟨-1, 0⟩ 10)) := by
  refine ⟨by decide, steady_const _ ⟨le_rfl, by decide⟩, fun fresh => ?_⟩
  let before := (finalWorld (replyRun ⟨-1, 0⟩ 10)).trace.take 17
  have sampled : ((finalWorld (replyRun ⟨-1, 0⟩ 10)).trace[17]?.bind Event.results).isSome := by
    decide +kernel
  obtain ⟨event, found, reported⟩ : ∃ event, (finalWorld (replyRun ⟨-1, 0⟩ 10)).trace[17]? =
      some event ∧ event.results.isSome := by
    obtain ⟨results, some⟩ := Option.isSome_iff_exists.mp sampled
    obtain ⟨event, found, same⟩ := Option.bind_eq_some_iff.mp some
    exact ⟨event, found, by rw [same]; rfl⟩
  have latest : before.latest Event.datagram = some (replyAt ⟨-1, 0⟩) := by decide +kernel
  have first : before = before.take 7 ++ .sendto 3 (requestAt ⟨-1, 0⟩) ⟨31488, ⟨10, 0, 0, 1⟩⟩ true ::
      before.drop 8 := by decide +kernel
  have second : .sendto 3 (requestAt ⟨-1, 0⟩) ⟨31488, ⟨10, 0, 0, 1⟩⟩ true ∈ before.drop 8 := by
    decide +kernel
  have unasked := fresh.of_getElem? found reported _ latest _ _ _ _ _ first rfl
    ⟨_, _, _, _, _, _, rfl⟩ _ second
  simp [Event.request] at unasked

end Sntp.FreshReply
