import Sntp.Model.UnicastMode
import Sntp.Proofs.ClientNetwork

/-! # The steps of a retry

`AttemptStep` lists the outcomes of one turn of the retry loop with the events each of them leaves.
A request is answered by the first datagram that arrives, whatever its source, because the
comparison of addresses never asks for another one.
-/

namespace Sntp

open Machine

namespace World

/-- The clock readings of a new request, the second of which is the new timer. -/
def startTimer (env : Env) (world : World) : World :=
  ((world.tick env).tick env).setTimer ((world.tick env).now env)

/-- A new request and its `sendto`. -/
def dispatch (env : Env) (sockfd : ℤ) (addr : SockaddrIn) (success : Bool) (world : World) : World :=
  let sent := (world.startTimer env).log (.sendto sockfd (world.request env) addr success)
  if success then sent.format addr.sinAddr else sent

/-- The world in which a datagram has arrived. -/
def arrive (sockfd : ℤ) (datagram : Datagram) (world : World) : World :=
  world.log (.recvfrom sockfd (some datagram))

/-- The arrival of a datagram and the comparison of its source. -/
def answer (env : Env) (sockfd : ℤ) (addr : SockaddrIn) (datagram : Datagram) (replyLast : Bool)
    (world : World) : World :=
  (((world.arrive sockfd datagram).tick env).log
    (.compare addr.sinAddr datagram.source.sinAddr replyLast)).format
      (if replyLast then datagram.source.sinAddr else addr.sinAddr)

/-- The world after a sample has been stored and printed. -/
def report (sockfd : ℤ) (userver : HostInfo) (transmitTime : Timeval) (offset errorBound : ℚ)
    (stratum : UInt8) (world : World) : World :=
  let sampled := world.setSample offset errorBound
  ((sampled.format userver.addr.sinAddr).log (.serverResults transmitTime offset errorBound
    (sampled.deref userver.name) userver.addr.sinAddr stratum)).log (.close sockfd)

/-- The world after the sample of a reply has been computed and reported. -/
def sample (env : Env) (sockfd : ℤ) (userver : HostInfo) (received : Received) (world : World) :
    World :=
  world.report sockfd userver (received.servTs env).transmitTimestamp
    (calculateClockOffset (received.servTs env)) (calculateErrorBound (received.servTs env))
    (NtpPacket.load env.host received.memory 0).stratum

end World

/-- The poll wait is over: no timer is set, or enough time has elapsed. -/
inductive Rested (env : Env) (pollWait : ℤ) (world : World) : World → Prop
  | unset : world.vars.pollTimer.tvSec = -1 → Rested env pollWait world world
  | elapsed : world.vars.pollTimer.tvSec ≠ -1 →
      pollWait < getElapsedTime world.vars.pollTimer (world.now env) →
      Rested env pollWait world (world.tick env)

/-- A wait that is over has kept what a reading of the clock keeps. -/
@[elab_as_elim]
theorem Rested.kept {env : Env} {pollWait : ℤ} {world rested : World} {kept : World → Prop}
    (wait : Rested env pollWait world rested) (holds : kept world) (tick : kept (world.tick env)) :
    kept rested := by
  cases wait with
  | unset => exact holds
  | elapsed => exact tick

/-- After the wait, a request is created and passed to `sendto`. -/
inductive Asked (env : Env) (pollWait : ℤ) (sockfd : ℤ) (addr : SockaddrIn)
    (success : Bool) (world : World) : NtpPacket → World → Prop
  | intro {rested : World} : Rested env pollWait world rested →
      Asked env pollWait sockfd addr success world (rested.request env)
        (rested.dispatch env sockfd addr success)

/-- One turn of the retry loop: it goes round again with the `inl` value of `retry_count`, ends
with an `inr` value, or stops. -/
inductive AttemptStep (env : Env) (pollWait : ℤ) (sockfd : ℤ) (userver : HostInfo)
    (retryCount : ℤ) (world : World) : EStateM.Result Stop World (ℤ ⊕ Option Received) → Prop
  | exhausted :
      AttemptStep env pollWait sockfd userver retryCount world (.ok (.inr none) world)
  | waiting :
      AttemptStep env pollWait sockfd userver retryCount world (.ok (.inl retryCount) (world.tick env))
  | unsent {request : NtpPacket} {asked : World} :
      Asked env pollWait sockfd userver.addr false world request asked →
      AttemptStep env pollWait sockfd userver retryCount world
        (.ok (.inl (toInt (retryCount + 1))) (asked.tick env))
  | unfinished {request : NtpPacket} {asked : World} :
      Asked env pollWait sockfd userver.addr true world request asked →
      AttemptStep env pollWait sockfd userver retryCount world (.error .outOfFuel asked)
  | unanswered {request : NtpPacket} {asked : World} :
      Asked env pollWait sockfd userver.addr true world request asked →
      AttemptStep env pollWait sockfd userver retryCount world
        (.ok (.inl (toInt (retryCount + 1))) ((asked.log (.recvfrom sockfd none)).tick env))
  | overrun {request : NtpPacket} {asked : World} (datagram : Datagram) :
      Asked env pollWait sockfd userver.addr true world request asked →
      AttemptStep env pollWait sockfd userver retryCount world
        (.error .overrun (asked.arrive sockfd datagram))
  | rejected {request : NtpPacket} {asked : World} (datagram : Datagram) (replyLast : Bool) :
      Asked env pollWait sockfd userver.addr true world request asked →
      runSanityChecks request (datagram.packet env.host) ≠ 0 →
      AttemptStep env pollWait sockfd userver retryCount world
        (.ok (.inl (toInt (retryCount + 1)))
          ((asked.answer env sockfd userver.addr datagram replyLast).tick env))
  | accepted {request : NtpPacket} {asked : World} (datagram : Datagram) (replyLast : Bool) :
      Asked env pollWait sockfd userver.addr true world request asked →
      runSanityChecks request (datagram.packet env.host) = 0 →
      AttemptStep env pollWait sockfd userver retryCount world
        (.ok (.inr (some (datagram.received ((asked.arrive sockfd datagram).now env))))
          (asked.answer env sockfd userver.addr datagram replyLast))

section

variable {env : Env} {cSet : ClientSettings} {sockfd : ℤ} {userver : HostInfo} {world : World}

/-- The listening loop ends with its first turn. -/
private theorem wp_listening (fuel : ℕ) {returned : Option Received → World → Prop}
    {stopped : Stop → World → Prop}
    (unfinished : stopped .outOfFuel world)
    (unanswered : returned none ((world.log (.recvfrom sockfd none)).tick env))
    (overrun : ∀ datagram, stopped .overrun (world.arrive sockfd datagram))
    (answered : ∀ datagram replyLast,
      returned (some (datagram.received ((world.arrive sockfd datagram).now env)))
        (world.answer env sockfd userver.addr datagram replyLast)) :
    Wp (loop .outOfFuel (listen env cSet sockfd userver) fuel ()) returned stopped world := by
  refine wp_loop (fun _ state => state = world) ?_ ?_ fuel () rfl
  · rintro ⟨⟩ state rfl
    rw [listen, wp_bind]
    apply wp_recieveOnClient
    · intro received failed
      simpa [failed, remainingTime] using unanswered
    · exact fun datagram _ => overrun datagram
    · intro datagram _ arrived
      have stored : (datagram.received (arrived.now env)).code = 0 := rfl
      simp only [stored, ne_eq, not_true_eq_false, ↓reduceIte, wp_bind, wp_isSameIpaddr, wp_pure]
      exact answered datagram _
  · rintro ⟨⟩ state rfl
    exact unfinished

@[simp] theorem wp_reportSample (received : Received) {returned : Unit → World → Prop}
    {stopped : Stop → World → Prop} :
    Wp (reportSample env sockfd userver received) returned stopped world ↔
      returned () (world.sample env sockfd userver received) := Iff.rfl

theorem wp_mustWait {returned : Bool → World → Prop} {stopped : Stop → World → Prop}
    (waiting : returned true (world.tick env))
    (rested : ∀ rested, Rested env cSet.pollWait world rested → returned false rested) :
    Wp (mustWait env cSet) returned stopped world := by
  rw [mustWait, wp_bind, wp_get, wp_ite]
  refine ⟨fun set => ?_, fun unset => rested world (.unset (not_not.mp unset))⟩
  rw [wp_bind, wp_elapsedTime, wp_pure]
  by_cases short : getElapsedTime world.vars.pollTimer (world.now env) ≤ cSet.pollWait
  · rwa [decide_eq_true short]
  · rw [decide_eq_false short]
    exact rested _ (.elapsed set (not_le.mp short))

/-- Every turn of the retry loop is one of the steps. -/
theorem wp_attempt (fuel : ℕ) (retryCount : ℤ) :
    Wp (attempt env cSet fuel sockfd userver retryCount)
      (fun next final => AttemptStep env cSet.pollWait sockfd userver retryCount world (.ok next final))
      (fun stop final => AttemptStep env cSet.pollWait sockfd userver retryCount world (.error stop final))
      world := by
  rw [attempt, wp_ite]
  refine ⟨fun _ => .exhausted, fun _ => ?_⟩
  rw [wp_bind]
  apply wp_mustWait
  · exact .waiting
  intro state rested
  simp only [Bool.false_eq_true, ↓reduceIte, wp_bind, wp_createRequest, wp_gettimeofday, wp_modify,
    wp_sendSntpPacket]
  split
  · simp only [ne_eq, not_true_eq_false, ↓reduceIte, wp_bind]
    apply wp_listening
    · exact .unfinished (.intro rested)
    · exact .unanswered (.intro rested)
    · exact fun datagram => .overrun datagram (.intro rested)
    intro datagram replyLast
    simp only [Datagram.load_received, wp_ite]
    constructor
    · exact fun fails => .rejected datagram replyLast (.intro rested) fails
    · exact fun passes => .accepted datagram replyLast (.intro rested) (not_not.mp passes)
  · exact .unsent (.intro rested)

/-- `unicast_mode` is refused a socket, its timeout or a server, or retries and reports the reply it
accepts. -/
theorem wp_unicastMode_codes (fuel : ℕ) {returned : ℤ → World → Prop} {stopped : Stop → World → Prop}
    (refused : env.socket world.trace.length = -1 → returned 3 (world.log (.socket (-1))))
    (untimed : ∀ sockfd time, ¬ SetUpSucceeds env cSet world →
      Opened env world sockfd (world.log (.socket sockfd)) →
      returned 8 ((world.log (.socket sockfd)).log (.setsockopt sockfd (.receiveTimeout time) false)))
    (unresolved : ∀ sockfd ready (event : Event), event.FindsNothing →
      ¬ SetUpSucceeds env cSet world → Opened env world sockfd ready → returned 2 (ready.log event))
    (retrying : ∀ sockfd userver ready, SetUpSucceeds env cSet world →
      Opened env world sockfd ready → Resolved env (world.deref cSet.serverHost) userver →
      Wp (loop .outOfFuel (attempt env cSet fuel sockfd userver) fuel 1)
        (fun answer final => answer.elim (returned 4 final) fun received =>
          returned 0 (final.sample env sockfd userver received))
        stopped (ready.setTimer (unsetTimer ready.vars.pollTimer))) :
    Wp (unicastMode env cSet fuel) returned stopped world := by
  rw [unicastMode, wp_bind]
  apply wp_initialiseSocket
  · exact refused
  intro sockfd success valid same set
  have opened : Opened env world sockfd (world.log (.socket sockfd)) := .socket valid same
  have created := opened.setsockopt (.receiveTimeout ⟨cSet.recvUniTimeout, 0⟩) success
  have lookup : lookUp env ((world.log (.socket sockfd)).log (.setsockopt sockfd
        (.receiveTimeout ⟨cSet.recvUniTimeout, 0⟩) success)).trace.length =
      lookUp env (world.trace.length + 2) := by simp
  have name : ((world.log (.socket sockfd)).log (.setsockopt sockfd
        (.receiveTimeout ⟨cSet.recvUniTimeout, 0⟩) success)).deref cSet.serverHost =
      world.deref cSet.serverHost := by
    cases cSet.serverHost <;> rfl
  cases success with
  | false =>
    refine untimed sockfd _ (fun succeeds => ?_) opened
    exact absurd (set.symm.trans succeeds.2.1) Bool.false_ne_true
  | true =>
    simp only [↓reduceIte]
    rw [wp_bind]
    apply wp_initialiseServerInterface_asks
    · intro event nothing none
      refine unresolved sockfd _ event nothing (fun succeeds => ?_) created
      rw [lookup, name] at none
      have some := succeeds.2.2
      simp [none] at some
    · intro event he hostName prepares found
      rw [lookup, name] at found
      have succeeds : SetUpSucceeds env cSet world :=
        ⟨same ▸ valid, set, Option.isSome_iff_exists.mpr ⟨he, found⟩⟩
      simp only [wp_bind, wp_modify]
      refine (retrying sockfd _ _ succeeds (created.log prepares) (resolved_of_lookUp found hostName
        cSet.serverPort)).mono ?_ fun _ _ stop => stop
      rintro (_ | received) final outcome
      · exact outcome
      · simpa only [wp_bind, wp_reportSample, wp_pure, Option.elim_some] using outcome

/-- `unicast_mode` is refused a socket, fails while it sets up, or retries and reports the reply it
accepts. -/
theorem wp_unicastMode_cases (fuel : ℕ) {returned : ℤ → World → Prop} {stopped : Stop → World → Prop}
    (refused : env.socket world.trace.length = -1 → returned 3 (world.log (.socket (-1))))
    (failed : ∀ code sockfd final, code ≠ 0 → ¬ SetUpSucceeds env cSet world →
      Opened env world sockfd final → returned code final)
    (retrying : ∀ sockfd userver ready, SetUpSucceeds env cSet world →
      Opened env world sockfd ready → Resolved env (world.deref cSet.serverHost) userver →
      Wp (loop .outOfFuel (attempt env cSet fuel sockfd userver) fuel 1)
        (fun answer final => answer.elim (returned 4 final) fun received =>
          returned 0 (final.sample env sockfd userver received))
        stopped (ready.setTimer (unsetTimer ready.vars.pollTimer))) :
    Wp (unicastMode env cSet fuel) returned stopped world :=
  wp_unicastMode_codes fuel refused
    (fun sockfd _ fails opened => failed 8 sockfd _ (by decide) fails (opened.setsockopt ..))
    (fun sockfd _ _ nothing fails opened =>
      failed 2 sockfd _ (by decide) fails (opened.log nothing.prepares))
    retrying

end

end Sntp
