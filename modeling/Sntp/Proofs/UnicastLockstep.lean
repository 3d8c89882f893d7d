import Sntp.Machine.Lockstep
import Sntp.Proofs.UnicastSteps

/-! # Two calls of unicast_mode

The answers of the outside are indexed by the number of events, and the poll timer is written before
it is read. Two calls therefore take the same way from worlds that agree on the buffer of `inet_ntoa`
and on the number of events, whatever their poll timers hold; afterwards the timers agree as well if
the calls have got as far as to write them.
-/

namespace Sntp

open Machine

/-- What two worlds share, with the seconds of the poll timer if it is `timed`. -/
structure Agree (timed : Prop) (world world' : World) : Prop where
  ntoa : world.ntoa = world'.ntoa
  length : world.trace.length = world'.trace.length
  timer : timed → world.vars.pollTimer.tvSec = world'.vars.pollTimer.tvSec

variable {env : Env} {cSet : ClientSettings} {timed : Prop} {world world' : World}

namespace Agree

theorem weaken {timed' : Prop} (agree : Agree timed world world') (fewer : timed' → timed) :
    Agree timed' world world' :=
  ⟨agree.ntoa, agree.length, fun holds => agree.timer (fewer holds)⟩

theorem log (agree : Agree timed world world') (event event' : Event) :
    Agree timed (world.log event) (world'.log event') :=
  ⟨agree.ntoa, by simp [agree.length], agree.timer⟩

theorem tick (agree : Agree timed world world') : Agree timed (world.tick env) (world'.tick env) :=
  agree.log ..

theorem format (agree : Agree timed world world') (a : InAddr) :
    Agree timed (world.format a) (world'.format a) :=
  ⟨rfl, agree.length, agree.timer⟩

theorem setSample (agree : Agree timed world world') (offset errorBound : ℚ) :
    Agree timed (world.setSample offset errorBound) (world'.setSample offset errorBound) :=
  ⟨agree.ntoa, agree.length, agree.timer⟩

/-- A write makes the timers agree. -/
theorem setTimer {timed' : Prop} (agree : Agree timed world world') {time time' : Timeval}
    (same : time.tvSec = time'.tvSec) :
    Agree timed' (world.setTimer time) (world'.setTimer time') :=
  ⟨agree.ntoa, by simp [agree.length], fun _ => same⟩

theorem now (agree : Agree timed world world') : world.now env = world'.now env :=
  congrArg env.clock agree.length

theorem request (agree : Agree timed world world') : world.request env = world'.request env := by
  rw [World.request, World.request, agree.now]

theorem deref (agree : Agree timed world world') (pointer : CharPtr) :
    world.deref pointer = world'.deref pointer := by
  cases pointer with
  | text text => rfl
  | ntoaBuffer => exact agree.ntoa

end Agree

section Operations

variable {α : Type} {returned : α → α → World → World → Prop}

theorem lockstep_ask (agree : Agree timed world world') {answers : ℕ → α} {event : α → Event}
    (next : ∀ final final', Agree timed final final' →
      returned (answers world.trace.length) (answers world.trace.length) final final') :
    Lockstep (ask answers event) (ask answers event) returned world world' := by
  change returned (answers world.trace.length) (answers world'.trace.length) (world.log _) (world'.log _)
  rw [← agree.length]
  exact next _ _ (agree.log ..)

theorem lockstep_gettimeofday (agree : Agree timed world world')
    {returned : Timeval → Timeval → World → World → Prop}
    (next : ∀ now final final', Agree timed final final' → returned now now final final') :
    Lockstep (gettimeofday env) (gettimeofday env) returned world world' :=
  lockstep_ask agree (next _)

theorem lockstep_inetNtoa (agree : Agree timed world world') (a : InAddr)
    {returned : CharPtr → CharPtr → World → World → Prop}
    (next : ∀ pointer final final', Agree timed final final' → returned pointer pointer final final') :
    Lockstep (inetNtoa a) (inetNtoa a) returned world world' :=
  next _ _ _ (agree.format a)

theorem lockstep_readText (agree : Agree timed world world') (pointer : CharPtr)
    {returned : Text → Text → World → World → Prop}
    (next : returned (world.deref pointer) (world.deref pointer) world world') :
    Lockstep (readText pointer) (readText pointer) returned world world' := by
  change returned (world.deref pointer) (world'.deref pointer) world world'
  rw [← agree.deref]
  exact next

theorem lockstep_elapsedTime (agree : Agree timed world world') {startTime startTime' : Timeval}
    (same : startTime.tvSec = startTime'.tvSec) {returned : ℤ → ℤ → World → World → Prop}
    (next : ∀ elapsed final final', Agree timed final final' →
      returned elapsed elapsed final final') :
    Lockstep (elapsedTime env startTime) (elapsedTime env startTime') returned world world' := by
  change returned (getElapsedTime startTime (world.now env)) (getElapsedTime startTime' (world'.now env))
    (world.tick env) (world'.tick env)
  rw [← agree.now, getElapsedTime, getElapsedTime, ← same]
  exact next _ _ _ agree.tick

theorem lockstep_record (agree : Agree timed world world') (event event' : Event)
    {returned : Unit → Unit → World → World → Prop}
    (next : ∀ final final', Agree timed final final' → returned () () final final') :
    Lockstep (record event) (record event') returned world world' :=
  next _ _ (agree.log ..)

theorem lockstep_recieveOnClient (agree : Agree timed world world') (sockfd : ℤ)
    {returned : Received → Received → World → World → Prop}
    (next : ∀ received final final', Agree timed final final' →
      returned received received final final') :
    Lockstep (recieveOnClient env sockfd) (recieveOnClient env sockfd) returned world world' := by
  rw [recieveOnClient]
  apply lockstep_bind
  apply lockstep_ask agree
  intro final final' agree
  cases env.recvfrom world.trace.length with
  | none => exact next _ _ _ agree
  | some datagram =>
    refine lockstep_ite Iff.rfl (fun _ => rfl) fun _ => ?_
    apply lockstep_bind
    apply lockstep_gettimeofday agree
    intro now final final' agree
    apply lockstep_bind
    apply lockstep_inetNtoa agree
    exact fun _ final final' agree => next _ final final' agree

theorem lockstep_isSameIpaddr (agree : Agree timed world world') (sentAddr replyAddr : SockaddrIn)
    {returned : ℤ → ℤ → World → World → Prop}
    (next : ∀ code final final', Agree timed final final' → returned code code final final') :
    Lockstep (isSameIpaddr env sentAddr replyAddr) (isSameIpaddr env sentAddr replyAddr) returned
      world world' := by
  refine (lockstep_of_ok (wp_eq.mp ((wp_isSameIpaddr ..).mpr rfl))
    (wp_eq.mp ((wp_isSameIpaddr ..).mpr rfl))).mpr ?_
  rw [← agree.length]
  exact next _ _ _ ((agree.log ..).format _)

theorem lockstep_sendSntpPacket (agree : Agree timed world world') (pkt : NtpPacket) (sockfd : ℤ)
    (addr : SockaddrIn) {returned : ℤ → ℤ → World → World → Prop}
    (next : ∀ code final final', Agree timed final final' → returned code code final final') :
    Lockstep (sendSntpPacket env pkt sockfd addr) (sendSntpPacket env pkt sockfd addr) returned
      world world' := by
  rw [sendSntpPacket]
  apply lockstep_bind
  apply lockstep_ask agree
  intro final final' agree
  refine lockstep_ite Iff.rfl (fun _ => next _ _ _ agree) fun _ => ?_
  apply lockstep_bind
  apply lockstep_inetNtoa agree
  exact fun _ final final' agree => next _ final final' agree

end Operations

section Calls

variable {sockfd : ℤ} {userver : HostInfo} {fuel : ℕ}

/-- Setting the socket up goes the same way, and tells which. -/
theorem lockstep_initialiseSocket (agree : Agree timed world world') (recvUniTimeout : ℤ)
    {returned : Except ℤ ℤ → Except ℤ ℤ → World → World → Prop}
    (failed : ∀ code final final',
      env.socket world.trace.length = -1 ∨ env.setsockopt (world.trace.length + 1) = false →
      Agree timed final final' → returned (.error code) (.error code) final final')
    (created : ∀ sockfd final final', env.socket world.trace.length ≠ -1 →
      env.setsockopt (world.trace.length + 1) = true →
      final.trace.length = world.trace.length + 2 → final.ntoa = world.ntoa →
      Agree timed final final' → returned (.ok sockfd) (.ok sockfd) final final') :
    Lockstep (initialiseSocket env recvUniTimeout) (initialiseSocket env recvUniTimeout) returned
      world world' := by
  by_cases valid : env.socket world.trace.length = -1
  · rw [lockstep_of_ok (initialiseSocket_refused recvUniTimeout valid)
      (initialiseSocket_refused recvUniTimeout (agree.length ▸ valid))]
    exact failed 3 _ _ (.inl valid) (agree.log ..)
  · cases set : env.setsockopt (world.trace.length + 1) with
    | false =>
      rw [lockstep_of_ok (initialiseSocket_opened recvUniTimeout valid rfl set)
        (initialiseSocket_opened recvUniTimeout valid (by rw [agree.length]) (agree.length ▸ set))]
      exact failed 8 _ _ (.inr set) ((agree.log ..).log ..)
    | true =>
      rw [lockstep_of_ok (initialiseSocket_opened recvUniTimeout valid rfl set)
        (initialiseSocket_opened recvUniTimeout valid (by rw [agree.length]) (agree.length ▸ set))]
      exact created _ _ _ valid set (by simp) rfl ((agree.log ..).log ..)

/-- So does looking the server up. -/
theorem lockstep_initialiseServerInterface (agree : Agree timed world world') (host : CharPtr)
    (port : ℤ) {returned : Except ℤ HostInfo → Except ℤ HostInfo → World → World → Prop}
    (failed : ∀ code final final', lookUp env world.trace.length (world.deref host) = none →
      Agree timed final final' → returned (.error code) (.error code) final final')
    (found : ∀ userver final final',
      (lookUp env world.trace.length (world.deref host)).isSome →
      Agree timed final final' → returned (.ok userver) (.ok userver) final final') :
    Lockstep (initialiseServerInterface env host port) (initialiseServerInterface env host port)
      returned world world' := by
  rw [lookUp] at failed found
  rw [initialiseServerInterface]
  apply lockstep_bind
  apply lockstep_readText agree
  cases denoted : inetPton (world.deref host) with
  | some ipaddr =>
    rw [denoted] at failed found
    apply lockstep_bind
    apply lockstep_ask agree
    intro final final' agree
    cases lookup : env.gethostbyaddr world.trace.length ipaddr with
    | none => exact failed _ _ _ lookup agree
    | some he => exact found _ _ _ (Option.isSome_iff_exists.mpr ⟨he, lookup⟩) agree
  | none =>
    rw [denoted] at failed found
    apply lockstep_bind
    apply lockstep_ask agree
    intro final final' agree
    cases lookup : env.gethostbyname world.trace.length (world.deref host) with
    | none => exact failed _ _ _ lookup agree
    | some he => exact found _ _ _ (Option.isSome_iff_exists.mpr ⟨he, lookup⟩) agree

theorem lockstep_createRequest (agree : Agree timed world world')
    {returned : NtpPacket → NtpPacket → World → World → Prop}
    (next : ∀ request final final', Agree timed final final' →
      returned request request final final') :
    Lockstep (createRequest env) (createRequest env) returned world world' := by
  rw [createRequest]
  apply lockstep_bind
  apply lockstep_gettimeofday agree
  exact fun now final final' agree => next _ final final' agree

theorem lockstep_remainingTime (agree : Agree True world world')
    {returned : ℤ → ℤ → World → World → Prop}
    (next : ∀ remTime final final', Agree True final final' →
      returned remTime remTime final final') :
    Lockstep (remainingTime env cSet) (remainingTime env cSet) returned world world' := by
  rw [remainingTime]
  apply lockstep_bind
  rw [lockstep_get]
  apply lockstep_bind
  apply lockstep_elapsedTime agree (agree.timer trivial)
  exact fun elapsed final final' agree => next _ final final' agree

theorem lockstep_mustWait (agree : Agree True world world')
    {returned : Bool → Bool → World → World → Prop}
    (next : ∀ wait final final', Agree True final final' → returned wait wait final final') :
    Lockstep (mustWait env cSet) (mustWait env cSet) returned world world' := by
  have timer := agree.timer trivial
  rw [mustWait]
  apply lockstep_bind
  rw [lockstep_get]
  refine lockstep_ite (by rw [timer]) (fun _ => ?_) fun _ => next _ _ _ agree
  apply lockstep_bind
  apply lockstep_elapsedTime agree timer
  exact fun elapsed final final' agree => next _ final final' agree

/-- Worlds that agree on everything, and equal values. -/
private def Same {α : Type} (value value' : α) (world world' : World) : Prop :=
  value = value' ∧ Agree True world world'

private theorem lockstep_listen (agree : Agree True world world') :
    Lockstep (loop .outOfFuel (listen env cSet sockfd userver) fuel ())
      (loop .outOfFuel (listen env cSet sockfd userver) fuel ()) Same world world' := by
  have start : Same () () world world' := ⟨rfl, agree⟩
  refine lockstep_loop ?_ fuel start
  rintro _ _ state state' ⟨-, agree⟩
  rw [listen]
  apply lockstep_bind
  apply lockstep_recieveOnClient agree
  intro received final final' agree
  refine lockstep_ite Iff.rfl (fun _ => ?_) fun _ => ?_
  · apply lockstep_bind
    apply lockstep_remainingTime agree
    exact fun _ final final' agree => ⟨rfl, agree⟩
  · apply lockstep_bind
    apply lockstep_isSameIpaddr agree
    intro code final final' agree
    exact lockstep_ite Iff.rfl (fun _ => ⟨rfl, agree⟩) fun _ => ⟨rfl, agree⟩

private theorem lockstep_attempt {retryCount retryCount' : ℤ}
    (same : Same retryCount retryCount' world world') :
    Lockstep (attempt env cSet fuel sockfd userver retryCount)
      (attempt env cSet fuel sockfd userver retryCount') (Abreast Same Same) world world' := by
  obtain ⟨rfl, agree⟩ := same
  rw [attempt]
  refine lockstep_ite Iff.rfl (fun _ => ⟨rfl, agree⟩) fun _ => ?_
  apply lockstep_bind
  apply lockstep_mustWait agree
  intro wait final final' agree
  refine lockstep_ite Iff.rfl (fun _ => ⟨rfl, agree⟩) fun _ => ?_
  apply lockstep_bind
  apply lockstep_createRequest agree
  intro request final final' agree
  apply lockstep_bind
  apply lockstep_gettimeofday agree
  intro startTime final final' agree
  apply lockstep_bind
  rw [lockstep_modify]
  apply lockstep_bind
  apply lockstep_sendSntpPacket (agree.setTimer rfl)
  intro code final final' agree
  refine lockstep_ite Iff.rfl (fun _ => ?_) fun _ => ?_
  · apply lockstep_bind
    apply lockstep_remainingTime agree
    exact fun _ final final' agree => ⟨rfl, agree⟩
  · apply lockstep_bind
    refine (lockstep_listen agree).mono ?_
    rintro (_ | received) _ final final' ⟨rfl, agree⟩
    · exact ⟨rfl, agree⟩
    · refine lockstep_ite Iff.rfl (fun _ => ?_) fun _ => ⟨rfl, agree⟩
      apply lockstep_bind
      apply lockstep_remainingTime agree
      exact fun _ final final' agree => ⟨rfl, agree⟩

private theorem lockstep_reportSample (agree : Agree True world world') (received : Received) :
    Lockstep (reportSample env sockfd userver received) (reportSample env sockfd userver received)
      Same world world' := by
  rw [reportSample, printServerResults]
  apply lockstep_bind
  rw [lockstep_modify]
  apply lockstep_bind
  apply lockstep_bind
  apply lockstep_readText (agree.setSample ..)
  apply lockstep_bind
  apply lockstep_inetNtoa (agree.setSample ..)
  intro _ final final' agree
  apply lockstep_record agree
  intro final final' agree
  apply lockstep_record agree
  exact fun final final' agree => ⟨rfl, agree⟩

end Calls

/-- Two calls of `unicast_mode` return the same, and their timers agree if they did before or if
setting up succeeds. -/
theorem lockstep_unicastMode (agree : Agree timed world world') (fuel : ℕ) :
    Lockstep (unicastMode env cSet fuel) (unicastMode env cSet fuel)
      (fun code code' final final' => code = code' ∧
        Agree (timed ∨ SetUpSucceeds env cSet world) final final') world world' := by
  have failing (fails : ¬ SetUpSucceeds env cSet world) {final final' : World}
      (agree : Agree timed final final') :
      Agree (timed ∨ SetUpSucceeds env cSet world) final final' :=
    agree.weaken fun holds => holds.resolve_right fails
  rw [unicastMode]
  apply lockstep_bind
  apply lockstep_initialiseSocket agree
  · intro code final final' fails agree
    refine ⟨rfl, failing (fun succeeds => ?_) agree⟩
    rcases fails with refused | unset
    · exact succeeds.1 refused
    · exact absurd (unset.symm.trans succeeds.2.1) Bool.false_ne_true
  intro sockfd opened opened' valid set later same agree
  have name : opened.deref cSet.serverHost = world.deref cSet.serverHost := by
    cases cSet.serverHost with
    | text text => rfl
    | ntoaBuffer => exact same
  apply lockstep_bind
  apply lockstep_initialiseServerInterface agree
  · intro code final final' fails agree
    rw [later, name] at fails
    refine ⟨rfl, failing (fun succeeds => ?_) agree⟩
    have found := succeeds.2.2
    simp [fails] at found
  intro userver final final' found agree
  apply lockstep_bind
  rw [lockstep_modify]
  apply lockstep_bind
  have unset : Same (1 : ℤ) 1 (final.setTimer (unsetTimer final.vars.pollTimer))
      (final'.setTimer (unsetTimer final'.vars.pollTimer)) := ⟨rfl, agree.setTimer rfl⟩
  refine (lockstep_loop (fun _ _ _ _ => lockstep_attempt) fuel unset).mono ?_
  rintro (_ | received) _ final final' ⟨rfl, agree⟩
  · exact ⟨rfl, agree.weaken fun _ => trivial⟩
  · apply lockstep_bind
    refine (lockstep_reportSample agree received).mono ?_
    rintro _ _ final final' ⟨-, agree⟩
    exact ⟨rfl, agree.weaken fun _ => trivial⟩

end Sntp
