import Sntp.Proofs.UnicastSteps

/-! # The turns of the retry loop

What a turn of the retry loop does, as a function of the answers it gets: it ends the loop when the
retries are used up, waits, or makes one attempt. `AttemptStep` forgets which answers lead to which
outcome; runs that follow a given sequence of answers need to know.
-/

namespace Sntp

open Machine

/-- The outcome of listening for a reply: the first datagram that arrives, if one does. -/
def World.listened (env : Env) (sockfd : ℤ) (addr : SockaddrIn) (asked : World) :
    EStateM.Result Stop World (Option Received) :=
  match env.recvfrom asked.trace.length with
  | none => .ok none ((asked.log (.recvfrom sockfd none)).tick env)
  | some datagram =>
    let arrived := asked.arrive sockfd datagram
    if sizeofNtpPacket < datagram.stored.length then .error .overrun arrived
    else .ok (some (datagram.received (arrived.now env)))
      (asked.answer env sockfd addr datagram (env.replyLast (arrived.tick env).trace.length))

theorem World.listened_of_none {env : Env} {asked : World} (sockfd : ℤ) (addr : SockaddrIn)
    (silent : env.recvfrom asked.trace.length = none) :
    asked.listened env sockfd addr = .ok none ((asked.log (.recvfrom sockfd none)).tick env) := by
  rw [World.listened, silent]

theorem World.listened_of_long {env : Env} {asked : World} (sockfd : ℤ) (addr : SockaddrIn)
    {datagram : Datagram} (arrives : env.recvfrom asked.trace.length = some datagram)
    (long : sizeofNtpPacket < datagram.stored.length) :
    asked.listened env sockfd addr = .error .overrun (asked.arrive sockfd datagram) := by
  rw [World.listened, arrives]
  exact if_pos long

theorem World.listened_of_fits {env : Env} {asked : World} (sockfd : ℤ) (addr : SockaddrIn)
    {datagram : Datagram} (arrives : env.recvfrom asked.trace.length = some datagram)
    (fits : datagram.stored.length ≤ sizeofNtpPacket) :
    ∃ replyLast, asked.listened env sockfd addr =
      .ok (some (datagram.received ((asked.arrive sockfd datagram).now env)))
        (asked.answer env sockfd addr datagram replyLast) := by
  rw [World.listened, arrives]
  exact ⟨_, if_neg (not_lt.mpr fits)⟩

/-- The outcome of the attempt that starts in a world which has waited. -/
def World.attempted (env : Env) (sockfd : ℤ) (addr : SockaddrIn) (retryCount : ℤ) (rested : World) :
    EStateM.Result Stop World (ℤ ⊕ Option Received) :=
  if env.sendto (rested.startTimer env).trace.length = false then
    .ok (.inl (toInt (retryCount + 1))) ((rested.dispatch env sockfd addr false).tick env)
  else
    match (rested.dispatch env sockfd addr true).listened env sockfd addr with
    | .error stop final => .error stop final
    | .ok none final => .ok (.inl (toInt (retryCount + 1))) final
    | .ok (some received) final =>
      if runSanityChecks (rested.request env) (.load env.host received.memory 0) ≠ 0 then
        .ok (.inl (toInt (retryCount + 1))) (final.tick env)
      else .ok (.inr (some received)) final

variable {env : Env} {cSet : ClientSettings} {sockfd : ℤ} {userver : HostInfo} {world : World}
  {fuel : ℕ} {retryCount : ℤ}

theorem attempt_exhausted (used : cSet.maxUnicastRetries < retryCount) :
    attempt env cSet fuel sockfd userver retryCount world = .ok (.inr none) world := by
  rw [attempt, if_pos used]
  rfl

theorem mustWait_waiting (set : world.vars.pollTimer.tvSec ≠ -1)
    (early : getElapsedTime world.vars.pollTimer (world.now env) ≤ cSet.pollWait) :
    mustWait env cSet world = .ok true (world.tick env) := by
  rw [← wp_eq, mustWait, wp_bind, wp_get, if_pos set, wp_bind, wp_elapsedTime, wp_pure,
    decide_eq_true early]

theorem mustWait_rested {rested : World} (rest : Rested env cSet.pollWait world rested) :
    mustWait env cSet world = .ok false rested := by
  rw [← wp_eq, mustWait, wp_bind, wp_get]
  cases rest with
  | unset unset => rw [if_neg (not_not.mpr unset), wp_pure]
  | elapsed set late =>
    rw [if_pos set, wp_bind, wp_elapsedTime, wp_pure, decide_eq_false (not_le.mpr late)]

/-- A waiting turn only reads the clock. -/
theorem attempt_waiting (open_ : retryCount ≤ cSet.maxUnicastRetries)
    (set : world.vars.pollTimer.tvSec ≠ -1)
    (early : getElapsedTime world.vars.pollTimer (world.now env) ≤ cSet.pollWait) :
    attempt env cSet fuel sockfd userver retryCount world = .ok (.inl retryCount) (world.tick env) := by
  rw [← wp_eq, attempt, if_neg (not_lt.mpr open_), wp_bind, wp_of_ok (mustWait_waiting set early),
    if_pos rfl, wp_pure]

/-- The listening loop ends with its first turn, so one unit of fuel is enough for it. -/
theorem listening_eq :
    loop .outOfFuel (listen env cSet sockfd userver) (fuel + 1) () world =
      world.listened env sockfd userver.addr := by
  rw [← wp_eq, loop, wp_bind, listen, wp_bind, recieveOnClient, wp_bind, wp_ask, World.listened]
  cases env.recvfrom world.trace.length with
  | none => rfl
  | some datagram =>
    dsimp only
    rw [wp_ite]
    refine ⟨fun long => by rw [if_pos long]; rfl, fun fits => ?_⟩
    rw [if_neg fits]
    have stored : (recieveSntpPacket (fun _ => 0) 0 default default (some (datagram,
        (world.log (.recvfrom sockfd (some datagram))).now env))).code = 0 := rfl
    simp only [wp_bind, wp_gettimeofday, wp_inetNtoa, wp_pure, stored, ne_eq, not_true_eq_false,
      ↓reduceIte, wp_isSameIpaddr]
    rfl

/-- An attempt is made as soon as the wait is over. -/
theorem attempt_rested (open_ : retryCount ≤ cSet.maxUnicastRetries) {rested : World}
    (rest : Rested env cSet.pollWait world rested) :
    attempt env cSet (fuel + 1) sockfd userver retryCount world =
      rested.attempted env sockfd userver.addr retryCount := by
  rw [← wp_eq, attempt, if_neg (not_lt.mpr open_), wp_bind, wp_of_ok (mustWait_rested rest),
    if_neg Bool.false_ne_true, wp_bind, wp_createRequest, wp_bind, wp_gettimeofday, wp_bind, wp_modify,
    wp_bind, wp_sendSntpPacket]
  have started : rested.startTimer env =
      ((rested.tick env).tick env).setTimer ((rested.tick env).now env) := rfl
  rw [World.attempted, ← started]
  cases sent : env.sendto (rested.startTimer env).trace.length with
  | false =>
    simp only [Bool.false_eq_true, ↓reduceIte, ne_eq, one_ne_zero, not_false_eq_true, wp_bind,
      remainingTime, wp_get, wp_elapsedTime, wp_pure]
    rfl
  | true =>
    have asked : rested.dispatch env sockfd userver.addr true = ((rested.startTimer env).log
        (.sendto sockfd (rested.request env) userver.addr true)).format userver.addr.sinAddr := rfl
    rw [if_pos rfl, if_neg (not_not.mpr rfl), wp_bind, ← asked,
      if_neg Bool.true_eq_false.mp]
    cases outcome : (rested.dispatch env sockfd userver.addr true).listened env sockfd userver.addr with
    | error stop final => rw [wp_of_error (listening_eq.trans outcome)]
    | ok reply final =>
      rw [wp_of_ok (listening_eq.trans outcome)]
      cases reply with
      | none => rfl
      | some received =>
        dsimp only
        split
        · rfl
        · rfl

end Sntp
