import Sntp.Proofs.RetryTurns
import Sntp.Proofs.Observations

/-! # The retries of a time sample

`unicast_mode` retries until a reply is valid or its retries are used up. Here the outcomes of the
attempts are given in advance, as a script, and the run is read against it: the turns that wait do
not count, each attempt has the next outcome, and the first valid one ends the run. Only the
counter can go wrong. It is an `int`, so it never exceeds a limit of `INT_MAX`, and a run under
that limit that gets no valid reply does not return.
-/

namespace Sntp.RetryLoop

open Machine

/-- The outcome of an attempt. A reply fits the packet it is received into. -/
inductive Outcome where
  | sendError
  | receiveError
  | invalid (reply : Datagram)
  | valid (reply : Datagram)
deriving DecidableEq, Repr

def Outcome.Valid (outcome : Outcome) : Prop := ∃ reply, outcome = .valid reply

/-- What `recvfrom` answers in an attempt with this outcome. -/
def Outcome.Receives (env : Env) (request : NtpPacket) (answer : Option Datagram) : Outcome → Prop
  | .sendError => False
  | .receiveError => answer = none
  | .invalid reply => answer = some reply ∧ reply.stored.length ≤ sizeofNtpPacket ∧
      runSanityChecks request (reply.packet env.host) ≠ 0
  | .valid reply => answer = some reply ∧ reply.stored.length ≤ sizeofNtpPacket ∧
      runSanityChecks request (reply.packet env.host) = 0

/-- The number of requests that were passed to `sendto`. -/
def requests (trace : List Event) : ℕ := (trace.filterMap Event.request).length

/-- The answers of a run are those of the script, whose attempts are numbered from one. -/
def Follows (env : Env) (script : ℕ → Outcome) (before : List Event) : Event → Prop
  | .sendto _ _ _ success => success = true ↔ script (requests before + 1) ≠ .sendError
  | .recvfrom _ answer => ∀ request addr, before.latest Event.request = some (request, addr) →
      (script (requests before)).Receives env request answer
  | _ => True

/-- From every reading of the clock, and however late, the poll wait is over at some reading. -/
def PassesWait (clock : ℕ → Timeval) (pollWait : ℤ) : Prop :=
  ∀ start index, ∃ later, index ≤ later ∧ pollWait < getElapsedTime (clock start) (clock later)

/-- The first valid reply occurs at attempt `k`. -/
structure FirstValid (script : ℕ → Outcome) (k : ℕ) (reply : Datagram) : Prop where
  positive : 1 ≤ k
  valid : script k = .valid reply
  first : ∀ j, 1 ≤ j → j < k → ¬ (script j).Valid

/-- The offset and the error bound are those of the reply, at its time of arrival. -/
def Samples (env : Env) (k : ℕ) (reply : Datagram) (final : World) : Prop :=
  ∃ before sockfd arrival after,
    final.trace = before ++ .recvfrom sockfd (some reply) :: .gettimeofday arrival :: after ∧
    requests before = k ∧
    final.vars.offset = calculateClockOffset ((reply.received arrival).servTs env) ∧
    final.vars.errorBound = calculateErrorBound ((reply.received arrival).servTs env)

/-- How `unicast_mode` is to retry. -/
structure Retries (env : Env) (cSet : ClientSettings) (ntoa : Text) (vars : SampleVars)
    (script : ℕ → Outcome) : Prop where
  /-- A valid reply within the retries ends the run. -/
  samples : ∀ k reply, FirstValid script k reply → (k : ℤ) ≤ cSet.maxUnicastRetries →
    ∃ fuel final, unicastMode env cSet fuel ⟨ntoa, vars, []⟩ = .ok 0 final ∧
      requests final.trace = k ∧ Samples env k reply final
  /-- Without one, the retries are used up. -/
  exhausts : (∀ k reply, FirstValid script k reply → cSet.maxUnicastRetries < k) →
    ∃ fuel final, unicastMode env cSet fuel ⟨ntoa, vars, []⟩ = .ok 4 final ∧
      (requests final.trace : ℤ) = max 0 cSet.maxUnicastRetries ∧
      final.vars.offset = vars.offset ∧ final.vars.errorBound = vars.errorBound
  /-- A turn without a request does not use up a retry. -/
  waits : ∀ fuel sockfd userver retryCount world next final,
    attempt env cSet fuel sockfd userver retryCount world = .ok (.inl next) final →
    requests final.trace = requests world.trace → next = retryCount

theorem requests_concat (trace : List Event) (event : Event) :
    requests (trace ++ [event]) = requests trace + event.request.toList.length := by
  rw [requests, requests, List.filterMap_append, List.length_append]
  cases asked : event.request with
  | none => simp [asked]
  | some request => simp [asked]

/-- A datagram is received by an attempt whose reply it is, and then it fits. -/
theorem Outcome.Receives.fits {env : Env} {request : NtpPacket} {answer : Option Datagram}
    {outcome : Outcome} (receives : outcome.Receives env request answer) {reply : Datagram}
    (some : answer = .some reply) : reply.stored.length ≤ sizeofNtpPacket := by
  cases outcome with
  | sendError => exact receives.elim
  | receiveError => exact absurd (receives.symm.trans some) (by simp)
  | invalid other | valid other =>
    obtain rfl := Option.some.inj (receives.1.symm.trans some)
    exact receives.2.1

/-- The script tells a valid reply. -/
theorem Outcome.Receives.valid {env : Env} {request : NtpPacket} {answer : Option Datagram}
    {outcome : Outcome} (receives : outcome.Receives env request answer) {reply : Datagram}
    (some : answer = .some reply) (passes : runSanityChecks request (reply.packet env.host) = 0) :
    outcome = .valid reply := by
  cases outcome with
  | sendError => exact receives.elim
  | receiveError => exact absurd (receives.symm.trans some) (by simp)
  | invalid other =>
    obtain rfl := Option.some.inj (receives.1.symm.trans some)
    exact absurd passes receives.2.2
  | valid other =>
    obtain rfl := Option.some.inj (receives.1.symm.trans some)
    rfl

/-- An `int` that counts does not run ahead. -/
private theorem toInt_le {value : ℤ} (nonneg : 0 ≤ value) : toInt value ≤ value := by
  rw [toInt, Int.bmod_def]
  omega

private theorem toInt_le_max (value : ℤ) : toInt value ≤ 2 ^ 31 - 1 := by
  rw [toInt, Int.bmod_def]
  omega

private theorem toInt_eq_self {value : ℤ} (nonneg : 0 ≤ value) (small : value < 2 ^ 31) :
    toInt value = value := by
  rw [toInt, Int.bmod_def]
  omega

private theorem toInt_succ (value : ℤ) : toInt (toInt value + 1) = toInt (value + 1) := by
  rw [toInt, toInt, toInt, Int.bmod_def, Int.bmod_def, Int.bmod_def]
  omega

section

variable {env : Env} {cSet : ClientSettings} {sockfd : ℤ} {userver : HostInfo} {ntoa : Text}
  {vars : SampleVars} {script : ℕ → Outcome} {created ready world : World} {retryCount : ℤ} {i : ℕ}

/-- The wait is over, or it goes on. -/
theorem rested_or_waiting (env : Env) (pollWait : ℤ) (world : World) :
    (∃ rested, Rested env pollWait world rested) ∨
      (world.vars.pollTimer.tvSec ≠ -1 ∧
        getElapsedTime world.vars.pollTimer (world.now env) ≤ pollWait) := by
  by_cases unset : world.vars.pollTimer.tvSec = -1
  · exact .inl ⟨world, .unset unset⟩
  · rcases le_or_gt (getElapsedTime world.vars.pollTimer (world.now env)) pollWait with early | late
    · exact .inr ⟨unset, early⟩
    · exact .inl ⟨_, .elapsed unset late⟩

/-- The body of the retry loop needs no more than one unit of fuel. -/
theorem attempt_fuel (fuel : ℕ) :
    attempt env cSet (fuel + 1) sockfd userver = attempt env cSet 1 sockfd userver := by
  funext retryCount world
  rcases lt_or_ge cSet.maxUnicastRetries retryCount with used | open_
  · rw [attempt_exhausted used, attempt_exhausted used]
  rcases rested_or_waiting env cSet.pollWait world with ⟨rested, rest⟩ | ⟨set, early⟩
  · rw [attempt_rested open_ rest, attempt_rested open_ rest]
  · rw [attempt_waiting open_ set early, attempt_waiting open_ set early]

/-- What `unicast_mode` makes of the outcome of its retry loop. -/
private def conclude (env : Env) (sockfd : ℤ) (userver : HostInfo) :
    EStateM.Result Stop World (Option Received) → EStateM.Result Stop World ℤ
  | .ok none final => .ok 4 final
  | .ok (some received) final => .ok 0 (final.sample env sockfd userver received)
  | .error stop final => .error stop final

/-- The world in which the retry loop starts. -/
private def begun (ready : World) : World := ready.setTimer (unsetTimer ready.vars.pollTimer)

/-- Once it is set up, `unicast_mode` is its retry loop. -/
private theorem unicastMode_eq (fuel : ℕ)
    (socket : initialiseSocket env cSet.recvUniTimeout world = .ok (.ok sockfd) created)
    (server : initialiseServerInterface env cSet.serverHost cSet.serverPort created =
      .ok (.ok userver) ready) :
    unicastMode env cSet fuel world = conclude env sockfd userver
      (loop .outOfFuel (attempt env cSet fuel sockfd userver) fuel 1 (begun ready)) := by
  rw [← wp_eq, unicastMode, wp_bind, wp_of_ok socket, wp_bind, wp_of_ok server, wp_bind, wp_modify,
    wp_bind, ← begun]
  cases outcome : loop .outOfFuel (attempt env cSet fuel sockfd userver) fuel 1 (begun ready) with
  | error stop final =>
    rw [wp_of_error outcome]
    rfl
  | ok reply final =>
    rw [wp_of_ok outcome]
    cases reply with
    | none => rfl
    | some received => rfl

private theorem unicastMode_succ (fuel : ℕ)
    (socket : initialiseSocket env cSet.recvUniTimeout world = .ok (.ok sockfd) created)
    (server : initialiseServerInterface env cSet.serverHost cSet.serverPort created =
      .ok (.ok userver) ready) :
    unicastMode env cSet (fuel + 1) world = conclude env sockfd userver
      (loop .outOfFuel (attempt env cSet 1 sockfd userver) (fuel + 1) 1 (begun ready)) := by
  rw [unicastMode_eq (fuel + 1) socket server, attempt_fuel]

/-- At the head of the retry loop, after `i` attempts. -/
private structure Head (env : Env) (cSet : ClientSettings) (sockfd : ℤ) (userver : HostInfo)
    (ready : World) (i : ℕ) (retryCount : ℤ) (world : World) : Prop where
  turns : ∃ turns, Turns (attempt env cSet 1 sockfd userver) turns 1 (begun ready) retryCount world
  count : retryCount = toInt (i + 1)
  requests : requests world.trace = i
  offset : world.vars.offset = ready.vars.offset
  errorBound : world.vars.errorBound = ready.vars.errorBound
  timer : world.vars.pollTimer.tvSec = -1 ∨ ∃ index, world.vars.pollTimer = env.clock index

/-- The loop starts at its head, before any attempt. -/
private theorem head_begun (setUp : SetUp ⟨ntoa, vars, []⟩ ready) :
    Head env cSet sockfd userver ready 0 1 (begun ready) where
  turns := ⟨0, .none⟩
  count := rfl
  requests := by
    obtain ⟨events, all, rfl⟩ := setUp
    have unasked : events.filterMap Event.request = [] :=
      List.filterMap_eq_nil_iff.mpr fun event member => (all event member).request_eq_none
    simp [begun, requests, unasked, Event.request]
  offset := rfl
  errorBound := rfl
  timer := .inl rfl

/-- A turn that waits stays at the head. -/
private theorem Head.wait (head : Head env cSet sockfd userver ready i retryCount world)
    (turn : attempt env cSet 1 sockfd userver retryCount world = .ok (.inl retryCount) (world.tick env)) :
    Head env cSet sockfd userver ready i retryCount (world.tick env) where
  turns := by
    obtain ⟨turns, run⟩ := head.turns
    exact ⟨turns + 1, .next run turn⟩
  count := head.count
  requests := by
    rw [World.trace_tick, requests_concat, head.requests]
    rfl
  offset := head.offset
  errorBound := head.errorBound
  timer := head.timer

/-- An attempt that fails is counted. -/
private theorem Head.next (head : Head env cSet sockfd userver ready i retryCount world)
    {final : World} {index : ℕ}
    (turn : attempt env cSet 1 sockfd userver retryCount world =
      .ok (.inl (toInt (retryCount + 1))) final)
    (asked : RetryLoop.requests final.trace = i + 1)
    (kept : final.vars = { world.vars with pollTimer := env.clock index }) :
    Head env cSet sockfd userver ready (i + 1) (toInt (retryCount + 1)) final where
  turns := by
    obtain ⟨turns, run⟩ := head.turns
    exact ⟨turns + 1, .next run turn⟩
  count := by rw [head.count, toInt_succ, Nat.cast_succ]
  requests := asked
  offset := by rw [kept, ← head.offset]
  errorBound := by rw [kept, ← head.errorBound]
  timer := .inr ⟨index, by rw [kept]⟩

/-- The waiting turns at a head end. -/
private theorem Head.rests (head : Head env cSet sockfd userver ready i retryCount world)
    (passes : PassesWait env.clock cSet.pollWait) (open_ : retryCount ≤ cSet.maxUnicastRetries) :
    ∃ waited rested, Head env cSet sockfd userver ready i retryCount waited ∧
      Rested env cSet.pollWait waited rested := by
  rcases head.timer with unset | ⟨start, timer⟩
  · exact ⟨world, world, head, .unset unset⟩
  obtain ⟨later, order, late⟩ := passes start world.trace.length
  obtain ⟨gap, rfl⟩ := Nat.exists_eq_add_of_le order
  -- Each waiting turn takes one reading, so the late reading comes closer.
  induction gap generalizing world with
  | zero =>
    rcases rested_or_waiting env cSet.pollWait world with ⟨rested, rest⟩ | ⟨-, early⟩
    · exact ⟨world, rested, head, rest⟩
    · rw [Nat.add_zero, ← timer] at late
      exact absurd early (not_le.mpr late)
  | succ gap ih =>
    rcases rested_or_waiting env cSet.pollWait world with ⟨rested, rest⟩ | ⟨set, early⟩
    · exact ⟨world, rested, head, rest⟩
    · have length : (world.tick env).trace.length = world.trace.length + 1 := by
        rw [World.trace_tick, List.length_append, List.length_singleton]
      apply ih (head.wait (attempt_waiting open_ set early)) timer (by omega)
      rwa [length, Nat.add_assoc, Nat.add_comm 1 gap]

/-- Waiting sends no request and keeps the variables. -/
private theorem kept_of_rested {pollWait : ℤ} {rested : World}
    (rest : Rested env pollWait world rested) :
    RetryLoop.requests rested.trace = RetryLoop.requests world.trace ∧ rested.vars = world.vars := by
  cases rest with
  | unset => exact ⟨rfl, rfl⟩
  | elapsed =>
    rw [World.trace_tick, requests_concat]
    exact ⟨rfl, rfl⟩

private theorem requests_startTimer (env : Env) (rested : World) :
    RetryLoop.requests (rested.startTimer env).trace = RetryLoop.requests rested.trace := by
  simp only [World.trace_startTimer, requests_concat, Event.request, Option.toList_none,
    List.length_nil, Nat.add_zero]

private theorem requests_dispatch (env : Env) (rested : World) (success : Bool) :
    RetryLoop.requests (rested.dispatch env sockfd userver.addr success).trace =
      RetryLoop.requests rested.trace + 1 := by
  rw [World.trace_dispatch, requests_concat, requests_startTimer]
  rfl

/-- The turn at a head follows the script. -/
private theorem Head.follows (head : Head env cSet sockfd userver ready i retryCount world)
    (scripted : ∀ fuel, (finalWorld (loop .outOfFuel (attempt env cSet 1 sockfd userver) (fuel + 1) 1
      (begun ready))).trace.EachAfter (Follows env script)) :
    (finalWorld (attempt env cSet 1 sockfd userver retryCount world)).trace.EachAfter
      (Follows env script) := by
  obtain ⟨turns, run⟩ := head.turns
  have followed := scripted turns
  rw [run.loop_add 1] at followed
  cases turn : attempt env cSet 1 sockfd userver retryCount world with
  | error stop final => rwa [loop_of_error 0 turn] at followed
  | ok next final =>
    cases next with
    | inl next => rwa [loop_of_inl 0 turn] at followed
    | inr reply => rwa [loop_of_inr 0 turn] at followed

/-- A head whose wait is over, and whose next turn is as scripted. -/
private structure Attempting (env : Env) (cSet : ClientSettings) (sockfd : ℤ) (userver : HostInfo)
    (script : ℕ → Outcome) (ready : World) (i : ℕ) (retryCount : ℤ) (world rested : World) : Prop where
  head : Head env cSet sockfd userver ready i retryCount world
  turn : attempt env cSet 1 sockfd userver retryCount world =
    rested.attempted env sockfd userver.addr retryCount
  rest : Rested env cSet.pollWait world rested
  followed : (finalWorld (rested.attempted env sockfd userver.addr retryCount)).trace.EachAfter
    (Follows env script)

section

variable {rested : World}

private theorem Head.attempting (head : Head env cSet sockfd userver ready i retryCount world)
    (open_ : retryCount ≤ cSet.maxUnicastRetries) (rest : Rested env cSet.pollWait world rested)
    (scripted : ∀ fuel, (finalWorld (loop .outOfFuel (attempt env cSet 1 sockfd userver) (fuel + 1) 1
      (begun ready))).trace.EachAfter (Follows env script)) :
    Attempting env cSet sockfd userver script ready i retryCount world rested where
  head := head
  turn := attempt_rested open_ rest
  rest := rest
  followed := by
    have followed := head.follows scripted
    rwa [attempt_rested open_ rest] at followed

/-- The attempt makes one more request. -/
private theorem Attempting.asked
    (trial : Attempting env cSet sockfd userver script ready i retryCount world rested) (success : Bool) :
    RetryLoop.requests (rested.dispatch env sockfd userver.addr success).trace = i + 1 := by
  rw [requests_dispatch, (kept_of_rested trial.rest).1, trial.head.requests]

private theorem Attempting.kept
    (trial : Attempting env cSet sockfd userver script ready i retryCount world rested) (success : Bool) :
    (rested.dispatch env sockfd userver.addr success).vars =
      { world.vars with pollTimer := env.clock (rested.tick env).trace.length } := by
  rw [← (kept_of_rested trial.rest).2]
  cases success <;> rfl

private theorem latest_dispatch :
    (rested.dispatch env sockfd userver.addr true).trace.latest Event.request =
      some (rested.request env, userver.addr) := by
  rw [World.trace_dispatch, List.latest_concat, Event.request, Option.some_or]

/-- An attempt whose send fails. -/
private theorem Attempting.unsent
    (trial : Attempting env cSet sockfd userver script ready i retryCount world rested)
    (fails : env.sendto (rested.startTimer env).trace.length = false) :
    ¬ (script (i + 1)).Valid ∧ ∃ next final, Head env cSet sockfd userver ready (i + 1) next final := by
  have outcome : rested.attempted env sockfd userver.addr retryCount =
      .ok (.inl (toInt (retryCount + 1)))
        ((rested.dispatch env sockfd userver.addr false).tick env) := if_pos fails
  have followed := trial.followed
  simp only [outcome, finalWorld, World.trace_tick, World.trace_dispatch, List.eachAfter_concat,
    Follows, requests_startTimer, (kept_of_rested trial.rest).1, trial.head.requests] at followed
  constructor
  · rintro ⟨reply, valid⟩
    exact absurd (followed.1.2.mpr (by simp [valid])) Bool.false_ne_true
  · refine ⟨_, _, trial.head.next (trial.turn.trans outcome) ?_ (trial.kept false)⟩
    rw [World.trace_tick, requests_concat, trial.asked]
    rfl

/-- What the script says of a receive. -/
private theorem Attempting.receives
    (trial : Attempting env cSet sockfd userver script ready i retryCount world rested)
    {answer : Option Datagram}
    (grown : ((rested.dispatch env sockfd userver.addr true).log (.recvfrom sockfd answer)).trace <+:
      (finalWorld (rested.attempted env sockfd userver.addr retryCount)).trace) :
    (script (i + 1)).Receives env (rested.request env) answer := by
  have received := (List.eachAfter_concat.mp (trial.followed.of_prefix grown)).2 _ _ latest_dispatch
  rwa [trial.asked] at received

/-- An attempt that receives nothing. -/
private theorem Attempting.unanswered
    (trial : Attempting env cSet sockfd userver script ready i retryCount world rested)
    (sent : ¬ env.sendto (rested.startTimer env).trace.length = false)
    (silent : env.recvfrom (rested.dispatch env sockfd userver.addr true).trace.length = none) :
    ¬ (script (i + 1)).Valid ∧ ∃ next final, Head env cSet sockfd userver ready (i + 1) next final := by
  have outcome : rested.attempted env sockfd userver.addr retryCount =
      .ok (.inl (toInt (retryCount + 1)))
        (((rested.dispatch env sockfd userver.addr true).log (.recvfrom sockfd none)).tick env) := by
    rw [World.attempted, if_neg sent, World.listened_of_none _ _ silent]
  constructor
  · rintro ⟨reply, valid⟩
    have received := trial.receives (by rw [outcome]; exact List.prefix_append ..)
    simp [valid, Outcome.Receives] at received
  · refine ⟨_, _, trial.head.next (trial.turn.trans outcome) ?_ (trial.kept true)⟩
    rw [World.trace_tick, World.trace_log, requests_concat, requests_concat, trial.asked]
    rfl

/-- An attempt that receives a datagram, which fits. -/
private theorem Attempting.answered
    (trial : Attempting env cSet sockfd userver script ready i retryCount world rested)
    (sent : ¬ env.sendto (rested.startTimer env).trace.length = false) {reply : Datagram}
    (arrives : env.recvfrom (rested.dispatch env sockfd userver.addr true).trace.length =
      some reply) :
    ∃ replyLast, rested.attempted env sockfd userver.addr retryCount =
      let asked := rested.dispatch env sockfd userver.addr true
      let final := asked.answer env sockfd userver.addr reply replyLast
      if runSanityChecks (rested.request env) (reply.packet env.host) ≠ 0 then
        .ok (.inl (toInt (retryCount + 1))) (final.tick env)
      else .ok (.inr (some (reply.received ((asked.arrive sockfd reply).now env)))) final := by
  rcases lt_or_ge sizeofNtpPacket reply.stored.length with long | fits
  · have outcome : rested.attempted env sockfd userver.addr retryCount = .error .overrun
        ((rested.dispatch env sockfd userver.addr true).arrive sockfd reply) := by
      rw [World.attempted, if_neg sent, World.listened_of_long _ _ arrives long]
    have received : (script (i + 1)).Receives env (rested.request env) (some reply) :=
      trial.receives (by rw [outcome]; exact List.prefix_rfl)
    exact absurd (received.fits rfl) (not_le.mpr long)
  · obtain ⟨replyLast, listened⟩ := World.listened_of_fits sockfd userver.addr arrives fits
    refine ⟨replyLast, ?_⟩
    rw [World.attempted, if_neg sent, listened]
    simp only [Datagram.load_received]

/-- The next attempt at a head: it is counted unless its reply is valid, and then it ends the loop. -/
private theorem Attempting.outcome
    (trial : Attempting env cSet sockfd userver script ready i retryCount world rested) :
    (¬ (script (i + 1)).Valid ∧
      ∃ next final, Head env cSet sockfd userver ready (i + 1) next final) ∨
    (∃ reply replyLast, script (i + 1) = .valid reply ∧
      let asked := rested.dispatch env sockfd userver.addr true
      attempt env cSet 1 sockfd userver retryCount world =
        .ok (.inr (some (reply.received ((asked.arrive sockfd reply).now env))))
          (asked.answer env sockfd userver.addr reply replyLast)) := by
  by_cases sent : env.sendto (rested.startTimer env).trace.length = false
  · exact .inl (trial.unsent sent)
  cases arrives : env.recvfrom (rested.dispatch env sockfd userver.addr true).trace.length with
  | none => exact .inl (trial.unanswered sent arrives)
  | some reply =>
    obtain ⟨replyLast, outcome⟩ := trial.answered sent arrives
    dsimp only at outcome
    split at outcome
    · next fails =>
      refine .inl ⟨?_, _, _, trial.head.next (trial.turn.trans outcome) ?_ (trial.kept true)⟩
      · rintro ⟨other, valid⟩
        have received : (script (i + 1)).Receives env (rested.request env) (some reply) :=
          trial.receives (by
            rw [outcome, finalWorld, World.trace_tick, World.trace_answer, World.trace_arrive,
              World.trace_log, List.append_assoc, List.append_assoc]
            exact List.prefix_append ..)
        rw [valid] at received
        obtain ⟨same, -, passes⟩ := received
        exact fails (Option.some.inj same ▸ passes)
      · rw [World.trace_tick, World.trace_answer, World.trace_arrive, requests_concat,
          requests_concat, requests_concat, requests_concat, trial.asked]
        rfl
    · next passes =>
      have received : (script (i + 1)).Receives env (rested.request env) (some reply) :=
        trial.receives (by
          rw [outcome, finalWorld, World.trace_answer, World.trace_arrive, World.trace_log,
            List.append_assoc]
          exact List.prefix_append ..)
      exact .inr ⟨reply, replyLast, received.valid rfl (not_not.mp passes),
        trial.turn.trans outcome⟩

end

/-- The sample that is reported once a valid reply has arrived. -/
private theorem samples_sample (env : Env) (userver : HostInfo) {asked : World} {k : ℕ}
    (requested : RetryLoop.requests asked.trace = k) (sockfd : ℤ) (reply : Datagram)
    (replyLast : Bool) :
    let final := (asked.answer env sockfd userver.addr reply replyLast).sample env sockfd userver
      (reply.received ((asked.arrive sockfd reply).now env))
    RetryLoop.requests final.trace = k ∧ Samples env k reply final := by
  intro final
  obtain ⟨transmitTime, offset, errorBound, name, stratum, trace⟩ := World.trace_sample env sockfd
    (asked.answer env sockfd userver.addr reply replyLast) userver
    (reply.received ((asked.arrive sockfd reply).now env))
  have values := World.vars_sample env sockfd (asked.answer env sockfd userver.addr reply replyLast)
    userver (reply.received ((asked.arrive sockfd reply).now env))
  constructor
  · simp only [final, trace, requests_concat, World.trace_answer, World.trace_arrive, requested]
    rfl
  · let after : List Event := [.compare userver.addr.sinAddr reply.source.sinAddr replyLast,
      .serverResults transmitTime offset errorBound name userver.addr.sinAddr stratum, .close sockfd]
    refine ⟨asked.trace, sockfd, (asked.arrive sockfd reply).now env, after, ?_, requested,
      congrArg SampleVars.offset values, congrArg SampleVars.errorBound values⟩
    simp only [final, trace, World.trace_answer, World.trace_arrive, List.append_assoc]
    rfl

/-- A head that may attempt again is open. -/
private theorem Head.open_ (head : Head env cSet sockfd userver ready i retryCount world)
    (more : (i : ℤ) + 1 ≤ cSet.maxUnicastRetries) : retryCount ≤ cSet.maxUnicastRetries := by
  rw [head.count]
  exact (toInt_le (by omega)).trans more

/-- The retry loop of a run, as the script has it. -/
private structure Scripted (env : Env) (cSet : ClientSettings) (sockfd : ℤ) (userver : HostInfo)
    (script : ℕ → Outcome) (ready : World) : Prop where
  begins : Head env cSet sockfd userver ready 0 1 (begun ready)
  passes : PassesWait env.clock cSet.pollWait
  follows : ∀ fuel, (finalWorld (loop .outOfFuel (attempt env cSet 1 sockfd userver) (fuel + 1) 1
    (begun ready))).trace.EachAfter (Follows env script)

/-- As long as no reply is valid, the loop returns to its head while it may attempt again. -/
private theorem Scripted.heads (run : Scripted env cSet sockfd userver script ready)
    (within : (i : ℤ) ≤ cSet.maxUnicastRetries)
    (invalid : ∀ j, 1 ≤ j → j ≤ i → ¬ (script j).Valid) :
    ∃ retryCount world, Head env cSet sockfd userver ready i retryCount world := by
  induction i with
  | zero => exact ⟨1, begun ready, run.begins⟩
  | succ i ih =>
    obtain ⟨retryCount, world, head⟩ := ih (by omega) fun j positive order =>
      invalid j positive (Nat.le_succ_of_le order)
    have open_ := head.open_ (by exact_mod_cast within)
    obtain ⟨waited, rested, head, rest⟩ := head.rests run.passes open_
    rcases (head.attempting open_ rest run.follows).outcome with
      ⟨-, next, final, head'⟩ | ⟨reply, -, valid, -⟩
    · exact ⟨next, final, head'⟩
    · exact absurd ⟨reply, valid⟩ (invalid (i + 1) (Nat.succ_pos i) le_rfl)

/-- The first valid reply ends the loop, if its attempt is made. -/
private theorem Scripted.samples (run : Scripted env cSet sockfd userver script ready) {k : ℕ}
    {reply : Datagram} (firstValid : FirstValid script k reply)
    (within : (k : ℤ) ≤ cSet.maxUnicastRetries) :
    ∃ fuel final, conclude env sockfd userver
        (loop .outOfFuel (attempt env cSet 1 sockfd userver) (fuel + 1) 1 (begun ready)) = .ok 0 final ∧
      requests final.trace = k ∧ Samples env k reply final := by
  obtain ⟨i, rfl⟩ := Nat.exists_eq_add_of_le' firstValid.positive
  have within' : (i : ℤ) + 1 ≤ cSet.maxUnicastRetries := by exact_mod_cast within
  obtain ⟨retryCount, world, head⟩ := run.heads (by omega : (i : ℤ) ≤ _) fun j positive order =>
    firstValid.first j positive (Nat.lt_succ_of_le order)
  have open_ := head.open_ within'
  obtain ⟨waited, rested, head, rest⟩ := head.rests run.passes open_
  rcases (head.attempting open_ rest run.follows).outcome with
    ⟨invalid, -⟩ | ⟨reply', replyLast, valid, turn⟩
  · exact absurd ⟨reply, firstValid.valid⟩ invalid
  obtain rfl := Outcome.valid.inj (firstValid.valid.symm.trans valid)
  obtain ⟨turns, reached⟩ := head.turns
  obtain ⟨same, -⟩ := kept_of_rested rest
  have asked : RetryLoop.requests (rested.dispatch env sockfd userver.addr true).trace = i + 1 := by
    rw [requests_dispatch, same, head.requests]
  obtain ⟨total, sampled⟩ := samples_sample env userver asked sockfd reply replyLast
  refine ⟨turns, _, ?_, total, sampled⟩
  rw [reached.loop_add 1, loop_of_inr 0 turn, conclude]

/-- Without a valid reply the loop uses up its retries, if they can be counted. -/
private theorem Scripted.exhausts (run : Scripted env cSet sockfd userver script ready)
    (countable : cSet.maxUnicastRetries < 2 ^ 31 - 1)
    (invalid : ∀ j : ℕ, 1 ≤ j → (j : ℤ) ≤ cSet.maxUnicastRetries → ¬ (script j).Valid) :
    ∃ fuel final, conclude env sockfd userver
        (loop .outOfFuel (attempt env cSet 1 sockfd userver) (fuel + 1) 1 (begun ready)) = .ok 4 final ∧
      (requests final.trace : ℤ) = max 0 cSet.maxUnicastRetries ∧
      final.vars.offset = ready.vars.offset ∧ final.vars.errorBound = ready.vars.errorBound := by
  have heads : ∃ retryCount world, Head env cSet sockfd userver ready
      cSet.maxUnicastRetries.toNat retryCount world := by
    rcases le_or_gt 0 cSet.maxUnicastRetries with nonneg | negative
    · refine run.heads (by omega) fun j positive order => invalid j positive (by omega)
    · rw [Int.toNat_of_nonpos negative.le]
      exact ⟨1, _, run.begins⟩
  obtain ⟨retryCount, world, head⟩ := heads
  obtain ⟨turns, reached⟩ := head.turns
  have used : cSet.maxUnicastRetries < retryCount := by
    rw [head.count, toInt_eq_self (by omega) (by omega)]
    omega
  refine ⟨turns, world, ?_, ?_, head.offset, head.errorBound⟩
  · rw [reached.loop_add 1, loop_of_inr 0 (attempt_exhausted used), conclude]
  · rw [head.requests, Int.toNat_eq_max, max_comm]

/-- The counter never exceeds the greatest `int`. -/
private theorem never_exhausted (env : Env) (sockfd : ℤ) (userver : HostInfo) (world : World)
    (limitless : 2 ^ 31 - 1 ≤ cSet.maxUnicastRetries) (fuel : ℕ) :
    Wp (loop .outOfFuel (attempt env cSet 1 sockfd userver) fuel 1)
      (fun reply _ => reply ≠ none) (fun _ _ => True) world := by
  refine wp_loop (fun retryCount _ => retryCount ≤ 2 ^ 31 - 1) ?_ (fun _ _ _ => trivial) fuel 1
    (by decide)
  intro retryCount world small
  have open_ : retryCount ≤ cSet.maxUnicastRetries := small.trans limitless
  rcases rested_or_waiting env cSet.pollWait world with ⟨rested, rest⟩ | ⟨set, early⟩
  · rw [Wp, attempt_rested open_ rest, World.attempted]
    split_ifs with sent
    · exact toInt_le_max _
    cases (rested.dispatch env sockfd userver.addr true).listened env sockfd userver.addr with
    | error => trivial
    | ok reply final =>
      cases reply with
      | none => exact toInt_le_max _
      | some received =>
        dsimp only
        split_ifs with fails
        · exact toInt_le_max _
        · simp
  · rw [wp_of_ok (attempt_waiting open_ set early)]
    exact small

/-- Without a valid reply, a limit that the counter cannot exceed keeps the run from returning. -/
private theorem not_retries_of_limitless
    (socket : initialiseSocket env cSet.recvUniTimeout ⟨ntoa, vars, []⟩ = .ok (.ok sockfd) created)
    (server : initialiseServerInterface env cSet.serverHost cSet.serverPort created =
      .ok (.ok userver) ready)
    (limitless : 2 ^ 31 - 1 ≤ cSet.maxUnicastRetries)
    (late : ∀ k reply, FirstValid script k reply → cSet.maxUnicastRetries < k) :
    ¬ Retries env cSet ntoa vars script := by
  intro retries
  obtain ⟨fuel, final, returned, -⟩ := retries.exhausts late
  cases fuel with
  | zero =>
    rw [unicastMode_eq 0 socket server] at returned
    cases returned
  | succ fuel =>
    rw [unicastMode_succ fuel socket server] at returned
    have endless := never_exhausted env sockfd userver (begun ready) limitless (fuel + 1)
    cases outcome : loop .outOfFuel (attempt env cSet 1 sockfd userver) (fuel + 1) 1
        (begun ready) with
    | error stop final => simp [outcome, conclude] at returned
    | ok reply final =>
      cases reply with
      | none => exact endless.of_ok outcome rfl
      | some received => simp [outcome, conclude] at returned

/-- A turn that goes round without a request leaves the counter as it was. -/
private theorem count_of_quiet_turn {fuel : ℕ} {next : ℤ} {final : World}
    (turn : attempt env cSet fuel sockfd userver retryCount world = .ok (.inl next) final)
    (quiet : RetryLoop.requests final.trace = RetryLoop.requests world.trace) : next = retryCount := by
  have step : AttemptStep env cSet.pollWait sockfd userver retryCount world (.ok (.inl next) final) :=
    (wp_attempt fuel retryCount).of_ok turn
  have counted {asked : World} {success : Bool} {request : NtpPacket}
      (rest : Asked env cSet.pollWait sockfd userver.addr success world request asked) :
      RetryLoop.requests asked.trace = RetryLoop.requests world.trace + 1 := by
    cases rest with
    | intro rest => rw [requests_dispatch, (kept_of_rested rest).1]
  cases step with
  | waiting => rfl
  | unsent asked =>
    rw [World.trace_tick, requests_concat, counted asked] at quiet
    simp [Event.request] at quiet
  | unanswered asked =>
    rw [World.trace_tick, World.trace_log, requests_concat, requests_concat, counted asked] at quiet
    simp [Event.request] at quiet
  | rejected datagram replyLast asked =>
    rw [World.trace_tick, World.trace_answer, World.trace_arrive, requests_concat, requests_concat,
      requests_concat, requests_concat, counted asked] at quiet
    simp [Event.request] at quiet

/-- Some attempt is the first with a valid reply, if any has one. -/
private theorem exists_firstValid {j : ℕ} (positive : 1 ≤ j) (valid : (script j).Valid) :
    ∃ k reply, FirstValid script k reply ∧ k ≤ j := by
  induction j using Nat.strong_induction_on with
  | _ j ih =>
    by_cases earlier : ∃ m, 1 ≤ m ∧ m < j ∧ (script m).Valid
    · obtain ⟨m, positive', order, valid'⟩ := earlier
      obtain ⟨k, reply, firstValid, least⟩ := ih m order positive' valid'
      exact ⟨k, reply, firstValid, least.trans order.le⟩
    · obtain ⟨reply, same⟩ := valid
      refine ⟨j, reply, ⟨positive, same, fun m positive' order valid' => ?_⟩, le_rfl⟩
      exact earlier ⟨m, positive', order, valid'⟩

/-- Setting up only adds its events. -/
private theorem setUp_of_ok
    (socket : initialiseSocket env cSet.recvUniTimeout world = .ok (.ok sockfd) created)
    (server : initialiseServerInterface env cSet.serverHost cSet.serverPort created =
      .ok (.ok userver) ready) : SetUp world ready := by
  have first : Wp (initialiseSocket env cSet.recvUniTimeout) (fun _ final => SetUp world final)
      (fun _ _ => True) world := by
    apply wp_initialiseSocket
    · exact fun _ => (SetUp.refl world).log trivial
    · exact fun sockfd success valid same _ => ((Opened.socket valid same).setsockopt _ success).setUp
  have second : Wp (initialiseServerInterface env cSet.serverHost cSet.serverPort)
      (fun _ final => SetUp created final) (fun _ _ => True) created := by
    apply wp_initialiseServerInterface
    · exact fun event prepares _ => (SetUp.refl created).log prepares.setsUp
    · exact fun event _ _ prepares _ => (SetUp.refl created).log prepares.setsUp
  exact (first.of_ok socket).trans (second.of_ok server)

/-- A run whose answers follow the script runs its retry loop as scripted. -/
private theorem scripted_of_follows
    (socket : initialiseSocket env cSet.recvUniTimeout ⟨ntoa, vars, []⟩ = .ok (.ok sockfd) created)
    (server : initialiseServerInterface env cSet.serverHost cSet.serverPort created =
      .ok (.ok userver) ready)
    (passes : PassesWait env.clock cSet.pollWait)
    (scripted : ∀ fuel, (finalWorld (unicastMode env cSet fuel ⟨ntoa, vars, []⟩)).trace.EachAfter
      (Follows env script)) : Scripted env cSet sockfd userver script ready where
  begins := head_begun (setUp_of_ok socket server)
  passes := passes
  follows := by
    intro fuel
    have followed := scripted (fuel + 1)
    rw [unicastMode_succ fuel socket server] at followed
    cases outcome : loop .outOfFuel (attempt env cSet 1 sockfd userver) (fuel + 1) 1
        (begun ready) with
    | error stop final => rwa [outcome] at followed
    | ok reply final =>
      rw [outcome] at followed
      cases reply with
      | none => exact followed
      | some received =>
        obtain ⟨transmitTime, offset, errorBound, name, stratum, trace⟩ :=
          World.trace_sample env sockfd final userver received
        apply List.EachAfter.of_prefix followed
        simp only [finalWorld, conclude, trace, List.append_assoc]
        exact List.prefix_append ..

end

/-- Once it is set up, `unicast_mode` retries as it should exactly when its retries can be counted
or a reply within them is valid. -/
theorem retries_iff (env : Env) (cSet : ClientSettings) (ntoa : Text) (vars : SampleVars)
    (script : ℕ → Outcome) (sockfd : ℤ) (userver : HostInfo) (created ready : World)
    (socket : initialiseSocket env cSet.recvUniTimeout ⟨ntoa, vars, []⟩ = .ok (.ok sockfd) created)
    (server : initialiseServerInterface env cSet.serverHost cSet.serverPort created =
      .ok (.ok userver) ready)
    (passes : PassesWait env.clock cSet.pollWait)
    (scripted : ∀ fuel, (finalWorld (unicastMode env cSet fuel ⟨ntoa, vars, []⟩)).trace.EachAfter
      (Follows env script)) :
    Retries env cSet ntoa vars script ↔ cSet.maxUnicastRetries < 2 ^ 31 - 1 ∨
      ∃ k reply, FirstValid script k reply ∧ (k : ℤ) ≤ cSet.maxUnicastRetries := by
  have run := scripted_of_follows socket server passes scripted
  have kept : ready.vars = vars := by
    obtain ⟨events, -, rfl⟩ := setUp_of_ok socket server
    rfl
  constructor
  · intro retries
    by_contra neither
    rw [not_or, not_lt, not_exists] at neither
    obtain ⟨limitless, late⟩ := neither
    refine not_retries_of_limitless socket server limitless (fun k reply firstValid => ?_) retries
    exact not_le.mp fun within => late k ⟨reply, firstValid, within⟩
  · intro condition
    refine ⟨fun k reply firstValid within => ?_, fun late => ?_, ?_⟩
    · obtain ⟨fuel, final, returned, sampled⟩ := run.samples firstValid within
      exact ⟨fuel + 1, final, (unicastMode_succ fuel socket server).trans returned, sampled⟩
    · have countable : cSet.maxUnicastRetries < 2 ^ 31 - 1 := by
        rcases condition with countable | ⟨k, reply, firstValid, within⟩
        · exact countable
        · exact absurd (late k reply firstValid) (not_lt.mpr within)
      obtain ⟨fuel, final, returned, total, offset, errorBound⟩ := run.exhausts countable
        fun j positive within valid => by
          obtain ⟨k, reply, firstValid, least⟩ := exists_firstValid positive valid
          have := late k reply firstValid
          omega
      rw [kept] at offset errorBound
      exact ⟨fuel + 1, final, (unicastMode_succ fuel socket server).trans returned, total, offset,
        errorBound⟩
    · intro fuel sockfd userver retryCount world next final turn quiet
      exact count_of_quiet_turn turn quiet

/-- A clock that advances by twenty seconds between two readings. -/
def steppingClock (index : ℕ) : Timeval := ⟨20 * index, 0⟩

theorem passesWait_steppingClock : PassesWait steppingClock 15 := by
  intro start index
  -- The elapsed time wraps, and after each wrap it is twenty again.
  refine ⟨start + 1 + 2 ^ 32 * index, by omega, ?_⟩
  have elapsed : getElapsedTime (steppingClock start) (steppingClock (start + 1 + 2 ^ 32 * index)) =
      20 := by
    rw [getElapsedTime, steppingClock, steppingClock, toInt, Int.bmod_def]
    push_cast
    omega
  rw [elapsed]
  decide

/-- A host whose receives all time out. -/
def silentEnv : Env := .benign steppingClock fun _ => none

def silentSettings (maxUnicastRetries : ℤ) : ClientSettings :=
  { ClientSettings.defaults (.text (dotted ⟨10, 0, 0, 1⟩)) 0 with
    maxUnicastRetries := maxUnicastRetries }

/-- The server of a silent run. -/
def silentServer : HostInfo :=
  ⟨.text (dotted ⟨10, 0, 0, 1⟩),
    Hostent.sockaddr silentEnv 123 ⟨dotted ⟨10, 0, 0, 1⟩, ⟨10, 0, 0, 1⟩⟩⟩

/-- The world of a silent run before it sets its timer. -/
def silentReady : World :=
  ⟨[], ⟨0, 0, default⟩, [.socket 3, .setsockopt 3 (.receiveTimeout ⟨10, 0⟩) true,
    .gethostbyaddr ⟨10, 0, 0, 1⟩ (some ⟨dotted ⟨10, 0, 0, 1⟩, ⟨10, 0, 0, 1⟩⟩)]⟩

section

variable (maxUnicastRetries : ℤ) {world : World} {retryCount : ℤ}

private theorem silent_socket :
    initialiseSocket silentEnv (silentSettings maxUnicastRetries).recvUniTimeout
      ⟨[], ⟨0, 0, default⟩, []⟩ =
        .ok (.ok 3) ⟨[], ⟨0, 0, default⟩, silentReady.trace.take 2⟩ :=
  rfl

private theorem silent_server :
    initialiseServerInterface silentEnv (silentSettings maxUnicastRetries).serverHost
      (silentSettings maxUnicastRetries).serverPort
      ⟨[], ⟨0, 0, default⟩, silentReady.trace.take 2⟩ =
        .ok (.ok silentServer) silentReady := by
  have host : World.deref ⟨[], ⟨0, 0, default⟩, silentReady.trace.take 2⟩
      (silentSettings maxUnicastRetries).serverHost = dotted ⟨10, 0, 0, 1⟩ := rfl
  rw [← wp_eq, initialiseServerInterface, wp_bind, wp_readText, host, inetPton_dotted]
  have resolved (index : ℕ) : silentEnv.gethostbyaddr index ⟨10, 0, 0, 1⟩ =
      some ⟨dotted ⟨10, 0, 0, 1⟩, ⟨10, 0, 0, 1⟩⟩ := rfl
  simp only [wp_bind, wp_ask, resolved, wp_pure]
  rfl

/-- Nothing is asked or received before the retry loop. -/
private theorem silent_begins :
    (begun silentReady).trace.EachAfter (Follows silentEnv fun _ => .receiveError) := by
  intro before event after split
  have member : event ∈ (begun silentReady).trace := by simp [split]
  simp only [begun, World.trace_setTimer, silentReady, List.mem_append, List.mem_cons,
    List.not_mem_nil, or_false] at member
  rcases member with (rfl | rfl | rfl) | rfl <;> trivial

/-- A turn of a silent run receives nothing. -/
private theorem silent_attempt
    (follows : world.trace.EachAfter (Follows silentEnv fun _ => .receiveError)) :
    Wp (attempt silentEnv (silentSettings maxUnicastRetries) 1 3 silentServer retryCount)
      (Sum.elim (fun _ final => final.trace.EachAfter (Follows silentEnv fun _ => .receiveError))
        fun reply final => reply = none ∧
          final.trace.EachAfter (Follows silentEnv fun _ => .receiveError))
      (fun _ final => final.trace.EachAfter (Follows silentEnv fun _ => .receiveError)) world := by
  rcases lt_or_ge (silentSettings maxUnicastRetries).maxUnicastRetries retryCount with used | open_
  · rw [wp_of_ok (attempt_exhausted used)]
    exact ⟨rfl, follows⟩
  rcases rested_or_waiting silentEnv (silentSettings maxUnicastRetries).pollWait world with
    ⟨rested, rest⟩ | ⟨set, early⟩
  · have followed : rested.trace.EachAfter (Follows silentEnv fun _ => .receiveError) := by
      cases rest with
      | unset => exact follows
      | elapsed => exact List.eachAfter_concat.mpr ⟨follows, trivial⟩
    have sent : silentEnv.sendto (rested.startTimer silentEnv).trace.length ≠ false := by
      simp [silentEnv, Env.benign]
    rw [Wp, attempt_rested open_ rest, World.attempted, if_neg sent, World.listened_of_none _ _ rfl]
    simp only [Sum.elim_inl, World.trace_tick, World.trace_log, World.trace_dispatch,
      World.trace_startTimer, List.eachAfter_concat, followed, Follows]
    simp [Outcome.Receives]
  · rw [wp_of_ok (attempt_waiting open_ set early)]
    exact List.eachAfter_concat.mpr ⟨follows, trivial⟩

/-- The answers of a silent run are receive errors. -/
private theorem silent_follows (fuel : ℕ) :
    (finalWorld (unicastMode silentEnv (silentSettings maxUnicastRetries) fuel
      ⟨[], ⟨0, 0, default⟩, []⟩)).trace.EachAfter (Follows silentEnv fun _ => .receiveError) := by
  cases fuel with
  | zero =>
    rw [unicastMode_eq 0 (silent_socket _) (silent_server _)]
    exact silent_begins
  | succ fuel =>
    have run : Wp (loop .outOfFuel (attempt silentEnv (silentSettings maxUnicastRetries) 1 3
        silentServer) (fuel + 1) 1)
        (fun reply final => reply = none ∧
          final.trace.EachAfter (Follows silentEnv fun _ => .receiveError))
        (fun _ final => final.trace.EachAfter (Follows silentEnv fun _ => .receiveError))
        (begun silentReady) := by
      apply wp_loop fun _ world => world.trace.EachAfter (Follows silentEnv fun _ => .receiveError)
      · exact fun _ _ follows => silent_attempt maxUnicastRetries follows
      · exact fun _ _ follows => follows
      · exact silent_begins
    rw [unicastMode_succ fuel (silent_socket _) (silent_server _)]
    cases outcome : loop .outOfFuel (attempt silentEnv (silentSettings maxUnicastRetries) 1 3
        silentServer) (fuel + 1) 1 (begun silentReady) with
    | error stop final => exact run.of_error outcome
    | ok reply final =>
      obtain ⟨rfl, follows⟩ := run.of_ok outcome
      exact follows

end

/-- The retries of a silent run are used up. -/
theorem retries_iff_silent :
    Retries silentEnv (silentSettings 2) [] ⟨0, 0, default⟩ fun _ => .receiveError :=
  (retries_iff _ _ _ _ _ _ _ _ _ (silent_socket 2) (silent_server 2) passesWait_steppingClock
    (silent_follows 2)).mpr (.inl (by decide))

/-- Under a limit of `INT_MAX` a silent run does not end. -/
theorem not_retries_uncounted :
    PassesWait silentEnv.clock (silentSettings (2 ^ 31 - 1)).pollWait ∧
      (∀ fuel, (finalWorld (unicastMode silentEnv (silentSettings (2 ^ 31 - 1)) fuel
        ⟨[], ⟨0, 0, default⟩, []⟩)).trace.EachAfter (Follows silentEnv fun _ => .receiveError)) ∧
      ¬ Retries silentEnv (silentSettings (2 ^ 31 - 1)) [] ⟨0, 0, default⟩ fun _ => .receiveError := by
  refine ⟨passesWait_steppingClock, silent_follows _, ?_⟩
  apply not_retries_of_limitless (silent_socket _) (silent_server _) le_rfl
  intro k reply firstValid
  exact absurd firstValid.valid (by simp)

end Sntp.RetryLoop
