import Sntp.Machine.Resources
import Sntp.Proofs.MainSteps
import Sntp.Proofs.ManycastSteps
import Sntp.Soundness.QueriedServer

/-! # The sockets a call leaves open

Only the ends of `unicast_mode` and of discovery that report success close the socket, so a call
leaves it open unless there was none to open or a datagram passes the sanity checks. The repeat loop
then holds one socket more for each call that fails later than at its `socket`.
-/

namespace Sntp.OpenSockets

open Machine Resources

/-- What an event does with a descriptor. -/
def use : Event → Option (Use ℤ)
  | .socket sockfd => if sockfd = -1 then none else some (.acquire sockfd)
  | .close sockfd => some (.release sockfd)
  | _ => none

/-- The descriptors that are open, from those the process inherits. -/
def openSockets (inherited : Finset ℤ) (world : World) : Finset ℤ :=
  heldAfter use inherited world.trace

/-- The system gives out a descriptor only if it is not open. -/
def FreshSockets (inherited : Finset ℤ) (world : World) : Prop :=
  world.trace.EachAfter (Fresh use inherited)

/-- From the given event on, a datagram arrives that passes the sanity checks against the request in
force. -/
def Passed (env : Env) (entry : ℕ) (world : World) : Prop :=
  world.trace.SomeAfter fun before event =>
    entry ≤ before.length ∧ ∃ queried reply, QueriedServer.Passes env before event queried reply

/-- A call is refused its socket, or receives a datagram that passes. -/
def Releases (env : Env) (world final : World) : Prop :=
  env.socket world.trace.length = -1 ∨ Passed env world.trace.length final

section

variable {env : Env} {cSet : ClientSettings} {inherited : Finset ℤ} {entry : ℕ} {sockfd : ℤ}
  {world final : World}

/-! The descriptors along the steps of a call. -/

@[simp] theorem openSockets_log (event : Event) : openSockets inherited (world.log event) =
    hold (openSockets inherited world) (use event) := heldAfter_concat

@[simp] theorem openSockets_tick :
    openSockets inherited (world.tick env) = openSockets inherited world := openSockets_log _

@[simp] theorem openSockets_setTimer (time : Timeval) :
    openSockets inherited (world.setTimer time) = openSockets inherited world := openSockets_log _

@[simp] theorem openSockets_format (a : InAddr) :
    openSockets inherited (world.format a) = openSockets inherited world := rfl

@[simp] theorem openSockets_dispatch (addr : SockaddrIn) (success : Bool) :
    openSockets inherited (world.dispatch env sockfd addr success) = openSockets inherited world := by
  cases success <;> simp [World.dispatch, World.startTimer, use, hold]

@[simp] theorem openSockets_search (addr : SockaddrIn) (success : Bool) :
    openSockets inherited (world.search env sockfd addr success) = openSockets inherited world := by
  cases success <;> simp [World.search, use, hold]

@[simp] theorem openSockets_arrive (datagram : Datagram) :
    openSockets inherited (world.arrive sockfd datagram) = openSockets inherited world :=
  openSockets_log _

@[simp] theorem openSockets_answer (addr : SockaddrIn) (datagram : Datagram) (replyLast : Bool) :
    openSockets inherited (world.answer env sockfd addr datagram replyLast) =
      openSockets inherited world := by
  simp [World.answer, use, hold]

@[simp] theorem openSockets_gather (datagram : Datagram) :
    openSockets inherited (world.gather env sockfd datagram) = openSockets inherited world := by
  simp [World.gather]

theorem openSockets_sample (userver : HostInfo) (received : Received) :
    openSockets inherited (world.sample env sockfd userver received) =
      (openSockets inherited world).erase sockfd := by
  obtain ⟨_, _, _, _, _, trace⟩ := world.trace_sample env sockfd userver received
  rw [openSockets, trace, heldAfter_concat, heldAfter_concat_of_none rfl]
  rfl

theorem openSockets_asked {pollWait : ℤ} {addr : SockaddrIn} {success : Bool} {request : NtpPacket}
    {asked : World} (step : Asked env pollWait sockfd addr success world request asked) :
    openSockets inherited asked = openSockets inherited world := by
  cases step with
  | intro wait => cases wait <;> simp

/-- A turn of the retry loop neither opens nor closes a socket. -/
theorem openSockets_attempt {pollWait : ℤ} {userver : HostInfo} {retryCount : ℤ}
    {result : EStateM.Result Stop World (ℤ ⊕ Option Received)}
    (step : AttemptStep env pollWait sockfd userver retryCount world result) :
    openSockets inherited (finalWorld result) = openSockets inherited world := by
  cases step with
  | exhausted => rfl
  | waiting => exact openSockets_tick
  | unsent asked | unfinished asked | unanswered asked | overrun _ asked | rejected _ _ asked
  | accepted _ _ asked =>
    rw [← openSockets_asked asked]
    simp [finalWorld, use, hold]

/-- Nor does a turn of the gathering loop. -/
theorem openSockets_collect {waitTime : ℤ} {request : NtpPacket} {timer : Timeval}
    {table : ServerTable} {result : EStateM.Result Stop World (ServerTable ⊕ ServerTable)}
    (step : CollectStep env waitTime sockfd request timer table world result) :
    openSockets inherited (finalWorld result) = openSockets inherited world := by
  cases step <;> simp [finalWorld, use, hold]

/-- Setting a socket up leaves it open. -/
theorem openSockets_opened (opened : Opened env world sockfd final) :
    openSockets inherited final = insert sockfd (openSockets inherited world) := by
  induction opened with
  | socket valid => simp [use, hold, valid]
  | @log final event _ prepares ih =>
    have quiet : use event = none := by
      cases event <;> first | rfl | exact prepares.elim
    rw [openSockets_log, quiet, hold, ih]

/-! The datagrams that pass along them. -/

theorem passed_log {event : Event} (fails : ∀ queried reply,
      ¬ QueriedServer.Passes env world.trace event queried reply) :
    Passed env entry (world.log event) ↔ Passed env entry world := by
  rw [Passed, World.trace_log, List.someAfter_concat, ← Passed]
  exact or_iff_left fun here => here.2.elim fun queried found => found.elim (fails queried)

/-- Only datagrams pass. -/
theorem passed_log_of_none {event : Event} (quiet : event.datagram = none) :
    Passed env entry (world.log event) ↔ Passed env entry world := by
  apply passed_log
  rintro queried reply ⟨received, -⟩
  simp [quiet] at received

@[simp] theorem passed_tick : Passed env entry (world.tick env) ↔ Passed env entry world :=
  passed_log_of_none rfl

@[simp] theorem passed_setTimer (time : Timeval) :
    Passed env entry (world.setTimer time) ↔ Passed env entry world :=
  passed_log_of_none rfl

@[simp] theorem passed_format (a : InAddr) :
    Passed env entry (world.format a) ↔ Passed env entry world := Iff.rfl

@[simp] theorem passed_dispatch (addr : SockaddrIn) (success : Bool) :
    Passed env entry (world.dispatch env sockfd addr success) ↔ Passed env entry world := by
  have started : Passed env entry (world.startTimer env) ↔ Passed env entry world := by
    simp [World.startTimer]
  cases success <;> exact (passed_log_of_none rfl).trans started

@[simp] theorem passed_search (addr : SockaddrIn) (success : Bool) :
    Passed env entry (world.search env sockfd addr success) ↔ Passed env entry world := by
  cases success <;> exact (passed_log_of_none rfl).trans passed_tick

@[simp] theorem passed_answer (addr : SockaddrIn) (datagram : Datagram) (replyLast : Bool) :
    Passed env entry (world.answer env sockfd addr datagram replyLast) ↔
      Passed env entry (world.arrive sockfd datagram) := by
  rw [World.answer, passed_format, passed_log_of_none rfl, passed_tick]

@[simp] theorem passed_gather (datagram : Datagram) :
    Passed env entry (world.gather env sockfd datagram) ↔
      Passed env entry ((world.tick env).arrive sockfd datagram) := by
  simp [World.gather]

theorem passed_sample (userver : HostInfo) (received : Received) :
    Passed env entry (world.sample env sockfd userver received) ↔ Passed env entry world := by
  obtain ⟨transmitTime, offset, errorBound, name, stratum, trace⟩ :=
    world.trace_sample env sockfd userver received
  have closed : Passed env entry ((world.log (.serverResults transmitTime offset errorBound name
      userver.addr.sinAddr stratum)).log (.close sockfd)) ↔ Passed env entry world :=
    (passed_log_of_none rfl).trans (passed_log_of_none rfl)
  rw [← closed, Passed, trace]
  rfl

section

variable {request : NtpPacket} {addr : SockaddrIn} {reply : Datagram}
  (latest : world.trace.latest Event.request = some (request, addr))
include latest

theorem passed_arrive_of_fails (fails : runSanityChecks request (reply.packet env.host) ≠ 0) :
    Passed env entry (world.arrive sockfd reply) ↔ Passed env entry world := by
  apply passed_log
  rintro queried other ⟨received, pkt, inForce, passes⟩
  obtain rfl := Option.some.inj received
  obtain ⟨rfl, -⟩ := Prod.mk.inj (Option.some.inj (latest.symm.trans inForce))
  exact fails passes

theorem passed_arrive_of_passes (later : entry ≤ world.trace.length)
    (passes : runSanityChecks request (reply.packet env.host) = 0) :
    Passed env entry (world.arrive sockfd reply) := by
  rw [Passed, World.trace_arrive, List.someAfter_concat]
  exact .inr ⟨later, addr, reply, rfl, request, latest, passes⟩

end

theorem not_passed_entry : ¬ Passed env world.trace.length world :=
  List.not_someAfter_of_length fun _ _ here => here.1

theorem passed_opened (opened : Opened env world sockfd final) :
    Passed env entry final ↔ Passed env entry world := by
  induction opened with
  | socket => exact passed_log_of_none rfl
  | @log final event _ prepares ih =>
    rw [passed_log_of_none prepares.setsUp.datagram_eq_none, ih]

theorem passed_asked {pollWait : ℤ} {addr : SockaddrIn} {success : Bool} {request : NtpPacket}
    {asked : World} (step : Asked env pollWait sockfd addr success world request asked) :
    Passed env entry asked ↔ Passed env entry world := by
  cases step with
  | intro wait => cases wait <;> simp

/-- A turn of the retry loop goes on after a datagram that fails, and ends with one that passes. -/
theorem passed_attempt {pollWait : ℤ} {userver : HostInfo} {retryCount : ℤ}
    {result : EStateM.Result Stop World (ℤ ⊕ Option Received)} (later : entry ≤ world.trace.length)
    (step : AttemptStep env pollWait sockfd userver retryCount world result) :
    match result with
    | .ok (.inr (some _)) final => Passed env entry final
    | .ok _ final => Passed env entry final ↔ Passed env entry world
    | .error _ _ => True := by
  cases step with
  | exhausted => exact Iff.rfl
  | waiting => exact passed_tick
  | unsent asked =>
    rw [← passed_asked asked]
    exact passed_tick
  | unanswered asked =>
    rw [← passed_asked asked]
    exact passed_tick.trans (passed_log_of_none rfl)
  | unfinished | overrun => trivial
  | rejected datagram replyLast asked fails =>
    rw [← passed_asked asked]
    exact passed_tick.trans ((passed_answer ..).trans
      (passed_arrive_of_fails asked.latest_request fails))
  | accepted datagram replyLast asked passes =>
    have grown := later.trans asked.trace_prefix.length_le
    simpa using passed_arrive_of_passes asked.latest_request grown passes

/-! The ends of a call. -/

/-- How a call returns: it has no socket, or the one it opened is closed again or left open. -/
inductive CallEnd (env : Env) (inherited : Finset ℤ) (world final : World) : Prop
  | refused : env.socket world.trace.length = -1 → final = world.log (.socket (-1)) →
      CallEnd env inherited world final
  | released {sockfd : ℤ} : Passed env world.trace.length final →
      world.trace ++ [.socket sockfd] <+: final.trace → sockfd ≠ -1 →
      openSockets inherited final = (insert sockfd (openSockets inherited world)).erase sockfd →
      CallEnd env inherited world final
  | leaked {sockfd : ℤ} : ¬ Passed env world.trace.length final →
      world.trace ++ [.socket sockfd] <+: final.trace → sockfd ≠ -1 →
      env.socket world.trace.length = sockfd →
      openSockets inherited final = insert sockfd (openSockets inherited world) →
      CallEnd env inherited world final

/-- A call that has opened its socket and not closed it yet. -/
private structure Holding (env : Env) (inherited : Finset ℤ) (world : World) (sockfd : ℤ)
    (state : World) : Prop where
  socket : env.socket world.trace.length = sockfd
  valid : sockfd ≠ -1
  since : world.trace ++ [.socket sockfd] <+: state.trace
  held : openSockets inherited state = insert sockfd (openSockets inherited world)

section

variable {state : World}

private theorem Holding.of_opened (opened : Opened env world sockfd final) :
    Holding env inherited world sockfd final where
  socket := opened.socket_eq
  valid := opened.ne
  since := opened.trace_prefix
  held := openSockets_opened opened

private theorem Holding.grow (holding : Holding env inherited world sockfd state)
    (grown : state.trace <+: final.trace)
    (kept : openSockets inherited final = openSockets inherited state) :
    Holding env inherited world sockfd final where
  socket := holding.socket
  valid := holding.valid
  since := holding.since.trans grown
  held := kept.trans holding.held

private theorem Holding.later (holding : Holding env inherited world sockfd state) :
    world.trace.length ≤ state.trace.length :=
  ((List.prefix_append ..).trans holding.since).length_le

private theorem Holding.leaked (holding : Holding env inherited world sockfd state)
    (quiet : ¬ Passed env world.trace.length state) : CallEnd env inherited world state :=
  .leaked quiet holding.since holding.valid holding.socket holding.held

private theorem Holding.of_opened_leaked (opened : Opened env world sockfd final) :
    CallEnd env inherited world final :=
  (Holding.of_opened opened).leaked ((passed_opened opened).not.mpr not_passed_entry)

/-- A retry loop that ends with a reply leaves it to the report to close the socket. -/
private theorem Holding.sample (holding : Holding env inherited world sockfd state)
    (passed : Passed env world.trace.length state) (userver : HostInfo) (received : Received) :
    CallEnd env inherited world (state.sample env sockfd userver received) := by
  refine .released ((passed_sample ..).mpr passed) (holding.since.trans ?_) holding.valid ?_
  · obtain ⟨_, _, _, _, _, trace⟩ := state.trace_sample env sockfd userver received
    rw [trace, List.append_assoc]
    exact List.prefix_append ..
  · rw [openSockets_sample, holding.held]

/-- `unicast_mode` returns in one of these ways. -/
theorem wp_unicastMode_end (inherited : Finset ℤ) (fuel : ℕ) :
    Wp (unicastMode env cSet fuel) (fun _ final => CallEnd env inherited world final)
      (fun _ _ => True) world := by
  apply wp_unicastMode_cases
  · exact fun failed => .refused failed rfl
  · exact fun code sockfd final _ _ opened => Holding.of_opened_leaked opened
  intro sockfd userver ready _ opened _
  refine wp_loop (fun _ state => Holding env inherited world sockfd state ∧
    ¬ Passed env world.trace.length state) ?_ (fun _ _ _ => trivial) fuel 1
    ⟨(Holding.of_opened opened).grow (List.prefix_append ..) (openSockets_setTimer _), ?_⟩
  · rintro retryCount state ⟨holding, quiet⟩
    refine (wp_attempt fuel retryCount).mono ?_ fun _ _ _ => trivial
    intro next final step
    have holding' := holding.grow step.trace_prefix (openSockets_attempt step)
    have passed := passed_attempt holding.later step
    rcases next with retry | none | received
    · exact ⟨holding', passed.not.mpr quiet⟩
    · exact holding'.leaked (passed.not.mpr quiet)
    · exact holding'.sample passed userver received
  · exact ((passed_setTimer _).trans (passed_opened opened)).not.mpr not_passed_entry

/-- What the gathering loop of discovery maintains: it has found a server exactly when a datagram has
passed. -/
private structure Gathering (env : Env) (inherited : Finset ℤ) (world : World) (sockfd : ℤ)
    (request : NtpPacket) (table : ServerTable) (state : World) : Prop where
  holding : Holding env inherited world sockfd state
  asked : ∃ addr, state.trace.latest Event.request = some (request, addr)
  found : table.sCount = 0 ↔ ¬ Passed env world.trace.length state

private theorem Gathering.collect {waitTime : ℤ} {request : NtpPacket} {timer : Timeval}
    {table : ServerTable} {next : ServerTable ⊕ ServerTable}
    (gathering : Gathering env inherited world sockfd request table state)
    (step : CollectStep env waitTime sockfd request timer table state (.ok next final)) :
    Gathering env inherited world sockfd request (next.elim id id) final := by
  have holding := gathering.holding.grow step.trace_prefix (openSockets_collect step)
  obtain ⟨addr, asked⟩ := gathering.asked
  have ticked : (state.tick env).trace.latest Event.request = some (request, addr) := by
    simpa [Event.request] using asked
  have gathered (datagram : Datagram) :
      (state.gather env sockfd datagram).trace.latest Event.request = some (request, addr) := by
    simpa only [World.trace_gather, List.latest_concat, Event.request, Option.none_or] using ticked
  cases step with
  | finished => exact ⟨holding, ⟨addr, ticked⟩, gathering.found.trans passed_tick.not.symm⟩
  | silent =>
    refine ⟨holding, ⟨addr, ?_⟩, gathering.found.trans (Iff.not ?_)⟩
    · simpa only [World.trace_log, List.latest_concat, Event.request, Option.none_or] using ticked
    · exact ((passed_log_of_none rfl).trans passed_tick).symm
  | discarded datagram early fails =>
    refine ⟨holding, ⟨addr, gathered datagram⟩, gathering.found.trans (Iff.not ?_)⟩
    exact ((passed_gather datagram).trans
      ((passed_arrive_of_fails ticked fails).trans passed_tick)).symm
  | approved datagram early passes =>
    refine ⟨holding, ⟨addr, gathered datagram⟩, iff_of_false (Nat.succ_ne_zero _) (not_not.mpr ?_)⟩
    have later : world.trace.length ≤ (state.tick env).trace.length :=
      gathering.holding.later.trans (List.prefix_append ..).length_le
    exact (passed_gather datagram).mpr (passed_arrive_of_passes ticked later passes)

/-- So does discovery. -/
theorem wp_discover_end (fuel : ℕ) (ntpServers : ℕ → CharPtr) :
    Wp (discoverUnicastServersWithManycast env cSet fuel ntpServers)
      (fun _ final => CallEnd env inherited world final) (fun _ _ => True) world := by
  apply wp_discover_opened
  · exact fun failed => .refused failed rfl
  · exact fun code sockfd final _ opened => Holding.of_opened_leaked opened
  · intro code ready sockfd addr _ opened
    exact ((Holding.of_opened opened).grow (World.trace_prefix_search ..) (openSockets_search ..)).leaked
      (((passed_search ..).trans (passed_opened opened)).not.mpr not_passed_entry)
  · intro ready sockfd addr opened sent
    refine wp_loop (Gathering env inherited world sockfd (ready.request env)) ?_
      (fun _ _ _ => trivial) fuel _ ?_
    · intro table state gathering
      refine (wp_collect sockfd _ _ table).mono ?_ fun _ _ _ => trivial
      intro next final step
      have gathering := gathering.collect step
      rcases next with next | next
      · exact gathering
      · simp only [Sum.elim_inr]
        split
        · next empty => exact gathering.holding.leaked (gathering.found.mp empty)
        · next some =>
          refine .released ?_ (gathering.holding.since.trans (List.prefix_append ..))
            gathering.holding.valid ?_
          · exact (passed_log_of_none rfl).mpr (not_not.mp (gathering.found.not.mp some))
          · rw [openSockets_log, gathering.holding.held]
            rfl
    · have searched : Holding env inherited world sockfd sent :=
        (Holding.of_opened opened).grow (World.trace_prefix_search ..) (openSockets_search ..)
      refine ⟨searched.grow (List.prefix_append ..) openSockets_tick, ⟨addr, ?_⟩, iff_of_true rfl ?_⟩
      · simp only [sent, World.trace_tick, World.trace_search, List.latest_concat, Event.request,
          Option.none_or, Option.some_or]
      · exact (passed_tick.trans ((passed_search ..).trans (passed_opened opened))).not.mpr
          not_passed_entry

end

theorem CallEnd.trace_prefix (outcome : CallEnd env inherited world final) :
    world.trace <+: final.trace := by
  cases outcome with
  | refused _ same =>
    rw [same]
    exact List.prefix_append ..
  | released _ since | leaked _ since => exact (List.prefix_append ..).trans since

/-- A call leaves the set of open descriptors as it was exactly when it releases its socket, and else
with one more. -/
theorem CallEnd.releases (outcome : CallEnd env inherited world final)
    (fresh : FreshSockets inherited final) :
    (Releases env world final ∧ openSockets inherited final = openSockets inherited world) ∨
      ¬ Releases env world final ∧ ∃ sockfd ∉ openSockets inherited world,
        openSockets inherited final = insert sockfd (openSockets inherited world) := by
  have unheld {sockfd : ℤ} (since : world.trace ++ [.socket sockfd] <+: final.trace)
      (valid : sockfd ≠ -1) : sockfd ∉ openSockets inherited world :=
    (List.eachAfter_concat.mp (fresh.of_prefix since)).2 sockfd (by simp [use, valid])
  cases outcome with
  | refused failed same => exact .inl ⟨.inl failed, by rw [same]; simp [use, hold]⟩
  | released passed since valid held =>
    exact .inl ⟨.inr passed, held.trans (Finset.erase_insert (unheld since valid))⟩
  | leaked quiet since valid same held =>
    refine .inr ⟨?_, _, unheld since valid, held⟩
    rintro (failed | passed)
    · exact valid (same.symm.trans failed)
    · exact quiet passed

/-- The set is the same exactly when the call releases its socket. -/
theorem CallEnd.openSockets_eq_iff (outcome : CallEnd env inherited world final)
    (fresh : FreshSockets inherited final) :
    openSockets inherited final = openSockets inherited world ↔ Releases env world final := by
  rcases outcome.releases fresh with ⟨releases, kept⟩ | ⟨keeps, sockfd, unheld, held⟩
  · exact iff_of_true kept releases
  · refine iff_of_false ?_ keeps
    rw [held]
    exact (Finset.ne_insert_of_notMem _ _ unheld).symm

section

variable {fuel : ℕ} {counter : ℤ} {calls : List (World × World)}

private theorem openSockets_next (inherited : Finset ℤ) {called next : World} {exitCode : ℤ}
    (after : next = if exitCode ≠ 0 then called.log (.errorMessage exitCode) else called) :
    called.trace <+: next.trace ∧ openSockets inherited next = openSockets inherited called := by
  by_cases failure : exitCode = 0
  · rw [if_neg (not_not.mpr failure)] at after
    exact after ▸ ⟨List.prefix_rfl, rfl⟩
  · rw [if_pos failure] at after
    exact after ▸ ⟨List.prefix_append .., openSockets_log _⟩

private theorem openSockets_waitPoll (inherited : Finset ℤ) {ready : World}
    (waited : loop .outOfFuel (waitPoll env cSet counter) fuel () world = .ok () ready) :
    world.trace <+: ready.trace ∧ openSockets inherited ready = openSockets inherited world := by
  let kept (state : World) : Prop :=
    world.trace <+: state.trace ∧ openSockets inherited state = openSockets inherited world
  have tick (state : World) (holds : kept state) : kept (state.tick env) :=
    ⟨holds.1.trans (List.prefix_append ..), openSockets_tick.trans holds.2⟩
  exact (wp_loop_waitPoll tick fuel counter ⟨List.prefix_rfl, rfl⟩).of_ok waited

private theorem trace_prefix_calls (run : RepeatCalls env cSet fuel counter calls world final) :
    world.trace <+: final.trace := by
  induction run with
  | done => exact List.prefix_rfl
  | call _ waited sampled after _ ih =>
    have outcome := (wp_unicastMode_end ∅ fuel).of_ok sampled
    exact (openSockets_waitPoll ∅ waited).1.trans (outcome.trace_prefix.trans
      ((openSockets_next ∅ after).1.trans ih))

/-- The repeat loop never closes more sockets than it opens, and as many exactly when every call
releases its own. -/
theorem card_openSockets (run : RepeatCalls env cSet fuel counter calls world final)
    (fresh : FreshSockets inherited final) :
    (openSockets inherited world).card ≤ (openSockets inherited final).card ∧
      ((openSockets inherited final).card = (openSockets inherited world).card ↔
        ∀ call ∈ calls, Releases env call.1 call.2) := by
  induction run with
  | done => simp
  | @call counter calls world ready called next final exitCode below waited sampled after rest ih =>
    obtain ⟨grown, same⟩ := ih fresh
    have outcome := (wp_unicastMode_end inherited fuel).of_ok sampled
    obtain ⟨later, left⟩ := openSockets_next inherited after
    have releases := outcome.releases (fresh.of_prefix (later.trans (trace_prefix_calls rest)))
    rw [left] at grown same
    rw [(openSockets_waitPoll inherited waited).2] at releases
    rw [List.forall_mem_cons]
    rcases releases with ⟨releases, kept⟩ | ⟨keeps, sockfd, unheld, held⟩
    · rw [kept] at grown same
      exact ⟨grown, same.trans (iff_and_self.mpr fun _ => releases)⟩
    · rw [held, Finset.card_insert_of_notMem unheld] at grown
      refine ⟨by omega, iff_of_false (by omega) fun all => keeps all.1⟩

end

end

/-- Where the system gives out descriptors that are not open, a call of `unicast_mode` or of discovery
returns with the same open descriptors exactly when it is refused a socket or receives a datagram that
passes the sanity checks, and a repeat loop ends with as many exactly when each of its calls does. -/
theorem sockets_released_iff (env : Env) (cSet : ClientSettings) (fuel : ℕ) (inherited : Finset ℤ)
    (world final : World) (fresh : FreshSockets inherited final) :
    (∀ code, unicastMode env cSet fuel world = .ok code final →
      (openSockets inherited final = openSockets inherited world ↔ Releases env world final)) ∧
    (∀ ntpServers code table,
      discoverUnicastServersWithManycast env cSet fuel ntpServers world = .ok (code, table) final →
      (openSockets inherited final = openSockets inherited world ↔ Releases env world final)) ∧
    ∀ turns counter totals sums,
      loop .outOfFuel (repeatSample env cSet fuel) turns (counter, totals) world = .ok sums final →
      ∃ calls, RepeatCalls env cSet fuel counter calls world final ∧
        ((openSockets inherited final).card = (openSockets inherited world).card ↔
          ∀ call ∈ calls, Releases env call.1 call.2) := by
  refine ⟨?_, ?_, ?_⟩
  · intro code returned
    exact ((wp_unicastMode_end inherited fuel).of_ok returned).openSockets_eq_iff fresh
  · intro ntpServers code table returned
    exact ((wp_discover_end fuel ntpServers).of_ok returned).openSockets_eq_iff fresh
  · intro turns counter totals sums returned
    obtain ⟨calls, run⟩ := (wp_repeatCalls turns counter totals).of_ok returned
    exact ⟨calls, run, (card_openSockets run fresh).2⟩

/-- The descriptors a process starts with. -/
def standardStreams : Finset ℤ := {0, 1, 2}

/-- A run that opens one descriptor, the first that is free, at its start. -/
private theorem freshSockets_of_first {world : World} (split : world.trace = .socket 3 :: world.trace.tail)
    (quiet : ∀ event ∈ world.trace.tail, (use event).bind Use.acquired = none) :
    FreshSockets standardStreams world := by
  rw [FreshSockets, split]
  exact fresh_of_tail rfl (by decide) quiet

def answeredRun : EStateM.Result Stop World ℤ :=
  QueriedServer.sampleRun ⟨0, QueriedServer.queriedAddr⟩

/-- An answered call closes its socket. -/
theorem sockets_released_iff_answered :
    openSockets standardStreams (finalWorld answeredRun) =
      openSockets standardStreams ⟨[], ⟨0, 0, default⟩, []⟩ := by
  have fresh : FreshSockets standardStreams (finalWorld answeredRun) :=
    freshSockets_of_first (by decide +kernel) (by decide +kernel)
  have released := (sockets_released_iff _ _ _ standardStreams ⟨[], ⟨0, 0, default⟩, []⟩ _ fresh).1 0
    (eq_ok_of_returnValue (by decide +kernel))
  let trace := (finalWorld answeredRun).trace
  let reply := QueriedServer.replyFrom ⟨0, QueriedServer.queriedAddr⟩
  have arrives : trace = trace.take 8 ++ .recvfrom 3 (some reply) :: trace.drop 9 := by decide +kernel
  have latest : (trace.take 8).latest Event.request = some
      (createPacket .little (getNtpTimeOfDay QueriedServer.noon), ⟨31488, QueriedServer.queriedAddr⟩) := by
    decide +kernel
  exact released.mpr (.inr ⟨_, _, _, arrives, Nat.zero_le _, _, reply, rfl, _, latest,
    by decide +kernel⟩)

/-- A host that cannot resolve the address of its server. -/
def unresolvedEnv : Env :=
  { Env.benign (fun _ => ⟨0, 0⟩) (fun _ => none) with gethostbyaddr := fun _ _ => none }

def unresolvedRun : EStateM.Result Stop World ℤ :=
  unicastMode unresolvedEnv (.defaults (.text (dotted QueriedServer.queriedAddr)) 0) 1
    ⟨[], ⟨0, 0, default⟩, []⟩

/-- A call whose lookup fails leaves its socket open. -/
theorem unresolvedRun_leaks : unresolvedRun = .ok 2 (finalWorld unresolvedRun) ∧
    FreshSockets standardStreams (finalWorld unresolvedRun) ∧
    openSockets standardStreams (finalWorld unresolvedRun) ≠
      openSockets standardStreams ⟨[], ⟨0, 0, default⟩, []⟩ := by
  refine ⟨eq_ok_of_returnValue (by decide +kernel), ?_, by decide +kernel⟩
  exact freshSockets_of_first (by decide +kernel) (by decide +kernel)

end Sntp.OpenSockets
