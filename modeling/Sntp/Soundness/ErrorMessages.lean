import Sntp.Model.ClientMain
import Sntp.Proofs.MainSteps
import Sntp.Proofs.TraceGrowth
import Sntp.Soundness.RetryLoop

/-! # Error messages say what happened

The client reports a failure by a code, and `print_error_message` turns it into a line. In every run each
line it prints names the failure that precedes it: the call that was refused, a discovery without one
approved reply, or a call of `unicast_mode` that has used up its retries and nothing less. The line for an
unknown code is never printed.
-/

namespace Sntp.ErrorMessages

open Machine RetryLoop

/-- The code of an error message. -/
def complaint : Event → Option ℤ
  | .errorMessage code => some code
  | _ => none

/-- An event of the retries of one call, after its socket. -/
def OfCall : Event → Prop
  | .socket _ | .serverResults _ _ _ _ _ _ | .errorMessage _ | .usingServer _ | .statistics _ _
  | .noSamples => False
  | _ => True

/-- What happened before an error message with the given line. -/
inductive Names (host : ByteOrder) (retries : ℤ) : List Event → Text → Prop
  | notFound {before : List Event} {lookup : Event} : lookup.FindsNothing →
      Names host retries (before ++ [lookup]) "error - server not found\n".toList
  | noSocket {before : List Event} :
      Names host retries (before ++ [.socket (-1)]) "error - failed to create socket\n".toList
  | retriesHit {before call : List Event} {sockfd : ℤ} : (∀ event ∈ call, OfCall event) →
      (requests call : ℤ) = max 0 retries →
      Names host retries (before ++ .socket sockfd :: call) "error - max number of retries hit\n".toList
  | unsent {before : List Event} {sockfd : ℤ} {pkt : NtpPacket} {addr : SockaddrIn} :
      Names host retries (before ++ [.sendto sockfd pkt addr false])
        "error - sending manycast request packet\n".toList
  | noServers {before gathered : List Event} {sockfd : ℤ} {request : NtpPacket} {addr : SockaddrIn} :
      (∀ event ∈ gathered, event.request = none) →
      (∀ datagram ∈ gathered.filterMap Event.datagram,
        runSanityChecks request (datagram.packet host) ≠ 0) →
      Names host retries (before ++ .sendto sockfd request addr true :: gathered)
        "error - no servers found from manycast query\n".toList
  | unlimited {before : List Event} {sockfd : ℤ} :
      Names host retries (before ++ [.setsockopt sockfd (.multicastTtl 55) false])
        "error - cant set ttl for manycast request\n".toList
  | untimed {before : List Event} {sockfd : ℤ} {time : Timeval} :
      Names host retries (before ++ [.setsockopt sockfd (.receiveTimeout time) false])
        "error - cant set recv timeout for socket\n".toList

variable {env : Env} {cSet : ClientSettings} {world : World}

/-- From one world to another without an error message. -/
abbrev Mute (world final : World) : Prop := Adds (fun event => complaint event = none) world final

private theorem complaint_of_not_prints {event : Event} (silent : ¬ event.Prints) :
    complaint event = none := by
  cases event <;> first | rfl | exact absurd trivial silent

private theorem mute_of_opened {sockfd : ℤ} {final : World} (opened : Opened env world sockfd final) :
    Mute world final :=
  opened.setUp.works.mono fun _ => complaint_of_not_prints

/-- The world of a call of `unicast_mode` that has made some requests since it opened its socket. -/
def Calling (world : World) (sockfd : ℤ) (count : ℕ) (state : World) : Prop :=
  ∃ call : List Event, (∀ event ∈ call, OfCall event) ∧ requests call = count ∧
    state.trace = world.trace ++ .socket sockfd :: call

/-- Events of the call are added to it. -/
private theorem Calling.append {sockfd : ℤ} {count : ℕ} {state final : World} {events : List Event}
    (calling : Calling world sockfd count state) (all : ∀ event ∈ events, OfCall event)
    (trace : final.trace = state.trace ++ events) :
    Calling world sockfd (count + requests events) final := by
  obtain ⟨call, before, rfl, old⟩ := calling
  refine ⟨call ++ events, List.forall_mem_append.mpr ⟨before, all⟩, ?_, by simp [trace, old]⟩
  rw [requests, List.filterMap_append, List.length_append, requests, requests]

private theorem Calling.log {sockfd : ℤ} {count : ℕ} {state : World} {event : Event}
    (calling : Calling world sockfd count state) (ofCall : OfCall event) (quiet : event.request = none) :
    Calling world sockfd count (state.log event) := by
  have longer := calling.append (List.forall_mem_singleton.mpr ofCall) (World.trace_log ..)
  rwa [requests, List.filterMap_cons_none quiet] at longer

private theorem Calling.mute {sockfd : ℤ} {count : ℕ} {state : World}
    (calling : Calling world sockfd count state) : Mute world state := by
  obtain ⟨call, all, -, trace⟩ := calling
  refine ⟨.socket sockfd :: call, List.forall_mem_cons.mpr ⟨rfl, fun event member => ?_⟩, trace⟩
  have ofCall := all event member
  cases event <;> first | rfl | exact ofCall.elim

/-- Asking sends one request. -/
private theorem Calling.asked {sockfd pollWait : ℤ} {count : ℕ} {state asked : World} {addr : SockaddrIn}
    {success : Bool} {request : NtpPacket} (calling : Calling world sockfd count state)
    (step : Asked env pollWait sockfd addr success state request asked) :
    Calling world sockfd (count + 1) asked := by
  obtain ⟨readings, timer, trace⟩ := step.trace_eq
  rw [List.append_assoc, List.append_assoc] at trace
  have longer := calling.append (by simp [or_imp, forall_and, OfCall]) trace
  have one : requests (readings.map Event.gettimeofday ++ ([.pollTimer timer] ++
      [.sendto sockfd request addr success])) = 1 := by
    rw [requests, List.filterMap_append, List.filterMap_map]
    simp only [Function.comp_def, Event.request, List.filterMap_none, List.nil_append]
    rfl
  rwa [one] at longer

private theorem Calling.answered {sockfd : ℤ} {count : ℕ} {state : World} {addr : SockaddrIn}
    {datagram : Datagram} {replyLast : Bool} (calling : Calling world sockfd count state) :
    Calling world sockfd count (state.answer env sockfd addr datagram replyLast) := by
  have arrived : Calling world sockfd count (state.arrive sockfd datagram) := calling.log trivial rfl
  have read : Calling world sockfd count ((state.arrive sockfd datagram).tick env) :=
    arrived.log trivial rfl
  exact read.log trivial rfl

/-- The head of the retry loop: as long as the counter does not wrap, it counts the requests. -/
private def AtHead (world : World) (retries sockfd : ℤ) (retryCount : ℤ) (state : World) : Prop :=
  retryCount ≤ 2 ^ 31 - 1 ∧ ∃ count : ℕ, Calling world sockfd count state ∧
    (retries < 2 ^ 31 - 1 → retryCount = count + 1 ∧ (count : ℤ) ≤ max 0 retries)

/-- A turn that makes an attempt counts it. -/
private theorem AtHead.next {retries sockfd retryCount : ℤ} {state final : World}
    (head : AtHead world retries sockfd retryCount state) (open_ : retryCount ≤ retries)
    (once : ∀ count, Calling world sockfd count state → Calling world sockfd (count + 1) final) :
    AtHead world retries sockfd (toInt (retryCount + 1)) final := by
  obtain ⟨bound, count, calling, counted⟩ := head
  have range : toInt (retryCount + 1) ≤ 2 ^ 31 - 1 := by
    rw [toInt, Int.bmod_def]
    omega
  refine ⟨range, count + 1, once count calling, fun limit => ?_⟩
  obtain ⟨rfl, small⟩ := counted limit
  have exact_ : toInt (count + 1 + 1) = count + 1 + 1 := by
    rw [toInt, Int.bmod_def]
    omega
  exact ⟨by rw [exact_]; norm_num, by push_cast; omega⟩

private theorem Calling.tick {sockfd : ℤ} {count : ℕ} {state : World}
    (calling : Calling world sockfd count state) : Calling world sockfd count (state.tick env) :=
  calling.log trivial rfl

/-- A retry that is left does not end the loop without a reply. -/
private theorem wp_attempt_open {sockfd : ℤ} {userver : HostInfo} {retryCount : ℤ} {state : World}
    (open_ : retryCount ≤ cSet.maxUnicastRetries) (fuel : ℕ) :
    Wp (attempt env cSet fuel sockfd userver retryCount) (fun next _ => next ≠ .inr none)
      (fun _ _ => True) state := by
  rw [attempt, if_neg (not_lt.mpr open_), wp_bind]
  apply wp_mustWait
  · simp
  intro rested _
  simp only [Bool.false_eq_true, ↓reduceIte, wp_bind, wp_createRequest, wp_gettimeofday, wp_modify,
    wp_sendSntpPacket]
  split
  · rw [if_neg (not_not.mpr rfl), wp_bind]
    refine (wp_self _).mono ?_ fun _ _ _ => trivial
    rintro (_ | received) final -
    · simp
    · rw [wp_ite]
      exact ⟨fun _ => by simp [remainingTime], fun _ => by simp⟩
  · simp [remainingTime]

/-- A turn of the retry loop stays in the call, and when it finds the retries used up they are. -/
private theorem AtHead.attempt {sockfd : ℤ} {userver : HostInfo} {retryCount : ℤ} {state : World}
    (head : AtHead world cSet.maxUnicastRetries sockfd retryCount state) (fuel : ℕ) :
    Wp (attempt env cSet fuel sockfd userver retryCount)
      (Sum.elim (fun next final => AtHead world cSet.maxUnicastRetries sockfd next final)
        fun answer final => Mute world final ∧ (answer = none →
          Names env.host cSet.maxUnicastRetries final.trace (printErrorMessage 4)))
      (fun _ final => Mute world final) state := by
  rcases lt_or_ge cSet.maxUnicastRetries retryCount with used | open_
  · rw [wp_of_ok (attempt_exhausted used)]
    obtain ⟨bound, count, calling, counted⟩ := head
    obtain ⟨rfl, small⟩ := counted (by omega)
    refine ⟨calling.mute, fun _ => ?_⟩
    obtain ⟨call, all, rfl, trace⟩ := calling
    rw [trace]
    exact .retriesHit all (by omega)
  obtain ⟨_, _, calling, _⟩ := id head
  refine ((wp_attempt fuel retryCount).and (wp_attempt_open open_ fuel)).mono ?_ ?_
  · rintro next final ⟨step, goes⟩
    cases step with
    | exhausted => exact absurd rfl goes
    | waiting =>
      obtain ⟨bound, count, calling, counted⟩ := head
      exact ⟨bound, count, calling.tick, counted⟩
    | unsent asked => exact head.next open_ fun count calling => (calling.asked asked).tick
    | unanswered asked =>
      refine head.next open_ fun count calling => Calling.tick ?_
      exact (calling.asked asked).log trivial rfl
    | rejected _ _ asked =>
      exact head.next open_ fun count calling => (calling.asked asked).answered.tick
    | accepted _ _ asked => exact ⟨(calling.asked asked).answered.mute, by simp⟩
  · rintro stop final ⟨step, -⟩
    cases step with
    | unfinished asked => exact (calling.asked asked).mute
    | overrun datagram asked =>
      have arrived : Calling world sockfd _ (World.arrive sockfd datagram _) :=
        (calling.asked asked).log trivial rfl
      exact arrived.mute

private theorem Calling.of_opened {sockfd : ℤ} {final : World}
    (opened : Opened env world sockfd final) : Calling world sockfd 0 final := by
  induction opened with
  | socket => exact ⟨[], by simp, rfl, rfl⟩
  | @log final event _ prepares ih =>
    refine ih.log ?_ prepares.setsUp.request_eq_none
    cases event <;> trivial

/-- A call of `unicast_mode` prints no error message, and its code names what happened. -/
theorem wp_unicastMode_named (fuel : ℕ) :
    Wp (unicastMode env cSet fuel)
      (fun code final => Mute world final ∧ (code ≠ 0 →
        Names env.host cSet.maxUnicastRetries final.trace (printErrorMessage code)))
      (fun _ final => Mute world final) world := by
  apply wp_unicastMode_codes
  · intro _
    exact ⟨(Adds.refl world).log rfl, fun _ => .noSocket⟩
  · intro sockfd time _ opened
    exact ⟨(mute_of_opened opened).log rfl, fun _ => .untimed⟩
  · intro sockfd ready lookup nothing _ opened
    exact ⟨(mute_of_opened opened).log (complaint_of_not_prints nothing.prepares.setsUp.not_prints),
      fun _ => .notFound nothing⟩
  intro sockfd userver ready _ opened _
  have begins : Calling world sockfd 0 (ready.setTimer (unsetTimer ready.vars.pollTimer)) :=
    (Calling.of_opened opened).log trivial rfl
  refine wp_loop (fun retryCount state => AtHead world cSet.maxUnicastRetries sockfd retryCount state)
    ?_ ?_ fuel 1 ⟨by norm_num, 0, begins, fun _ => ⟨rfl, le_max_left ..⟩⟩
  · intro retryCount state head
    refine (head.attempt fuel).mono ?_ fun _ _ mute => mute
    rintro (next | none | received) final outcome
    · exact outcome
    · exact ⟨outcome.1, fun _ => outcome.2 rfl⟩
    · obtain ⟨_, _, _, _, _, trace⟩ := World.trace_sample env sockfd final userver received
      obtain ⟨events, all, before⟩ := outcome.1
      refine ⟨⟨events ++ [_] ++ [_], ?_, by rw [trace, before, ← List.append_assoc, ← List.append_assoc]⟩,
        fun nonzero => absurd rfl nonzero⟩
      exact List.forall_mem_append.mpr ⟨List.forall_mem_append.mpr
        ⟨all, List.forall_mem_singleton.mpr rfl⟩, List.forall_mem_singleton.mpr rfl⟩
  · rintro retryCount state ⟨_, count, calling, _⟩
    exact calling.mute

/-- Discovery with no approved reply yet has rejected every datagram since its request. -/
private def Rejecting (host : ByteOrder) (world : World) (request : NtpPacket) (table : ServerTable)
    (state : World) : Prop :=
  Mute world state ∧ ∃ before sockfd addr gathered,
    state.trace = before ++ .sendto sockfd request addr true :: gathered ∧
    (∀ event ∈ gathered, event.request = none) ∧
    (table.sCount = 0 → ∀ datagram ∈ gathered.filterMap Event.datagram,
      runSanityChecks request (datagram.packet host) ≠ 0)

private theorem Rejecting.log {host : ByteOrder} {request : NtpPacket} {table : ServerTable}
    {state : World} (rejecting : Rejecting host world request table state) {event : Event}
    (quiet : complaint event = none) (unasked : event.request = none)
    (rejected : table.sCount = 0 → ∀ datagram,
      event.datagram = some datagram → runSanityChecks request (datagram.packet host) ≠ 0) :
    Rejecting host world request table (state.log event) := by
  obtain ⟨mute, before, sockfd, addr, gathered, trace, silent, rejects⟩ := rejecting
  refine ⟨mute.log quiet, before, sockfd, addr, gathered ++ [event], by simp [trace],
    List.forall_mem_append.mpr ⟨silent, List.forall_mem_singleton.mpr unasked⟩, ?_⟩
  intro none datagram member
  rw [List.filterMap_append, List.mem_append] at member
  rcases member with old | new
  · exact rejects none datagram old
  · obtain ⟨other, same, selected⟩ := List.mem_filterMap.mp new
    rw [List.mem_singleton.mp same] at selected
    exact rejected none datagram selected

private theorem Rejecting.tick {host : ByteOrder} {request : NtpPacket} {table : ServerTable}
    {state : World} (rejecting : Rejecting host world request table state) :
    Rejecting host world request table (state.tick env) :=
  rejecting.log rfl rfl (by simp [Event.datagram])

/-- Once a reply is approved nothing more is said of the others. -/
private theorem Rejecting.approve {host : ByteOrder} {request : NtpPacket} {table : ServerTable}
    {state : World} (rejecting : Rejecting host world request table state) :
    Rejecting host world request table.approve state := by
  obtain ⟨mute, before, sockfd, addr, gathered, trace, silent, -⟩ := rejecting
  exact ⟨mute, before, sockfd, addr, gathered, trace, silent, fun none => absurd none (Nat.succ_ne_zero _)⟩

/-- A datagram that is not approved has failed the checks. -/
private theorem Rejecting.gather {sockfd : ℤ} {request : NtpPacket} {table : ServerTable}
    {state : World} (rejecting : Rejecting env.host world request table state) (datagram : Datagram)
    (rejected : table.sCount = 0 → runSanityChecks request (datagram.packet env.host) ≠ 0) :
    Rejecting env.host world request table (state.gather env sockfd datagram) := by
  have ticked : Rejecting env.host world request table (state.tick env) := rejecting.tick
  have arrived : Rejecting env.host world request table ((state.tick env).arrive sockfd datagram) :=
    ticked.log rfl rfl fun none _ same => Option.some.inj same ▸ rejected none
  exact (arrived.tick : Rejecting env.host world request table _)

/-- A turn of the gathering loop. -/
private theorem Rejecting.collect {sockfd : ℤ} {request : NtpPacket} {timer : Timeval}
    {table : ServerTable} {state : World}
    (rejecting : Rejecting env.host world request table state) :
    Wp (collect env cSet sockfd request timer table)
      (Sum.elim (Rejecting env.host world request) (Rejecting env.host world request))
      (fun _ final => Mute world final) state := by
  have ticked : Rejecting env.host world request table (state.tick env) := rejecting.tick
  refine (wp_collect sockfd request timer table).mono ?_ ?_
  · intro next final step
    cases step with
    | finished => exact ticked
    | silent => exact ticked.log rfl rfl (by simp [Event.datagram])
    | discarded datagram _ fails => exact rejecting.gather datagram fun _ => fails
    | approved datagram =>
      exact rejecting.approve.gather datagram fun none => absurd none (Nat.succ_ne_zero _)
  · intro stop final step
    cases step with
    | overrun datagram => exact ticked.1.log rfl
    | full datagram =>
      exact (rejecting.approve.gather datagram fun none => absurd none (Nat.succ_ne_zero _)).1

/-- A discovery prints no error message, and its code names what happened. -/
theorem wp_discover_named (fuel : ℕ) (ntpServers : ℕ → CharPtr) (retries : ℤ) :
    Wp (discoverUnicastServersWithManycast env cSet fuel ntpServers)
      (fun returned final => Mute world final ∧ (returned.1 ≠ 0 →
        Names env.host retries final.trace (printErrorMessage returned.1)))
      (fun _ final => Mute world final) world := by
  apply wp_discover_codes
  · intro _
    exact ⟨(Adds.refl world).log rfl, fun _ => .noSocket⟩
  · intro sockfd time opened
    exact ⟨(mute_of_opened opened).log rfl, fun _ => .untimed⟩
  · intro sockfd ready lookup nothing opened
    exact ⟨(mute_of_opened opened).log (complaint_of_not_prints nothing.prepares.setsUp.not_prints),
      fun _ => .notFound nothing⟩
  · intro sockfd ready opened
    exact ⟨(mute_of_opened opened).log rfl, fun _ => .unlimited⟩
  · intro ready sockfd he opened _
    have ticked : Mute world (ready.tick env) := (mute_of_opened opened).log rfl
    exact ⟨ticked.log rfl, fun _ => .unsent⟩
  intro ready sockfd he opened _ sent
  have begins : Rejecting env.host world (ready.request env) ⟨ntpServers, 0⟩ (sent.tick env) := by
    have ticked : Mute world (ready.tick env) := (mute_of_opened opened).log rfl
    exact .tick ⟨ticked.log rfl, _, sockfd, _, [], World.trace_search .., by simp, by simp⟩
  refine wp_loop (Rejecting env.host world (ready.request env)) ?_ ?_ fuel _ begins
  · intro table state rejecting
    refine rejecting.collect.mono ?_ fun _ _ mute => mute
    rintro (next | table) final rejecting
    · exact rejecting
    obtain ⟨mute, before, sockfd, addr, gathered, trace, silent, rejects⟩ := rejecting
    simp only [Sum.elim_inr]
    split
    · next empty =>
      refine ⟨mute, fun _ => ?_⟩
      rw [trace]
      exact .noServers silent (rejects empty)
    · exact ⟨mute.log rfl, fun nonzero => absurd rfl nonzero⟩
  · exact fun table state rejecting => rejecting.1

/-- Each error message so far names what happened before it. -/
def Named (env : Env) (retries : ℤ) (state : World) : Prop :=
  state.trace.EachAfter fun before event => ∀ code, complaint event = some code →
    Names env.host retries before (printErrorMessage code)

private theorem concerns_complaint {host : ByteOrder} {retries : ℤ} :
    List.Concerns complaint fun before event => ∀ code, complaint event = some code →
      Names host retries before (printErrorMessage code) :=
  fun _ _ quiet _ printed => absurd (quiet.symm.trans printed) (by simp)

private theorem Named.mute {retries : ℤ} {final : World} (named : Named env retries world)
    (mute : Mute world final) : Named env retries final :=
  mute.eachAfter concerns_complaint (fun _ => id) named

private theorem Named.log {retries : ℤ} {event : Event} (named : Named env retries world)
    (quiet : complaint event = none) : Named env retries (world.log event) :=
  List.EachAfter.concat_of_none named concerns_complaint quiet

private theorem Named.complain {retries code : ℤ} (named : Named env retries world)
    (names : Names env.host retries world.trace (printErrorMessage code)) :
    Named env retries (world.log (.errorMessage code)) :=
  List.eachAfter_concat.mpr ⟨named, fun _ printed => Option.some.inj printed ▸ names⟩

/-- Taking a sample names its failure. -/
private theorem Named.takeSample (named : Named env cSet.maxUnicastRetries world) (fuel : ℕ) :
    Wp (takeSample env cSet fuel) (fun _ final => Named env cSet.maxUnicastRetries final)
      (fun _ final => Named env cSet.maxUnicastRetries final) world := by
  rw [Sntp.takeSample, wp_bind]
  refine (wp_unicastMode_named fuel).mono ?_ fun _ _ mute => named.mute mute
  rintro code final ⟨mute, names⟩
  by_cases failure : code = 0
  · simpa [failure] using named.mute mute
  · simpa [failure] using (named.mute mute).complain (names failure)

private theorem Named.waitPoll {retries : ℤ} (named : Named env retries world) (counter : ℤ) (fuel : ℕ) :
    Wp (loop .outOfFuel (waitPoll env cSet counter) fuel ())
      (fun _ final => Named env retries final) (fun _ final => Named env retries final) world := by
  refine wp_loop (fun _ => Named env retries) ?_ ?_ fuel () named
  swap
  · exact fun _ _ named => named
  intro _ state named
  have ticked : Named env retries (state.tick env) := named.log rfl
  rw [Sntp.waitPoll, wp_ite]
  refine ⟨fun _ => ?_, fun _ => named⟩
  simp only [wp_bind, wp_get, wp_elapsedTime, wp_ite, wp_pure, Sum.elim_inl, Sum.elim_inr]
  exact ⟨fun _ => ticked, fun _ => ticked⟩

private theorem Named.repeatSample (named : Named env cSet.maxUnicastRetries world)
    (fuel : ℕ) (locals : ℤ × MainLocals) :
    Wp (repeatSample env cSet fuel locals)
      (fun _ final => Named env cSet.maxUnicastRetries final)
      (fun _ final => Named env cSet.maxUnicastRetries final) world := by
  rw [Sntp.repeatSample, wp_ite]
  refine ⟨fun _ => ?_, fun _ => named⟩
  rw [wp_bind]
  refine (named.waitPoll _ fuel).mono ?_ fun _ _ stopped => stopped
  intro _ ready named
  rw [wp_bind]
  refine (named.takeSample fuel).mono ?_ fun _ _ stopped => stopped
  intro code final named
  rw [wp_ite]
  exact ⟨fun _ => named, fun _ => named⟩

/-- Choosing the server names the failure of discovery. -/
private theorem Named.chooseServer {retries : ℤ} (named : Named env retries world) (fuel : ℕ)
    (ntpServers : ℕ → CharPtr) :
    Wp (chooseServer env fuel cSet ntpServers)
      (fun settings final => settings.maxUnicastRetries = cSet.maxUnicastRetries ∧
        Named env retries final)
      (fun _ final => Named env retries final) world := by
  rw [Sntp.chooseServer, wp_ite]
  refine ⟨fun _ => ?_, fun _ => ⟨rfl, named⟩⟩
  rw [wp_bind]
  refine (wp_discover_named fuel ntpServers retries).mono ?_ fun _ _ mute => named.mute mute
  rintro ⟨exitCode, table⟩ final ⟨mute, names⟩
  rw [wp_ite]
  exact ⟨fun _ => ⟨rfl, (named.mute mute).log rfl⟩, fun failure => (named.mute mute).complain (names failure)⟩

/-- In every run of the client each error message names what happened before it. -/
theorem clientMain_names (env : Env) (cSet : ClientSettings) (fuel : ℕ) (ntpServers : ℕ → CharPtr)
    (offsetTotal errorBoundTotal : ℚ) (ntoa : Text) (vars : SampleVars) :
    (finalWorld (clientMain env fuel cSet ntpServers offsetTotal errorBoundTotal
      ⟨ntoa, vars, []⟩)).trace.EachAfter fun before event => ∀ code, event = .errorMessage code →
        Names env.host cSet.maxUnicastRetries before (printErrorMessage code) := by
  have start : Named env cSet.maxUnicastRetries ⟨ntoa, vars, []⟩ := List.eachAfter_nil _
  have run : Wp (clientMain env fuel cSet ntpServers offsetTotal errorBoundTotal)
      (fun _ final => Named env cSet.maxUnicastRetries final)
      (fun _ final => Named env cSet.maxUnicastRetries final) ⟨ntoa, vars, []⟩ := by
    rw [clientMain, wp_bind]
    refine (start.chooseServer fuel ntpServers).mono ?_ fun _ _ stopped => stopped
    rintro chosen ready ⟨same, named⟩
    rw [← same] at named ⊢
    rw [wp_ite]
    refine ⟨fun _ => ?_, fun _ => ?_⟩
    · rw [wp_bind]
      exact (named.takeSample fuel).mono (fun _ _ named => named) fun _ _ stopped => stopped
    · rw [wp_bind]
      refine wp_loop (fun _ => Named env chosen.maxUnicastRetries) ?_ ?_ fuel _ named
      swap
      · exact fun _ _ named => named
      intro locals state named
      refine (named.repeatSample fuel locals).mono ?_ fun _ _ stopped => stopped
      rintro (next | totals) final named
      · exact named
      · refine named.log ?_
        rw [MainLocals.statistics]
        split <;> rfl
  refine List.EachAfter.mono (finalWorld_of_wp run) fun before event names code printed => ?_
  exact names code (by rw [printed]; rfl)

end Sntp.ErrorMessages
