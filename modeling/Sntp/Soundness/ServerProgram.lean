import Sntp.Model.ServerMain
import Sntp.Soundness.Responder

/-! # The server program serves

A run of the server exits before it has received or sent anything, or it is a startup followed by the
turns of the memoryless responder on one socket, which the startup has bound to the configured port and,
if manycast is enabled, joined to the configured group. Which of the two it is depends on the answers to
the startup calls alone. Nothing is assumed of the datagrams: one that reaches past the request record
is the only way a served run stops before its fuel.
-/

namespace Sntp.ServerProgram

open Machine Responder

/-- What `print_debug` prints. -/
def debugLine (debug : ℤ) (message : Text) : List ServerEvent :=
  if debug ≠ 1 then []
  else [.stdout ("DEBUG: ".toList ++ message.take 4095 ++ "\n".toList)]

section Rules

variable {α : Type} {stopped : ServerStop → ServerWorld → Prop} {world : ServerWorld}

@[simp] theorem wp_recordServer {returned : Unit → ServerWorld → Prop} (event : ServerEvent) :
    Wp (recordServer event) returned stopped world ↔ returned () (world.log event) := Iff.rfl

@[simp] theorem wp_askServer {returned : α → ServerWorld → Prop} (answers : ℕ → α)
    (event : α → ServerEvent) :
    Wp (askServer answers event) returned stopped world ↔
      returned (answers world.trace.length) (world.log (event (answers world.trace.length))) := Iff.rfl

@[simp] theorem wp_updateServer {returned : Unit → ServerWorld → Prop} (change : ServerState → ServerState) :
    Wp (updateServer change) returned stopped world ↔
      returned () { world with state := change world.state } := Iff.rfl

@[simp] theorem wp_printDebug {returned : Unit → ServerWorld → Prop} (debug : ℤ) (message : Text) :
    Wp (printDebug debug message) returned stopped world ↔
      returned () { world with trace := world.trace ++ debugLine debug message } := by
  rw [printDebug, debugLine]
  split
  · rw [List.append_nil]
    exact wp_pure ()
  · exact Iff.rfl

@[simp] theorem trace_log (event : ServerEvent) :
    (world.log event).trace = world.trace ++ [event] := rfl

end Rules

/-- What the server says once it has sent a reply, or failed to. -/
def sendReport (debug : ℤ) (addr : SockaddrIn) (success : Bool) : List ServerEvent :=
  if success then
    debugLine debug ("sent ".toList ++ Nat.toDigits 10 sizeofNtpPacket ++ " bytes to ".toList ++
        dotted addr.sinAddr) ++
      [.stdout ("succesffuly sent reply packet to ".toList ++ dotted addr.sinAddr ++ "\n".toList)]
  else debugLine debug "error with sending packet".toList

/-- The events of answering a datagram. -/
def answerEvents (host : ByteOrder) (sockfd debug : ℤ) (datagram : Datagram)
    (arrival transmit : Timeval) (success : Bool) : List ServerEvent :=
  match respond host (.datagram datagram arrival transmit) with
  | some (addr, pkt) =>
    [.gettimeofday transmit, .sendto sockfd pkt addr success] ++ sendReport debug addr success
  | none =>
    debugLine debug (checkFailure (request host datagram arrival)) ++
      [.stderr ("packet check failed, ignoring request for ".toList ++
        dotted datagram.source.sinAddr ++ "\n".toList)]

/-- The events of one turn, from the receive event and the outcome of a `sendto` alone. -/
def turnEvents (host : ByteOrder) (sockfd debug : ℤ) : ServerInput × Bool → List ServerEvent
  | (.failure, _) =>
    [.recvfrom sockfd none] ++ debugLine debug "socket recv timeout".toList ++
      [.stderr "error while listening for requests\n".toList]
  | (.datagram datagram arrival transmit, success) =>
    [.recvfrom sockfd (some datagram)] ++ [.gettimeofday arrival] ++
      debugLine debug ("got packet from ".toList ++ dotted datagram.source.sinAddr) ++
      [.stdout ("recieved a packet from ".toList ++ dotted datagram.source.sinAddr ++ "\n".toList)] ++
      answerEvents host sockfd debug datagram arrival transmit success

variable {env : ServerEnv} {world : ServerWorld} {stopped : ServerStop → ServerWorld → Prop}

/-- The request record once a datagram has been received into it. -/
def received (state : ServerState) (datagram : Datagram) (arrival : Timeval) : ServerState where
  client := datagram.source
  memory := (recieveSntpPacket state.memory 0 state.client state.requestTUnix
    (some (datagram, arrival))).memory
  requestTUnix := arrival

/-- Receiving fails, reaches past the record, or stores a datagram and the time of its arrival. -/
theorem wp_recieveOnServer (sockfd debug : ℤ) {returned : ℤ → ServerWorld → Prop}
    (failed : ∀ state, returned 1 ⟨state, world.trace ++ [.recvfrom sockfd none] ++
      debugLine debug "socket recv timeout".toList⟩)
    (overrun : ∀ datagram : Datagram, requestRoom < datagram.stored.length →
      stopped .overrun (world.log (.recvfrom sockfd (some datagram))))
    (stored : ∀ (datagram : Datagram) (arrival : Timeval),
      returned 0 ⟨received world.state datagram arrival, world.trace ++
        [.recvfrom sockfd (some datagram)] ++ [.gettimeofday arrival] ++
          debugLine debug ("got packet from ".toList ++ dotted datagram.source.sinAddr)⟩) :
    Wp (recieveOnServer env sockfd debug) returned stopped world := by
  rw [recieveOnServer, wp_bind, wp_get, wp_bind, wp_askServer]
  cases env.recvfrom world.trace.length with
  | none =>
    simp only [wp_bind, wp_updateServer, wp_printDebug, wp_pure]
    exact failed _
  | some datagram =>
    dsimp only
    rw [wp_ite]
    refine ⟨overrun datagram, fun _ => ?_⟩
    simp only [wp_bind, wp_askServer, wp_updateServer, wp_printDebug, wp_pure]
    exact stored datagram _

/-- A reply is sent, or fails to be, and the server says so. -/
theorem wp_sendOnServer (pkt : NtpPacket) (sockfd : ℤ) (addr : SockaddrIn) (debug : ℤ)
    {returned : Unit → ServerWorld → Prop}
    (sent : ∀ success, returned () ⟨world.state, world.trace ++ [.sendto sockfd pkt addr success] ++
      sendReport debug addr success⟩) :
    Wp (do
      if (← sendOnServer env pkt sockfd addr debug) = 0 then
        recordServer (.stdout ("succesffuly sent reply packet to ".toList ++ dotted addr.sinAddr ++
          "\n".toList))) returned stopped world := by
  rw [wp_bind, sendOnServer, wp_bind, wp_askServer]
  have report := sent (env.sendto world.trace.length)
  cases outcome : env.sendto world.trace.length with
  | false =>
    rw [outcome] at report
    simp only [↓reduceIte, wp_bind, wp_printDebug, wp_pure, one_ne_zero]
    exact report
  | true =>
    rw [outcome] at report
    simp only [Bool.true_eq_false, ↓reduceIte, wp_bind, wp_printDebug, wp_pure, wp_recordServer]
    simpa [sendReport, ServerWorld.log] using report

/-- A request is answered as the responder answers it. -/
theorem wp_answerRequest (sockfd debug : ℤ) (datagram : Datagram) (arrival : Timeval) :
    Wp (answerRequest env sockfd debug (request env.host datagram arrival))
      (fun _ final => ∃ transmit success, final.trace = world.trace ++
        answerEvents env.host sockfd debug datagram arrival transmit success)
      stopped world := by
  rw [answerRequest, wp_ite]
  refine ⟨fun rejected => ?_, fun accepted => ?_⟩
  · rw [wp_bind, wp_printDebug, wp_recordServer]
    refine ⟨default, true, ?_⟩
    rw [answerEvents, respond, if_neg rejected, ServerWorld.log, List.append_assoc]
    rfl
  · rw [wp_bind, wp_askServer]
    apply wp_sendOnServer
    intro success
    refine ⟨env.clock world.trace.length, success, ?_⟩
    rw [answerEvents, respond, if_pos (not_not.mp accepted)]
    simp [ServerWorld.log, request]

/-- One turn of the loop is a turn of the responder, or a datagram reaches past the record. -/
theorem wp_serveRequest (sockfd debug : ℤ) :
    Wp (serveRequest env sockfd debug ())
      (fun _ final => ∃ turn, final.trace = world.trace ++ turnEvents env.host sockfd debug turn)
      (fun stop final => stop = .overrun ∧ ∃ datagram : Datagram, requestRoom < datagram.stored.length ∧
        final.trace = world.trace ++ [.recvfrom sockfd (some datagram)]) world := by
  rw [serveRequest, wp_bind]
  apply wp_recieveOnServer
  · intro state
    exact ⟨(.failure, true), by simp [turnEvents, ServerWorld.log]⟩
  · exact fun datagram long => ⟨rfl, datagram, long, rfl⟩
  intro datagram arrival
  have written : ServerState.clientReq env.host
      ⟨datagram.source, (received world.state datagram arrival).memory.write timeOfRequestOffset
          ((convertUnixTimeIntoNtpTime arrival).store env.host), arrival⟩ =
      request env.host datagram arrival :=
    clientReq_written env.host world.state datagram arrival
  rw [if_neg (not_not.mpr rfl), wp_bind, wp_get, wp_bind, wp_recordServer, wp_bind, wp_updateServer, wp_bind,
    wp_get, wp_bind]
  dsimp only [ServerWorld.log, received] at written ⊢
  rw [written]
  refine (wp_answerRequest sockfd debug datagram arrival).mono ?_ fun _ _ stop => stop
  rintro _ final ⟨transmit, success, trace⟩
  exact ⟨(.datagram datagram arrival transmit, success), by rw [trace, turnEvents]; simp⟩

/-- Where the turns of a loop end: the fuel is used up, or a datagram reaches past the record. -/
inductive Ends (host : ByteOrder) (sockfd debug : ℤ) (fuel : ℕ) (before : List ServerEvent) :
    ServerStop → List ServerEvent → Prop
  | outOfFuel (turns : List (ServerInput × Bool)) : turns.length = fuel →
      Ends host sockfd debug fuel before .outOfFuel
        (before ++ turns.flatMap (turnEvents host sockfd debug))
  | overrun (turns : List (ServerInput × Bool)) {datagram : Datagram} : turns.length < fuel →
      requestRoom < datagram.stored.length →
      Ends host sockfd debug fuel before .overrun
        (before ++ turns.flatMap (turnEvents host sockfd debug) ++ [.recvfrom sockfd (some datagram)])

/-- A turn before the others. -/
private theorem Ends.cons {host : ByteOrder} {sockfd debug : ℤ} {fuel : ℕ}
    {before trace : List ServerEvent} {stop : ServerStop} (turn : ServerInput × Bool)
    (ends : Ends host sockfd debug fuel (before ++ turnEvents host sockfd debug turn) stop trace) :
    Ends host sockfd debug (fuel + 1) before stop trace := by
  cases ends with
  | outOfFuel turns count =>
    rw [List.append_assoc, ← List.flatMap_cons]
    exact .outOfFuel _ (by rw [List.length_cons, count])
  | overrun turns count long =>
    rw [List.append_assoc before, ← List.flatMap_cons]
    exact .overrun _ (by rw [List.length_cons]; omega) long

/-- The loop does not return. -/
theorem wp_serving (sockfd debug : ℤ) (fuel : ℕ) :
    Wp (loop .outOfFuel (serveRequest env sockfd debug) fuel ()) (fun _ _ => False)
      (fun stop final => Ends env.host sockfd debug fuel world.trace stop final.trace) world := by
  induction fuel generalizing world with
  | zero =>
    have none : Ends env.host sockfd debug 0 world.trace .outOfFuel (world.trace ++ []) :=
      .outOfFuel [] rfl
    rwa [List.append_nil] at none
  | succ fuel ih =>
    rw [loop, wp_bind]
    refine (wp_serveRequest sockfd debug).mono ?_ ?_
    · rintro (_ | never) final ⟨turn, trace⟩
      · refine ih.mono (fun _ _ never => never) fun stop later ends => ?_
        rw [trace] at ends
        exact ends.cons turn
      · exact never.elim
    · rintro stop final ⟨rfl, datagram, long, trace⟩
      rw [trace]
      have last : Ends env.host sockfd debug (fuel + 1) world.trace .overrun
          (world.trace ++ [] ++ [.recvfrom sockfd (some datagram)]) :=
        .overrun [] (Nat.succ_pos fuel) long
      rwa [List.append_nil] at last

/-- The startup calls succeed. -/
def StartsUp (env : ServerEnv) (sSet : ServerSettings) (index : ℕ) : Prop :=
  env.socket index ≠ -1 ∧ env.setsockopt (index + 1) = true ∧ env.bind (index + 2) = true ∧
    (sSet.manycastEnabled ≠ 0 → env.setsockopt (index + 3) = true)

/-- The calls that open and bind a socket. -/
def opening (host : ByteOrder) (port sockfd : ℤ) : List ServerEvent :=
  [.socket sockfd, .reuseAddr sockfd true,
    .bind sockfd ⟨htons host (UInt16.ofInt port), inaddrAny⟩ true]

/-- The calls of a startup that succeeds. -/
def startup (host : ByteOrder) (sSet : ServerSettings) (sockfd : ℤ) : List ServerEvent :=
  opening host sSet.serverPort sockfd ++
    if sSet.manycastEnabled ≠ 0 then
      [.addMembership sockfd (inetAddr sSet.manycastAddress) inaddrAny true]
    else []

/-- A datagram is received or sent. -/
def Serves : ServerEvent → Prop
  | .recvfrom _ _ | .sendto _ _ _ _ => True
  | _ => False

/-- A run of the server. -/
inductive ServerRun (env : ServerEnv) (file : ConfigFile) (fuel : ℕ) (before : List ServerEvent) :
    ServerStop → List ServerEvent → Prop
  | unconfigured {code : ℤ} : getServerSettings file = .error code →
      ServerRun env file fuel before (.exit code) before
  | refused {sSet : ServerSettings} {events : List ServerEvent} : getServerSettings file = .ok sSet →
      ¬ StartsUp env sSet before.length → (∀ event ∈ events, ¬ Serves event) →
      ServerRun env file fuel before (.exit 1) (before ++ events)
  | served {sSet : ServerSettings} {stop : ServerStop} {trace : List ServerEvent} :
      getServerSettings file = .ok sSet → StartsUp env sSet before.length →
      Ends env.host (env.socket before.length) sSet.debug fuel
        (before ++ startup env.host sSet (env.socket before.length)) stop trace →
      ServerRun env file fuel before stop trace

/-- From one world to another without serving. -/
def Quiet (world final : ServerWorld) : Prop :=
  ∃ events : List ServerEvent, (∀ event ∈ events, ¬ Serves event) ∧
    final.trace = world.trace ++ events

theorem Quiet.log {final : ServerWorld} (before : Quiet world final) {event : ServerEvent}
    (quiet : ¬ Serves event) : Quiet world (final.log event) := by
  obtain ⟨events, all, trace⟩ := before
  refine ⟨events ++ [event], fun other member => ?_, by rw [trace_log, trace, List.append_assoc]⟩
  rcases List.mem_append.mp member with old | new
  · exact all other old
  · rwa [List.mem_singleton.mp new]

theorem Quiet.debug {final : ServerWorld} (before : Quiet world final) (debug : ℤ) (message : Text) :
    Quiet world ⟨final.state, final.trace ++ debugLine debug message⟩ := by
  rw [debugLine]
  split
  · simpa using before
  · exact (before.log id : Quiet world (final.log (.stdout _)))

theorem Quiet.refl (world : ServerWorld) : Quiet world world := ⟨[], by simp, by simp⟩

theorem Quiet.trans {middle final : ServerWorld} (first : Quiet world middle)
    (second : Quiet middle final) : Quiet world final := by
  obtain ⟨events, all, trace⟩ := first
  obtain ⟨later, allLater, traceLater⟩ := second
  refine ⟨events ++ later, fun event member => ?_, by rw [traceLater, trace, List.append_assoc]⟩
  exact (List.mem_append.mp member).elim (all event) (allLater event)

theorem quiet_opening {host : ByteOrder} {port sockfd : ℤ} {state : ServerState} :
    Quiet world ⟨state, world.trace ++ opening host port sockfd⟩ :=
  ⟨opening host port sockfd, by simp [opening, Serves], rfl⟩

/-- The socket is opened and bound, or one of the calls is refused. -/
theorem wp_initialiseServer (port debug : ℤ) {returned : Except ℤ ℤ → ServerWorld → Prop}
    (refused : ∀ (code : ℤ) final, ¬ (env.socket world.trace.length ≠ -1 ∧
        env.setsockopt (world.trace.length + 1) = true ∧ env.bind (world.trace.length + 2) = true) →
      Quiet world final → returned (.error code) final)
    (opened : env.socket world.trace.length ≠ -1 → env.setsockopt (world.trace.length + 1) = true →
      env.bind (world.trace.length + 2) = true →
      returned (.ok (env.socket world.trace.length))
        ⟨world.state, world.trace ++ opening env.host port (env.socket world.trace.length)⟩) :
    Wp (initialiseServer env port debug) returned stopped world := by
  have asked (sockfd : ℤ) : Quiet world (world.log (.socket sockfd)) := (Quiet.refl world).log id
  rw [initialiseServer, wp_bind, wp_askServer]
  by_cases invalid : env.socket world.trace.length = -1
  · rw [if_pos invalid, wp_bind, wp_printDebug, wp_pure]
    exact refused 1 _ (fun calls => calls.1 invalid) ((asked _).debug ..)
  rw [if_neg invalid, wp_bind, wp_askServer]
  have second (event : ServerEvent) : (world.log event).trace.length = world.trace.length + 1 := by simp
  rw [second]
  cases reused : env.setsockopt (world.trace.length + 1) with
  | false =>
    rw [if_pos rfl, wp_bind, wp_printDebug, wp_pure]
    exact refused 1 _ (fun calls => Bool.false_ne_true (reused.symm.trans calls.2.1))
      (((asked _).log id).debug ..)
  | true =>
    have third (event next : ServerEvent) :
        ((world.log event).log next).trace.length = world.trace.length + 2 := by simp
    rw [if_neg Bool.true_eq_false.mp, wp_bind, wp_askServer, third]
    cases bound : env.bind (world.trace.length + 2) with
    | false =>
      rw [if_pos rfl, wp_bind, wp_printDebug, wp_pure]
      exact refused 1 _ (fun calls => Bool.false_ne_true (bound.symm.trans calls.2.2))
        ((((asked _).log id).log id).debug ..)
    | true =>
      rw [if_neg Bool.true_eq_false.mp, wp_pure]
      simpa [ServerWorld.log, opening] using opened invalid reused bound

/-- The socket joins the group, or is refused. -/
theorem wp_setupManycast (sockfd debug : ℤ) (manycastAddress : Text)
    {returned : ℤ → ServerWorld → Prop}
    (refused : ∀ final, env.setsockopt world.trace.length = false → Quiet world final → returned 1 final)
    (joined : env.setsockopt world.trace.length = true →
      returned 0 (world.log (.addMembership sockfd (inetAddr manycastAddress) inaddrAny true))) :
    Wp (setupManycast env sockfd manycastAddress debug) returned stopped world := by
  rw [setupManycast, wp_bind, wp_askServer]
  cases success : env.setsockopt world.trace.length with
  | false =>
    rw [if_pos rfl, wp_bind, wp_printDebug, wp_pure]
    exact refused _ success (((Quiet.refl world).log id).debug ..)
  | true =>
    rw [if_neg Bool.true_eq_false.mp, wp_pure]
    exact joined success

/-- With its settings the server is refused a startup call, or serves. -/
private theorem wp_serverMain_of_ok {file : ConfigFile} {sSet : ServerSettings} (fuel : ℕ)
    (settings : getServerSettings file = .ok sSet) :
    Wp (serverMain env file fuel) (fun _ _ => False)
      (fun stop final => ServerRun env file fuel world.trace stop final.trace) world := by
  have refused (final : ServerWorld) (fails : ¬ StartsUp env sSet world.trace.length)
      (quiet : Quiet world final) (message : Text) :
      ServerRun env file fuel world.trace (.exit 1) (final.log (.stderr message)).trace := by
    obtain ⟨events, all, trace⟩ : Quiet world (final.log (.stderr message)) := quiet.log id
    rw [trace]
    exact .refused settings fails all
  rw [serverMain, settings]
  dsimp only
  rw [wp_bind]
  apply wp_initialiseServer
  · intro _ final fails quiet
    exact refused final (fun starts => fails ⟨starts.1, starts.2.1, starts.2.2.1⟩) quiet _
  intro valid reused bound
  have serving (starts : StartsUp env sSet world.trace.length) {ready : ServerWorld}
      (started : ready.trace = world.trace ++ startup env.host sSet (env.socket world.trace.length)) :
      Wp (loop .outOfFuel (serveRequest env (env.socket world.trace.length) sSet.debug) fuel ())
        (fun _ _ => False)
        (fun stop final => ServerRun env file fuel world.trace stop final.trace) ready := by
    refine (wp_serving _ sSet.debug fuel).mono (fun _ _ never => never) fun stop final ends => ?_
    rw [started] at ends
    exact .served settings starts ends
  dsimp only
  rw [wp_ite]
  constructor
  · intro enabled
    rw [wp_bind]
    have fourth : (world.trace ++ opening env.host sSet.serverPort
        (env.socket world.trace.length)).length = world.trace.length + 3 := by simp [opening]
    apply wp_setupManycast
    · intro final fails quiet
      rw [fourth] at fails
      rw [if_pos one_ne_zero, wp_bind]
      refine refused final (fun starts => ?_) (quiet_opening.trans quiet) _
      exact Bool.false_ne_true (fails.symm.trans (starts.2.2.2 enabled))
    · intro joined
      rw [fourth] at joined
      rw [if_neg (not_not.mpr rfl)]
      refine serving ⟨valid, reused, bound, fun _ => joined⟩ ?_
      rw [startup, if_pos enabled, trace_log, List.append_assoc]
  · intro disabled
    refine serving ⟨valid, reused, bound, fun enabled => absurd enabled disabled⟩ ?_
    rw [startup, if_neg disabled, List.append_nil]

/-- The server exits on its settings, or is refused a startup call or serves with them. -/
theorem wp_serverMain {file : ConfigFile} (fuel : ℕ) :
    Wp (serverMain env file fuel) (fun _ _ => False)
      (fun stop final => ServerRun env file fuel world.trace stop final.trace) world := by
  cases settings : getServerSettings file with
  | error code =>
    rw [serverMain, settings]
    exact .unconfigured settings
  | ok sSet => exact wp_serverMain_of_ok fuel settings

/-- Every run of the server exits on its settings, or is a run with them. -/
theorem serverMain_runs (env : ServerEnv) (file : ConfigFile) (fuel : ℕ) (world : ServerWorld) :
    ∃ stop final, serverMain env file fuel world = .error stop final ∧
      ServerRun env file fuel world.trace stop final.trace := by
  have run : Wp (serverMain env file fuel) (fun _ _ => False)
      (fun stop final => ServerRun env file fuel world.trace stop final.trace) world := wp_serverMain fuel
  cases outcome : serverMain env file fuel world with
  | ok never final => exact (run.of_ok outcome).elim
  | error stop final => exact ⟨stop, final, rfl, run.of_error outcome⟩

section Received

variable {file : ConfigFile} {fuel : ℕ} {stop : ServerStop} {trace : List ServerEvent} {sockfd : ℤ}

/-- The events of a turn on a socket. -/
def OfTurn (sockfd : ℤ) : ServerEvent → Prop
  | .recvfrom other _ | .sendto other _ _ _ => other = sockfd
  | .gettimeofday _ | .stdout _ | .stderr _ => True
  | .socket _ | .reuseAddr _ _ | .bind _ _ _ | .addMembership _ _ _ _ => False

private theorem ofTurn_debugLine {debug : ℤ} {message : Text} :
    ∀ event ∈ debugLine debug message, OfTurn sockfd event := by
  rw [debugLine]
  split
  · simp
  · simp [OfTurn]

private theorem ofTurn_sendReport {debug : ℤ} {addr : SockaddrIn} {success : Bool} :
    ∀ event ∈ sendReport debug addr success, OfTurn sockfd event := by
  rw [sendReport]
  split
  · exact List.forall_mem_append.mpr ⟨ofTurn_debugLine, List.forall_mem_singleton.mpr trivial⟩
  · exact ofTurn_debugLine

private theorem ofTurn_answerEvents {host : ByteOrder} {debug : ℤ} {datagram : Datagram}
    {arrival transmit : Timeval} {success : Bool} :
    ∀ event ∈ answerEvents host sockfd debug datagram arrival transmit success,
      OfTurn sockfd event := by
  rw [answerEvents]
  split
  · refine List.forall_mem_append.mpr ⟨?_, ofTurn_sendReport⟩
    exact List.forall_mem_cons.mpr ⟨trivial, List.forall_mem_singleton.mpr rfl⟩
  · exact List.forall_mem_append.mpr ⟨ofTurn_debugLine, List.forall_mem_singleton.mpr trivial⟩

theorem ofTurn_turnEvents {host : ByteOrder} {debug : ℤ} (turn : ServerInput × Bool) :
    ∀ event ∈ turnEvents host sockfd debug turn, OfTurn sockfd event := by
  have one {event : ServerEvent} (ofTurn : OfTurn sockfd event) :
      ∀ other ∈ [event], OfTurn sockfd other := List.forall_mem_singleton.mpr ofTurn
  obtain ⟨_ | ⟨datagram, arrival, transmit⟩, success⟩ := turn
  · simp only [turnEvents, List.forall_mem_append]
    exact ⟨⟨one rfl, ofTurn_debugLine⟩, one trivial⟩
  · simp only [turnEvents, List.forall_mem_append]
    exact ⟨⟨⟨⟨one rfl, one trivial⟩, ofTurn_debugLine⟩, one trivial⟩, ofTurn_answerEvents⟩

/-- What comes after the startup of a server that serves. -/
private theorem ofTurn_of_ends {host : ByteOrder} {debug : ℤ} {before : List ServerEvent}
    (ends : Ends host sockfd debug fuel before stop trace) :
    ∃ events, trace = before ++ events ∧ ∀ event ∈ events, OfTurn sockfd event := by
  have turns (turns : List (ServerInput × Bool)) :
      ∀ event ∈ turns.flatMap (turnEvents host sockfd debug), OfTurn sockfd event := by
    intro event member
    obtain ⟨turn, -, inTurn⟩ := List.mem_flatMap.mp member
    exact ofTurn_turnEvents turn event inTurn
  cases ends with
  | outOfFuel => exact ⟨_, rfl, turns _⟩
  | overrun =>
    refine ⟨_, List.append_assoc .., fun event member => ?_⟩
    rcases List.mem_append.mp member with inTurn | last
    · exact turns _ event inTurn
    · rw [List.mem_singleton.mp last]
      rfl

private theorem not_serves_startup {host : ByteOrder} {sSet : ServerSettings} :
    ∀ event ∈ startup host sSet sockfd, ¬ Serves event := by
  rw [startup, opening]
  split
  · simp [Serves]
  · simp [Serves]

/-- A server receives once its startup is over. -/
theorem ServerRun.before_receive (run : ServerRun env file fuel [] stop trace) {sSet : ServerSettings}
    (settings : getServerSettings file = .ok sSet) {before after : List ServerEvent}
    {datagram : Option Datagram} (split : trace = before ++ .recvfrom sockfd datagram :: after) :
    ∃ events, before = startup env.host sSet sockfd ++ events ∧
      ∀ event ∈ events, OfTurn sockfd event := by
  cases run with
  | unconfigured => simp at split
  | @refused _ events _ _ quiet =>
    have member : .recvfrom sockfd datagram ∈ events := by
      rw [← List.nil_append events, split]
      simp
    exact absurd trivial (quiet _ member)
  | served same _ ends =>
    obtain rfl := Except.ok.inj (settings.symm.trans same)
    obtain ⟨events, rfl, ofTurn⟩ := ofTurn_of_ends ends
    rcases List.append_eq_append_iff.mp split with ⟨between, rfl, rest⟩ | ⟨between, started, rest⟩
    · obtain rfl : sockfd = env.socket 0 := ofTurn (.recvfrom sockfd datagram) (by rw [rest]; simp)
      refine ⟨between, rfl, fun event member => ofTurn event ?_⟩
      rw [rest]
      exact List.mem_append_left _ member
    · cases between with
      | nil =>
        obtain rfl : sockfd = env.socket 0 :=
          ofTurn (.recvfrom sockfd datagram) (by rw [← List.nil_append events, ← rest]; simp)
        exact ⟨[], by simpa using started.symm, by simp⟩
      | cons first between =>
        obtain ⟨rfl, -⟩ := List.cons.inj rest
        simp only [List.nil_append, List.length_nil] at started
        have member : .recvfrom sockfd datagram ∈ startup env.host sSet (env.socket 0) := by
          rw [started]
          simp
        exact absurd trivial (not_serves_startup _ member)

end Received

end Sntp.ServerProgram
