import Sntp.Machine.Program
import Sntp.Model.ClientPacket

/-! # The client and the outside

A run of the client is fixed by the answers it gets: clock readings, sockets, name lookups, the
outcome of every `sendto` and `recvfrom`, and the order in which the compiler evaluates the two
arguments of a comparison. Every answer is recorded as an event, and the answer to a call may
depend on everything before it, so the answers are indexed by the number of earlier events.

`inet_ntoa` formats into one static buffer, which is part of the world, and returns a pointer to
it. A pointer is therefore not the text it points to: it is read when the code reads it.
-/

namespace Sntp

open Machine

/-- A `char *` of the client: a text that nothing rewrites, or the buffer of `inet_ntoa`. -/
inductive CharPtr where
  | text (text : Text)
  | ntoaBuffer
deriving DecidableEq, Repr

/-- The `h_name` and the first `h_addr` of a `struct hostent`. -/
structure Hostent where
  hName : Text
  hAddr : InAddr
deriving DecidableEq, Repr

/-- `struct host_info`. -/
structure HostInfo where
  name : CharPtr
  addr : SockaddrIn
deriving DecidableEq, Repr

/-- `struct client_settings`. -/
structure ClientSettings where
  serverHost : CharPtr
  serverPort : ℤ
  debug : ℤ
  recvUniTimeout : ℤ
  maxUnicastRetries : ℤ
  pollWait : ℤ
  timedRepeatUpdatesEnabled : ℤ
  timedRepeatUpdatesLimit : ℤ
  manycastEnabled : ℤ
  manycastWaitTime : ℤ
  manycastAddress : Text
deriving DecidableEq, Repr

/-- The defaults of `get_client_settings`; it leaves the two arguments to the command line. -/
def ClientSettings.defaults (serverHost : CharPtr) (manycastEnabled : ℤ) : ClientSettings where
  serverHost := serverHost
  serverPort := 123
  debug := 0
  recvUniTimeout := 10
  maxUnicastRetries := 2
  pollWait := 15
  timedRepeatUpdatesEnabled := 0
  timedRepeatUpdatesLimit := 4
  manycastEnabled := manycastEnabled
  manycastWaitTime := 2
  manycastAddress := "224.0.1.1".toList

/-- The socket options the client sets. -/
inductive SocketOption where
  | receiveTimeout (time : Timeval)
  | multicastTtl (ttl : ℕ)
deriving DecidableEq, Repr

/-- What a run does and what it is answered, call by call. -/
inductive Event where
  | gettimeofday (now : Timeval)
  | socket (sockfd : ℤ)
  | setsockopt (sockfd : ℤ) (option : SocketOption) (success : Bool)
  | gethostbyaddr (ipaddr : InAddr) (he : Option Hostent)
  | gethostbyname (host : Text) (he : Option Hostent)
  | sendto (sockfd : ℤ) (pkt : NtpPacket) (addr : SockaddrIn) (success : Bool)
  | recvfrom (sockfd : ℤ) (datagram : Option Datagram)
  | close (sockfd : ℤ)
  /-- A comparison of two addresses, and whether the one of the reply was formatted last. -/
  | compare (sentAddr replyAddr : InAddr) (replyLast : Bool)
  /-- A value written through the pointer `poll_timer`. -/
  | pollTimer (time : Timeval)
  /-- The server that discovery leaves `main` with. -/
  | usingServer (host : Text)
  | serverResults (transmitTime : Timeval) (offset errorBound : ℚ) (name : Text) (address : InAddr)
      (stratum : UInt8)
  | errorMessage (code : ℤ)
  | statistics (offsetAvg errorBoundAvg : ℚ)
  | noSamples
deriving DecidableEq, Repr

/-- The host and its answers. -/
structure Env where
  host : ByteOrder
  clock : ℕ → Timeval
  socket : ℕ → ℤ
  setsockopt : ℕ → Bool
  gethostbyaddr : ℕ → InAddr → Option Hostent
  gethostbyname : ℕ → Text → Option Hostent
  sendto : ℕ → Bool
  recvfrom : ℕ → Option Datagram
  replyLast : ℕ → Bool

/-- A host whose calls succeed, which resolves addresses to themselves and formats the address of
a reply last. -/
def Env.benign (clock : ℕ → Timeval) (recvfrom : ℕ → Option Datagram) : Env where
  host := .little
  clock := clock
  socket := fun _ => 3
  setsockopt := fun _ => true
  gethostbyaddr := fun _ ipaddr => some ⟨dotted ipaddr, ipaddr⟩
  gethostbyname := fun _ _ => none
  sendto := fun _ => true
  recvfrom := recvfrom
  replyLast := fun _ => true

/-- The locals of `main` that `unicast_mode` is given pointers to. -/
structure SampleVars where
  offset : ℚ
  errorBound : ℚ
  pollTimer : Timeval
deriving DecidableEq, Repr

/-- What a run changes: the buffer of `inet_ntoa`, the variables behind the pointers, and the
events so far, oldest first. -/
structure World where
  ntoa : Text
  vars : SampleVars
  trace : List Event
deriving DecidableEq, Repr

/-- Why a run stops before its end. `overrun` is a write past the end of a variable, which the
language leaves undefined. -/
inductive Stop where
  | outOfFuel
  | overrun
  | exit (code : ℤ)
deriving DecidableEq, Repr

abbrev ClientM := EStateM Stop World

/-- The world a run leaves, however it ends. -/
def finalWorld {α : Type} : EStateM.Result Stop World α → World
  | .ok _ world => world
  | .error _ world => world

/-- The value a run returns, unless it stops. -/
def returnValue {α : Type} : EStateM.Result Stop World α → Option α
  | .ok value _ => some value
  | .error _ _ => none

theorem eq_ok_of_returnValue {α : Type} {result : EStateM.Result Stop World α} {value : α}
    (returned : returnValue result = some value) : result = .ok value (finalWorld result) := by
  cases result with
  | ok other world => exact congrArg (EStateM.Result.ok · world) (Option.some.inj returned)
  | error stop world => simp [returnValue] at returned

/-- What a program leaves however it ends holds of the world of its run. -/
theorem finalWorld_of_wp {α : Type} {program : ClientM α} {holds : World → Prop} {world : World}
    (run : Wp program (fun _ => holds) (fun _ => holds) world) : holds (finalWorld (program world)) := by
  cases outcome : program world with
  | ok value final => exact run.of_ok outcome
  | error stop final => exact run.of_error outcome

namespace World

def log (world : World) (event : Event) : World := { world with trace := world.trace ++ [event] }

/-- The world after `inet_ntoa` has formatted an address. -/
def format (world : World) (a : InAddr) : World := { world with ntoa := dotted a }

/-- The world after a write through `poll_timer`. -/
def setTimer (world : World) (time : Timeval) : World :=
  { world with vars := { world.vars with pollTimer := time } }.log (.pollTimer time)

/-- The world after writes through `offset` and `error_bound`. -/
def setSample (world : World) (offset errorBound : ℚ) : World :=
  { world with vars := { world.vars with offset := offset, errorBound := errorBound } }

/-- The text a pointer points to. -/
def deref (world : World) : CharPtr → Text
  | .text text => text
  | .ntoaBuffer => world.ntoa

/-- The reading of the next `gettimeofday`. -/
def now (env : Env) (world : World) : Timeval := env.clock world.trace.length

/-- The world after a `gettimeofday`. -/
def tick (env : Env) (world : World) : World := world.log (.gettimeofday (world.now env))

variable (env : Env) (world : World) (event : Event) (a : InAddr) (time : Timeval)

@[simp] theorem trace_log : (world.log event).trace = world.trace ++ [event] := rfl
@[simp] theorem ntoa_log : (world.log event).ntoa = world.ntoa := rfl
@[simp] theorem trace_format : (world.format a).trace = world.trace := rfl
@[simp] theorem ntoa_format : (world.format a).ntoa = dotted a := rfl
@[simp] theorem trace_setTimer : (world.setTimer time).trace = world.trace ++ [.pollTimer time] := rfl
@[simp] theorem trace_tick :
    (world.tick env).trace = world.trace ++ [.gettimeofday (world.now env)] := rfl

end World

/-- Record an event. -/
def record (event : Event) : ClientM Unit := modify fun world => world.log event

/-- Take the next answer and record it. -/
def ask {α : Type} (answers : ℕ → α) (event : α → Event) : ClientM α := fun world =>
  .ok (answers world.trace.length) (world.log (event (answers world.trace.length)))

def gettimeofday (env : Env) : ClientM Timeval := ask env.clock .gettimeofday

/-- `inet_ntoa`. -/
def inetNtoa (a : InAddr) : ClientM CharPtr := fun world => .ok .ntoaBuffer (world.format a)

/-- The text a pointer points to when the program reads it. -/
def readText (pointer : CharPtr) : ClientM Text := return (← get).deref pointer

/-- `get_elapsed_time` with its clock reading. -/
def elapsedTime (env : Env) (startTime : Timeval) : ClientM ℤ :=
  return getElapsedTime startTime (← gettimeofday env)

section Rules

variable {α : Type} {returned : α → World → Prop} {stopped : Stop → World → Prop} {world : World}

@[simp] theorem wp_record {returned : Unit → World → Prop} (event : Event) :
    Wp (record event) returned stopped world ↔ returned () (world.log event) := Iff.rfl

@[simp] theorem wp_ask (answers : ℕ → α) (event : α → Event) :
    Wp (ask answers event) returned stopped world ↔
      returned (answers world.trace.length) (world.log (event (answers world.trace.length))) := Iff.rfl

@[simp] theorem wp_gettimeofday (env : Env) {returned : Timeval → World → Prop} :
    Wp (gettimeofday env) returned stopped world ↔ returned (world.now env) (world.tick env) := Iff.rfl

@[simp] theorem wp_inetNtoa (a : InAddr) {returned : CharPtr → World → Prop} :
    Wp (inetNtoa a) returned stopped world ↔ returned .ntoaBuffer (world.format a) := Iff.rfl

@[simp] theorem wp_readText (pointer : CharPtr) {returned : Text → World → Prop} :
    Wp (readText pointer) returned stopped world ↔ returned (world.deref pointer) world := Iff.rfl

@[simp] theorem wp_elapsedTime (env : Env) (startTime : Timeval) {returned : ℤ → World → Prop} :
    Wp (elapsedTime env startTime) returned stopped world ↔
      returned (getElapsedTime startTime (world.now env)) (world.tick env) := Iff.rfl

end Rules

end Sntp
