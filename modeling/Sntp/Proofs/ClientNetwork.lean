import Sntp.Model.ClientNetwork

/-! # What the network operations do

One rule for each operation. The comparison of addresses is the decisive one: both pointers it
passes to `strcmp` are the buffer of `inet_ntoa`, so it finds every two addresses equal and leaves
the buffer with the one it formatted last.
-/

namespace Sntp

open Machine

/-- The events of setting a socket up and looking a server up. -/
def Event.SetsUp : Event → Prop
  | .socket _ | .setsockopt _ _ _ | .gethostbyaddr _ _ | .gethostbyname _ _ => True
  | _ => False

/-- The events of setting an open socket up. -/
def Event.Prepares : Event → Prop
  | .setsockopt _ _ _ | .gethostbyaddr _ _ | .gethostbyname _ _ => True
  | _ => False

theorem Event.Prepares.setsUp {event : Event} (prepares : event.Prepares) : event.SetsUp := by
  cases event <;> trivial

/-- From one world to another by setting up only. -/
def SetUp (world final : World) : Prop :=
  ∃ events : List Event, (∀ event ∈ events, event.SetsUp) ∧
    final = { world with trace := world.trace ++ events }

theorem SetUp.refl (world : World) : SetUp world world := ⟨[], by simp, by simp⟩

theorem SetUp.log {world final : World} (before : SetUp world final) {event : Event}
    (setsUp : event.SetsUp) : SetUp world (final.log event) := by
  obtain ⟨events, all, rfl⟩ := before
  refine ⟨events ++ [event], ?_, by simp [World.log]⟩
  intro other member
  rcases List.mem_append.mp member with old | new
  · exact all other old
  · rwa [List.mem_singleton.mp new]

theorem SetUp.trans {first second third : World} (before : SetUp first second)
    (after : SetUp second third) : SetUp first third := by
  obtain ⟨events, all, rfl⟩ := before
  obtain ⟨later, allLater, rfl⟩ := after
  refine ⟨events ++ later, ?_, by simp⟩
  intro event member
  exact (List.mem_append.mp member).elim (all event) (allLater event)

theorem SetUp.ntoa {world final : World} (setUp : SetUp world final) : final.ntoa = world.ntoa := by
  obtain ⟨events, -, rfl⟩ := setUp
  rfl

theorem SetUp.trace_prefix {world final : World} (setUp : SetUp world final) :
    world.trace <+: final.trace := by
  obtain ⟨events, -, rfl⟩ := setUp
  exact List.prefix_append ..

/-- From one world to another by opening a socket and setting it up. -/
inductive Opened (env : Env) (world : World) (sockfd : ℤ) : World → Prop
  | socket : sockfd ≠ -1 → env.socket world.trace.length = sockfd →
      Opened env world sockfd (world.log (.socket sockfd))
  | log {final : World} {event : Event} : Opened env world sockfd final → event.Prepares →
      Opened env world sockfd (final.log event)

section

variable {env : Env} {world final : World} {sockfd : ℤ}

theorem Opened.setsockopt (opened : Opened env world sockfd final) (option : SocketOption)
    (success : Bool) : Opened env world sockfd (final.log (.setsockopt sockfd option success)) :=
  opened.log trivial

theorem Opened.setUp (opened : Opened env world sockfd final) : SetUp world final := by
  induction opened with
  | socket => exact (SetUp.refl world).log trivial
  | log _ prepares ih => exact ih.log prepares.setsUp

theorem Opened.ne (opened : Opened env world sockfd final) : sockfd ≠ -1 := by
  induction opened with
  | socket valid => exact valid
  | log _ _ ih => exact ih

theorem Opened.socket_eq (opened : Opened env world sockfd final) :
    env.socket world.trace.length = sockfd := by
  induction opened with
  | socket _ same => exact same
  | log _ _ ih => exact ih

theorem Opened.trace_prefix (opened : Opened env world sockfd final) :
    world.trace ++ [.socket sockfd] <+: final.trace := by
  induction opened with
  | socket => exact List.prefix_rfl
  | log _ _ ih => exact ih.trans (List.prefix_append ..)

end

/-- What a lookup of `name` found: an address text is resolved by address. -/
def Resolved (env : Env) (name : Text) (userver : HostInfo) : Prop :=
  ∀ ipaddr, inetPton name = some ipaddr →
    ∃ index he, env.gethostbyaddr index ipaddr = some he ∧ userver.addr.sinAddr = he.hAddr

/-- The request that the next `create_packet` builds. -/
def World.request (env : Env) (world : World) : NtpPacket :=
  createPacket env.host (getNtpTimeOfDay (world.now env))

/-- What `recieve_SNTP_packet` leaves for a datagram that arrives at the given time. -/
def Datagram.received (datagram : Datagram) (arrival : Timeval) : Received :=
  recieveSntpPacket (fun _ => 0) 0 default default (some (datagram, arrival))

@[simp] theorem Datagram.load_received (env : Env) (datagram : Datagram) (arrival : Timeval) :
    NtpPacket.load env.host (datagram.received arrival).memory 0 = datagram.packet env.host :=
  load_recieve ..

@[simp] theorem Datagram.destTime_received (datagram : Datagram) (arrival : Timeval) :
    (datagram.received arrival).destTime = arrival := rfl

variable {α : Type} {stopped : Stop → World → Prop} {world : World}

@[simp] theorem wp_createRequest (env : Env) {returned : NtpPacket → World → Prop} :
    Wp (createRequest env) returned stopped world ↔
      returned (world.request env) (world.tick env) := Iff.rfl

@[simp] theorem wp_sendSntpPacket (env : Env) (pkt : NtpPacket) (sockfd : ℤ) (addr : SockaddrIn)
    {returned : ℤ → World → Prop} :
    Wp (sendSntpPacket env pkt sockfd addr) returned stopped world ↔
      if env.sendto world.trace.length then
        returned 0 ((world.log (.sendto sockfd pkt addr true)).format addr.sinAddr)
      else returned 1 (world.log (.sendto sockfd pkt addr false)) := by
  rw [sendSntpPacket, wp_bind, wp_ask]
  cases env.sendto world.trace.length <;> rfl

/-- Receiving fails, overruns the packet, or stores a datagram and the time of its arrival. -/
theorem wp_recieveOnClient (env : Env) (sockfd : ℤ) {returned : Received → World → Prop}
    (failed : ∀ received, received.code = 1 →
      returned received (world.log (.recvfrom sockfd none)))
    (overrun : ∀ datagram : Datagram, sizeofNtpPacket < datagram.stored.length →
      stopped .overrun (world.log (.recvfrom sockfd (some datagram))))
    (stored : ∀ datagram : Datagram, datagram.stored.length ≤ sizeofNtpPacket →
      let arrived := world.log (.recvfrom sockfd (some datagram))
      returned (datagram.received (arrived.now env))
        ((arrived.tick env).format datagram.source.sinAddr)) :
    Wp (recieveOnClient env sockfd) returned stopped world := by
  rw [recieveOnClient, wp_bind, wp_ask]
  cases env.recvfrom world.trace.length with
  | none => exact failed _ rfl
  | some datagram =>
    dsimp only
    rw [wp_ite]
    exact ⟨overrun datagram, fun fits => stored datagram (Nat.le_of_not_lt fits)⟩

/-- The comparison always yields zero. -/
@[simp] theorem wp_isSameIpaddr (env : Env) (sentAddr replyAddr : SockaddrIn)
    {returned : ℤ → World → Prop} :
    Wp (isSameIpaddr env sentAddr replyAddr) returned stopped world ↔
      let replyLast := env.replyLast world.trace.length
      returned 0 ((world.log (.compare sentAddr.sinAddr replyAddr.sinAddr replyLast)).format
        (if replyLast then replyAddr.sinAddr else sentAddr.sinAddr)) := by
  rw [isSameIpaddr, wp_bind, wp_ask]
  cases env.replyLast world.trace.length <;> simp [World.deref] <;> rfl

theorem initialiseSocket_refused {env : Env} (recvUniTimeout : ℤ)
    (refused : env.socket world.trace.length = -1) :
    initialiseSocket env recvUniTimeout world = .ok (.error 3) (world.log (.socket (-1))) := by
  rw [← wp_eq, initialiseSocket, wp_bind, wp_ask, if_pos refused, refused]
  rfl

theorem initialiseSocket_opened {env : Env} (recvUniTimeout : ℤ) {sockfd : ℤ} {success : Bool}
    (valid : sockfd ≠ -1) (opened : env.socket world.trace.length = sockfd)
    (set : env.setsockopt (world.trace.length + 1) = success) :
    initialiseSocket env recvUniTimeout world =
      .ok (if success then .ok sockfd else .error 8) ((world.log (.socket sockfd)).log
        (.setsockopt sockfd (.receiveTimeout ⟨recvUniTimeout, 0⟩) success)) := by
  have after : (world.log (.socket sockfd)).trace.length = world.trace.length + 1 := by
    rw [World.trace_log, List.length_append, List.length_singleton]
  rw [← wp_eq, initialiseSocket, wp_bind, wp_ask, opened, if_neg valid, wp_bind,
    setSocketRecvfromTimeout, wp_bind, wp_ask, after, set]
  cases success <;> rfl

/-- The socket is refused, or opened and its timeout refused or set. -/
theorem wp_initialiseSocket (env : Env) (recvUniTimeout : ℤ)
    {returned : Except ℤ ℤ → World → Prop}
    (refused : env.socket world.trace.length = -1 → returned (.error 3) (world.log (.socket (-1))))
    (opened : ∀ sockfd success, sockfd ≠ -1 → env.socket world.trace.length = sockfd →
      env.setsockopt (world.trace.length + 1) = success →
      returned (if success then .ok sockfd else .error 8) ((world.log (.socket sockfd)).log
        (.setsockopt sockfd (.receiveTimeout ⟨recvUniTimeout, 0⟩) success))) :
    Wp (initialiseSocket env recvUniTimeout) returned stopped world := by
  by_cases valid : env.socket world.trace.length = -1
  · exact (wp_of_ok (initialiseSocket_refused recvUniTimeout valid)).mpr (refused valid)
  · exact (wp_of_ok (initialiseSocket_opened recvUniTimeout valid rfl rfl)).mpr
      (opened _ _ valid rfl rfl)

/-- What a lookup of `name` finds: an address text is looked up by address. -/
def lookUp (env : Env) (index : ℕ) (name : Text) : Option Hostent :=
  match inetPton name with
  | some ipaddr => env.gethostbyaddr index ipaddr
  | none => env.gethostbyname index name

theorem resolved_of_lookUp {env : Env} {index : ℕ} {name : Text} {he : Hostent}
    (found : lookUp env index name = some he) (hostName : CharPtr) (port : ℤ) :
    Resolved env name ⟨hostName, he.sockaddr env port⟩ := by
  intro ipaddr denoted
  rw [lookUp, denoted] at found
  exact ⟨index, he, found, rfl⟩

/-- What setting up needs to succeed: a socket, its option and a server. -/
def SetUpSucceeds (env : Env) (cSet : ClientSettings) (world : World) : Prop :=
  env.socket world.trace.length ≠ -1 ∧ env.setsockopt (world.trace.length + 1) = true ∧
    (lookUp env (world.trace.length + 2) (world.deref cSet.serverHost)).isSome

/-- A lookup that found nothing. -/
def Event.FindsNothing : Event → Prop
  | .gethostbyaddr _ none | .gethostbyname _ none => True
  | _ => False

theorem Event.FindsNothing.prepares {event : Event} (nothing : event.FindsNothing) :
    event.Prepares := by
  cases event <;> trivial

/-- A lookup asks once, and finds nothing or the server. -/
theorem wp_initialiseServerInterface_asks (env : Env) (host : CharPtr) (port : ℤ)
    {returned : Except ℤ HostInfo → World → Prop}
    (failed : ∀ event : Event, event.FindsNothing →
      lookUp env world.trace.length (world.deref host) = none →
      returned (.error 2) (world.log event))
    (found : ∀ (event : Event) he name, event.Prepares →
      lookUp env world.trace.length (world.deref host) = some he →
      returned (.ok ⟨name, he.sockaddr env port⟩) (world.log event)) :
    Wp (initialiseServerInterface env host port) returned stopped world := by
  rw [lookUp] at failed found
  rw [initialiseServerInterface, wp_bind, wp_readText]
  cases denoted : inetPton (world.deref host) with
  | some ipaddr =>
    rw [denoted] at failed found
    dsimp only
    rw [wp_bind, wp_ask]
    cases lookup : env.gethostbyaddr world.trace.length ipaddr with
    | none => exact failed (.gethostbyaddr ipaddr none) trivial lookup
    | some he => exact found _ he _ trivial lookup
  | none =>
    rw [denoted] at failed found
    dsimp only
    rw [wp_bind, wp_ask]
    cases lookup : env.gethostbyname world.trace.length (world.deref host) with
    | none => exact failed (.gethostbyname (world.deref host) none) trivial lookup
    | some he => exact found _ he _ trivial lookup

/-- A lookup asks once, and fails or finds the server. -/
theorem wp_initialiseServerInterface (env : Env) (host : CharPtr) (port : ℤ)
    {returned : Except ℤ HostInfo → World → Prop}
    (failed : ∀ event : Event, event.Prepares → lookUp env world.trace.length (world.deref host) = none →
      returned (.error 2) (world.log event))
    (found : ∀ (event : Event) he name, event.Prepares →
      lookUp env world.trace.length (world.deref host) = some he →
      returned (.ok ⟨name, he.sockaddr env port⟩) (world.log event)) :
    Wp (initialiseServerInterface env host port) returned stopped world :=
  wp_initialiseServerInterface_asks env host port
    (fun event nothing => failed event nothing.prepares) found

end Sntp
