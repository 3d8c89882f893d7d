import Sntp.Proofs.InetAddr
import Sntp.Proofs.ManycastSteps
import Sntp.Soundness.Discovery
import Sntp.Soundness.ServerProgram

/-! # Discovery reaches the servers

The client and the server read the manycast address with different functions, and each converts its port
on a host of its own. A server that is configured with the manycast address of a client has joined the
group that the client's request is sent to whenever it listens, so it hears the request exactly when the
two ports are the same. Nothing but their settings makes them so: the defaults differ.
-/

namespace Sntp.ManycastGroup

open Machine ServerProgram

/-- A port as it travels. -/
def portBytes (host : ByteOrder) (port : UInt16) : List UInt8 := host.store 2 port.toNat

theorem portBytes_htons (host : ByteOrder) (port : UInt16) :
    portBytes host (htons host port) = ByteOrder.big.store 2 port.toNat := by
  have bound : host.load (ByteOrder.big.store 2 port.toNat) < 2 ^ 16 := by
    simpa using host.load_lt (ByteOrder.big.store 2 port.toNat)
  have length : (ByteOrder.big.store 2 port.toNat).length = 2 := by simp
  rw [portBytes, htons, UInt16.toNat_ofNat', Nat.mod_eq_of_lt bound]
  conv_lhs => rw [← length]
  exact host.store_load _

/-- Converted ports travel alike when they are the same. -/
theorem portBytes_htons_eq_iff (host other : ByteOrder) (port port' : UInt16) :
    portBytes host (htons host port) = portBytes other (htons other port') ↔ port = port' := by
  rw [portBytes_htons, portBytes_htons]
  refine ⟨fun same => ?_, fun same => by rw [same]⟩
  have loaded := congrArg ByteOrder.big.load same
  rw [ByteOrder.load_store_of_lt _ port.toNat_lt, ByteOrder.load_store_of_lt _ port'.toNat_lt] at loaded
  exact UInt16.toNat_inj.mp loaded

/-- The events before a receive show that its socket hears what a sender sends to an address. -/
structure Hears (host : ByteOrder) (before : List ServerEvent) (sockfd : ℤ) (sender : ByteOrder)
    (addr : SockaddrIn) : Prop where
  bound : ∃ port, .bind sockfd ⟨port, inaddrAny⟩ true ∈ before ∧
    portBytes host port = portBytes sender addr.sinPort
  joined : .addMembership sockfd addr.sinAddr inaddrAny true ∈ before

section Client

variable {env : Env} {cSet : ClientSettings} {world : World}

/-- Every request so far was sent to the target. -/
def Asks (target : SockaddrIn) (world : World) : Prop :=
  ∀ request ∈ world.trace.filterMap Event.request, request.2 = target

theorem Asks.log {target : SockaddrIn} (asks : Asks target world) {event : Event}
    (addressed : ∀ request, event.request = some request → request.2 = target) :
    Asks target (world.log event) := by
  intro request member
  rw [World.trace_log, List.filterMap_append, List.mem_append] at member
  rcases member with old | new
  · exact asks request old
  · obtain ⟨other, same, selected⟩ := List.mem_filterMap.mp new
    rw [List.mem_singleton.mp same] at selected
    exact addressed request selected

theorem Asks.log_of_none {target : SockaddrIn} (asks : Asks target world) {event : Event}
    (quiet : event.request = none) : Asks target (world.log event) :=
  asks.log (by simp [quiet])

theorem Asks.setUp {target : SockaddrIn} {final : World} (asks : Asks target world)
    (setUp : SetUp world final) : Asks target final := by
  obtain ⟨events, all, rfl⟩ := setUp
  intro request member
  rw [List.filterMap_append, List.mem_append] at member
  rcases member with old | new
  · exact asks request old
  · obtain ⟨event, inside, selected⟩ := List.mem_filterMap.mp new
    rw [(all event inside).request_eq_none] at selected
    simp at selected

theorem Asks.search {sockfd : ℤ} {addr : SockaddrIn} {success : Bool} (asks : Asks addr world) :
    Asks addr (world.search env sockfd addr success) := by
  have sent : Asks addr ((world.tick env).log (.sendto sockfd (world.request env) addr success)) :=
    (asks.log_of_none rfl).log fun request same => by rw [← Option.some.inj same]
  cases success with
  | false => exact sent
  | true => exact sent

theorem Asks.collect {target : SockaddrIn} {waitTime sockfd : ℤ} {request : NtpPacket}
    {timer : Timeval} {table : ServerTable}
    {result : EStateM.Result Stop World (ServerTable ⊕ ServerTable)} (asks : Asks target world)
    (step : CollectStep env waitTime sockfd request timer table world result) :
    Asks target (finalWorld result) := by
  have ticked : Asks target (world.tick env) := asks.log_of_none rfl
  cases step with
  | finished => exact ticked
  | silent | overrun => exact ticked.log_of_none rfl
  | discarded datagram | full datagram | approved datagram =>
    have arrived : Asks target ((world.tick env).arrive sockfd datagram) := ticked.log_of_none rfl
    exact arrived.log_of_none rfl

/-- The discovery request of a client goes to the configured port of the group. -/
theorem asks_discover (fuel : ℕ) (ntpServers : ℕ → CharPtr) {group : InAddr}
    (denoted : inetPton cSet.manycastAddress = some group)
    (literal : ∀ index he, env.gethostbyaddr index group = some he → he.hAddr = group)
    (asks : Asks ⟨htons env.host (UInt16.ofInt cSet.serverPort), group⟩ world) :
    Asks ⟨htons env.host (UInt16.ofInt cSet.serverPort), group⟩
      (finalWorld (discoverUnicastServersWithManycast env cSet fuel ntpServers world)) := by
  have sought {he : Hostent} {index : ℕ} (found : lookUp env index cSet.manycastAddress = some he) :
      he.sockaddr env cSet.serverPort = ⟨htons env.host (UInt16.ofInt cSet.serverPort), group⟩ := by
    rw [lookUp, denoted] at found
    rw [Hostent.sockaddr, literal index he found]
  generalize SockaddrIn.mk (htons env.host (UInt16.ofInt cSet.serverPort)) group = target at asks sought ⊢
  have run : Wp (discoverUnicastServersWithManycast env cSet fuel ntpServers)
      (fun _ final => Asks target final) (fun _ final => Asks target final) world := by
    apply wp_discover_codes
    · exact fun _ => asks.log_of_none rfl
    · exact fun _ _ opened => (asks.setUp opened.setUp).log_of_none rfl
    · exact fun _ _ _ nothing opened =>
        (asks.setUp opened.setUp).log_of_none nothing.prepares.setsUp.request_eq_none
    · exact fun _ _ opened => (asks.setUp opened.setUp).log_of_none rfl
    · intro ready sockfd he opened found
      rw [sought found]
      exact (asks.setUp opened.setUp).search
    intro ready sockfd he opened found
    rw [sought found]
    have searched : Asks target ((ready.search env sockfd target true).tick env) :=
      (asks.setUp opened.setUp).search.log_of_none rfl
    intro _
    refine wp_loop (fun _ state => Asks target state) ?_ ?_ fuel _ searched
    swap
    · exact fun _ _ asks => asks
    intro table state asks
    refine (wp_collect sockfd _ _ table).mono ?_ fun _ _ step => asks.collect step
    rintro (next | next) final step
    · exact asks.collect step
    · rw [Sum.elim_inr]
      split
      · exact asks.collect step
      · exact (asks.collect step).log_of_none rfl
  exact finalWorld_of_wp run

end Client

/-- Where a server receives, its startup tells what it hears. -/
private theorem hears_iff {host sender : ByteOrder} {sSet : ServerSettings} {sockfd : ℤ}
    {events : List ServerEvent} (enabled : sSet.manycastEnabled ≠ 0)
    (ofTurn : ∀ event ∈ events, OfTurn sockfd event) (port : ℤ) :
    Hears host (startup host sSet sockfd ++ events) sockfd sender
        ⟨htons sender (UInt16.ofInt port), inetAddr sSet.manycastAddress⟩ ↔
      UInt16.ofInt port = UInt16.ofInt sSet.serverPort := by
  constructor
  · rintro ⟨⟨bound, member, travels⟩, -⟩
    rcases List.mem_append.mp member with started | inTurn
    · obtain rfl : bound = htons host (UInt16.ofInt sSet.serverPort) := by
        simpa [startup, opening, enabled] using started
      exact ((portBytes_htons_eq_iff ..).mp travels).symm
    · exact (ofTurn _ inTurn).elim
  · intro same
    refine ⟨⟨htons host (UInt16.ofInt sSet.serverPort), ?_, ?_⟩, ?_⟩
    · exact List.mem_append_left _ (by simp [startup, opening])
    · exact (portBytes_htons_eq_iff ..).mpr same.symm
    · exact List.mem_append_left _ (by simp [startup, opening, enabled])

/-- A server hears the discovery requests of a client that has the same manycast address, an address
text, exactly when the ports they are configured with are the same. -/
theorem discovery_heard_iff (env : Env) (cSet : ClientSettings) (fuel : ℕ) (ntpServers : ℕ → CharPtr)
    (ntoa : Text) (vars : SampleVars) (serverEnv : ServerEnv) (file : ConfigFile) (serverFuel : ℕ)
    (state : ServerState) {sSet : ServerSettings} (settings : getServerSettings file = .ok sSet)
    (enabled : sSet.manycastEnabled ≠ 0) (same : sSet.manycastAddress = cSet.manycastAddress)
    {group : InAddr} (denoted : inetPton cSet.manycastAddress = some group)
    (literal : ∀ index he, env.gethostbyaddr index group = some he → he.hAddr = group)
    {stop : ServerStop} {final : ServerWorld}
    (run : serverMain serverEnv file serverFuel ⟨state, []⟩ = .error stop final)
    {before after : List ServerEvent} {sockfd : ℤ} {datagram : Option Datagram}
    (receives : final.trace = before ++ .recvfrom sockfd datagram :: after) :
    ∀ request ∈ (finalWorld (discoverUnicastServersWithManycast env cSet fuel ntpServers
        ⟨ntoa, vars, []⟩)).trace.filterMap Event.request,
      Hears serverEnv.host before sockfd env.host request.2 ↔
        UInt16.ofInt cSet.serverPort = UInt16.ofInt sSet.serverPort := by
  intro request member
  have asked := asks_discover fuel ntpServers denoted literal (by simp [Asks]) request member
  have serverRun : ServerRun serverEnv file serverFuel [] stop final.trace :=
    (wp_serverMain serverFuel).of_error run
  obtain ⟨events, rfl, ofTurn⟩ := serverRun.before_receive settings receives
  rw [asked, ← inetAddr_of_inetPton denoted, ← same]
  exact hears_iff enabled ofTurn cSet.serverPort

/-- A big-endian host whose calls succeed and whose receives fail. -/
def groupServer : ServerEnv where
  host := .big
  clock := fun _ => default
  socket := fun _ => 3
  setsockopt := fun _ => true
  bind := fun _ => true
  recvfrom := fun _ => none
  sendto := fun _ => true

/-- A configuration file that enables manycast and nothing else. -/
def groupConfig : Config := fun name =>
  if name = "manycast_enabled".toList then some (.bool true) else none

/-- A client of that group. -/
def groupRun : World :=
  finalWorld (discoverUnicastServersWithManycast (Discovery.groupEnv none)
    { ClientSettings.defaults .ntoaBuffer 1 with serverPort := 6001 } 5 (fun _ => .text [])
    ⟨[], ⟨0, 0, default⟩, []⟩)

/-- A client that asks the server's default port of the default group is heard. -/
theorem discovery_heard_iff_default :
    ∃ request ∈ groupRun.trace.filterMap Event.request,
      Hears .big (startup .big { ServerSettings.defaults with manycastEnabled := 1 } 3) 3 .little
        request.2 := by
  have asked : groupRun.trace.filterMap Event.request ≠ [] := by decide +kernel
  obtain ⟨request, member⟩ := List.exists_mem_of_ne_nil _ asked
  have denoted : inetPton "224.0.1.1".toList = some ⟨224, 0, 1, 1⟩ := by decide +kernel
  have literal (index : ℕ) (he : Hostent)
      (found : (Discovery.groupEnv none).gethostbyaddr index ⟨224, 0, 1, 1⟩ = some he) :
      he.hAddr = ⟨224, 0, 1, 1⟩ := by rw [← Option.some.inj found]
  refine ⟨request, member, ?_⟩
  exact (discovery_heard_iff _ _ _ _ _ _ groupServer (.valid groupConfig) 1 ⟨default, fun _ => 0, default⟩
    rfl (by decide) rfl denoted literal rfl rfl request member).mpr rfl

end Sntp.ManycastGroup
