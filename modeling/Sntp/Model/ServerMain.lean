import Sntp.Machine.Program
import Sntp.Model.InetAddr
import Sntp.Model.Server

/-! # The server program

`main` of the server: it takes its settings from the configuration file, opens and binds its socket,
joins the manycast group when it is to, and answers requests without end. As for the client, a run is
fixed by the answers it gets, which are indexed by the number of earlier events. What it prints is part
of the events; the only stops are an exit, a write past the request record and, for a run that is cut
short, the end of its fuel.
-/

namespace Sntp

open Machine

/-- `struct server_settings`. -/
structure ServerSettings where
  serverPort : ℤ
  debug : ℤ
  manycastEnabled : ℤ
  manycastAddress : Text
deriving DecidableEq, Repr

def ServerSettings.defaults : ServerSettings where
  serverPort := 6001
  debug := 0
  manycastEnabled := 0
  manycastAddress := "224.0.1.1".toList

/-- `parse_config_file` of the server, for a file that `setup_config_file` has read. The manycast
address is looked up only when manycast is enabled. -/
def parseServerConfigFile (cfg : Config) (sSet : ServerSettings) : ServerSettings :=
  let manycastEnabled :=
    (configLookupBool cfg "manycast_enabled".toList).getD sSet.manycastEnabled
  { manycastEnabled := manycastEnabled
    manycastAddress :=
      if manycastEnabled ≠ 0 then
        (configLookupString cfg "manycast_address".toList).getD sSet.manycastAddress
      else sSet.manycastAddress
    serverPort := (configLookupInt cfg "server_port".toList).getD sSet.serverPort
    debug := (configLookupBool cfg "debug".toList).getD sSet.debug }

/-- `get_server_settings`, or the code that `setup_config_file` exits with. -/
def getServerSettings : ConfigFile → Except ℤ ServerSettings
  | .missing => .ok .defaults
  | .invalid => .error 1
  | .valid cfg => .ok (parseServerConfigFile cfg .defaults)

/-- What the server does and what it is answered, call by call. -/
inductive ServerEvent where
  | socket (sockfd : ℤ)
  | reuseAddr (sockfd : ℤ) (success : Bool)
  | bind (sockfd : ℤ) (addr : SockaddrIn) (success : Bool)
  | addMembership (sockfd : ℤ) (imrMultiaddr imrInterface : InAddr) (success : Bool)
  | recvfrom (sockfd : ℤ) (datagram : Option Datagram)
  | gettimeofday (now : Timeval)
  | sendto (sockfd : ℤ) (pkt : NtpPacket) (addr : SockaddrIn) (success : Bool)
  | stdout (text : Text)
  | stderr (text : Text)
deriving DecidableEq, Repr

/-- The host of the server and its answers. -/
structure ServerEnv where
  host : ByteOrder
  clock : ℕ → Timeval
  socket : ℕ → ℤ
  setsockopt : ℕ → Bool
  bind : ℕ → Bool
  recvfrom : ℕ → Option Datagram
  sendto : ℕ → Bool

/-- The request record and the events so far, oldest first. -/
structure ServerWorld where
  state : ServerState
  trace : List ServerEvent

/-- Why a run of the server stops. -/
inductive ServerStop where
  | outOfFuel
  | overrun
  | exit (code : ℤ)
deriving DecidableEq, Repr

abbrev ServerM := EStateM ServerStop ServerWorld

def ServerWorld.log (world : ServerWorld) (event : ServerEvent) : ServerWorld :=
  { world with trace := world.trace ++ [event] }

/-- Record an event. -/
def recordServer (event : ServerEvent) : ServerM Unit := modify fun world => world.log event

/-- Take the next answer and record it. -/
def askServer {α : Type} (answers : ℕ → α) (event : α → ServerEvent) : ServerM α := fun world =>
  .ok (answers world.trace.length) (world.log (event (answers world.trace.length)))

/-- Change the request record. -/
def updateServer (change : ServerState → ServerState) : ServerM Unit :=
  modify fun world => { world with state := change world.state }

/-- `print_debug`. -/
def printDebug (debug : ℤ) (message : Text) : ServerM Unit :=
  if debug ≠ 1 then pure ()
  else recordServer (.stdout ("DEBUG: ".toList ++ message.take 4095 ++ "\n".toList))

/-- `INADDR_ANY`. -/
def inaddrAny : InAddr := ⟨0, 0, 0, 0⟩

/-- `initialise_server`: the socket, or an error code. -/
def initialiseServer (env : ServerEnv) (port debug : ℤ) : ServerM (Except ℤ ℤ) := do
  let sockfd ← askServer env.socket .socket
  if sockfd = -1 then
    printDebug debug "error creating a socket".toList
    return .error 1
  else if (← askServer env.setsockopt (.reuseAddr sockfd)) = false then
    printDebug debug "error setting up reuseable address".toList
    return .error 1
  else
    let addr : SockaddrIn := ⟨htons env.host (UInt16.ofInt port), inaddrAny⟩
    if (← askServer env.bind (.bind sockfd addr)) = false then
      printDebug debug "error binding to socket".toList
      return .error 1
    else return .ok sockfd

/-- `setup_manycast`. -/
def setupManycast (env : ServerEnv) (sockfd : ℤ) (manycastAddress : Text) (debug : ℤ) :
    ServerM ℤ := do
  if (← askServer env.setsockopt (.addMembership sockfd (inetAddr manycastAddress) inaddrAny)) = false then
    printDebug debug "unable to setup socket for manycast".toList
    return 1
  else return 0

/-- `recieve_SNTP_packet` into the request record. -/
def recieveOnServer (env : ServerEnv) (sockfd debug : ℤ) : ServerM ℤ := do
  let state := (← get).state
  let recieve := recieveSntpPacket state.memory 0 state.client state.requestTUnix
  match ← askServer env.recvfrom (.recvfrom sockfd) with
  | none =>
    updateServer fun state => { state with memory := (recieve none).memory }
    printDebug debug "socket recv timeout".toList
    return 1
  | some datagram =>
    if requestRoom < datagram.stored.length then throw .overrun
    else
      let received := recieve (some (datagram, ← askServer env.clock .gettimeofday))
      updateServer fun _ => ⟨received.addr, received.memory, received.destTime⟩
      printDebug debug ("got packet from ".toList ++ dotted received.addr.sinAddr)
      return 0

/-- `send_SNTP_packet` of the server. A datagram is sent whole. -/
def sendOnServer (env : ServerEnv) (pkt : NtpPacket) (sockfd : ℤ) (addr : SockaddrIn) (debug : ℤ) :
    ServerM ℤ := do
  if (← askServer env.sendto (.sendto sockfd pkt addr)) = false then
    printDebug debug "error with sending packet".toList
    return 1
  else
    printDebug debug ("sent ".toList ++ Nat.toDigits 10 sizeofNtpPacket ++ " bytes to ".toList ++
      dotted addr.sinAddr)
    return 0

/-- What `check_packet` says of a request that it rejects. -/
def checkFailure (cReq : SntpRequest) : Text :=
  if mode cReq.pkt.liVnMode ≠ 3 then
    "check failed failed on - packet is not of mode client 3(mode=".toList ++
      Nat.toDigits 10 (mode cReq.pkt.liVnMode).toNat ++ ")".toList
  else
    "check failed failed on - packet version is not in range 1 to 4(vn=".toList ++
      Nat.toDigits 10 (version cReq.pkt.liVnMode).toNat ++ ")".toList

/-- What the loop does with a request: it is checked, and answered when it passes. -/
def answerRequest (env : ServerEnv) (sockfd debug : ℤ) (clientReq : SntpRequest) : ServerM Unit := do
  if checkPacket clientReq ≠ 0 then
    printDebug debug (checkFailure clientReq)
    recordServer (.stderr ("packet check failed, ignoring request for ".toList ++
      dotted clientReq.client.sinAddr ++ "\n".toList))
  else
    let transmit ← askServer env.clock .gettimeofday
    let replyPkt := createReplyPacket env.host clientReq (getNtpTimeOfDay transmit)
    if (← sendOnServer env replyPkt sockfd clientReq.client debug) = 0 then
      recordServer (.stdout ("succesffuly sent reply packet to ".toList ++
        dotted clientReq.client.sinAddr ++ "\n".toList))

/-- The body of `while(1)`. -/
def serveRequest (env : ServerEnv) (sockfd debug : ℤ) (_ : Unit) : ServerM (Unit ⊕ Empty) := do
  if (← recieveOnServer env sockfd debug) ≠ 0 then
    recordServer (.stderr "error while listening for requests\n".toList)
    return .inl ()
  else
    recordServer (.stdout ("recieved a packet from ".toList ++ dotted (← get).state.client.sinAddr ++
      "\n".toList))
    updateServer fun state =>
      let timeOfRequest := convertUnixTimeIntoNtpTime state.requestTUnix
      { state with memory := state.memory.write timeOfRequestOffset (timeOfRequest.store env.host) }
    answerRequest env sockfd debug ((← get).state.clientReq env.host)
    return .inl ()

/-- `main` of the server. -/
def serverMain (env : ServerEnv) (file : ConfigFile) (fuel : ℕ) : ServerM Empty := do
  match getServerSettings file with
  | .error code => throw (.exit code)
  | .ok sSet =>
    match ← initialiseServer env sSet.serverPort sSet.debug with
    | .error _ =>
      recordServer (.stderr "error initialising server\n".toList)
      throw (.exit 1)
    | .ok sockfd =>
      if sSet.manycastEnabled ≠ 0 then
        if (← setupManycast env sockfd sSet.manycastAddress sSet.debug) ≠ 0 then
          recordServer (.stderr "error setting up socket for manycast\n".toList)
          throw (.exit 1)
      loop .outOfFuel (serveRequest env sockfd sSet.debug) fuel ()

end Sntp
