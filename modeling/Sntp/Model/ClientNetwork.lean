import Sntp.Model.Environment

/-! # The network operations of the client

Sending, receiving, comparing addresses and looking a server up, with every call they make and
every use they make of the buffer of `inet_ntoa`. The arguments of a `print_debug` are evaluated
whether or not its text is shown, so the calls in them are kept and the texts are not.
-/

namespace Sntp

open Machine

/-- `send_SNTP_packet`: zero when the packet was sent. -/
def sendSntpPacket (env : Env) (pkt : NtpPacket) (sockfd : ℤ) (addr : SockaddrIn) : ClientM ℤ := do
  let success ← ask env.sendto (.sendto sockfd pkt addr)
  if success = false then return 1
  else
    let _ ← inetNtoa addr.sinAddr
    return 0

/-- `recieve_SNTP_packet` into a packet of its own. What that packet held before does not matter,
and no caller reads it after a failure; a datagram that reaches past it overruns it. -/
def recieveOnClient (env : Env) (sockfd : ℤ) : ClientM Received := do
  let recieve := recieveSntpPacket (fun _ => 0) 0 default default
  match ← ask env.recvfrom (.recvfrom sockfd) with
  | none => return recieve none
  | some datagram =>
    if sizeofNtpPacket < datagram.stored.length then throw .overrun
    else
      let now ← gettimeofday env
      let received := recieve (some (datagram, now))
      let _ ← inetNtoa received.addr.sinAddr
      return received

/-- `is_same_ipaddr`: zero when `strcmp` finds no difference. Its two arguments are evaluated in
either order. -/
def isSameIpaddr (env : Env) (sentAddr replyAddr : SockaddrIn) : ClientM ℤ := do
  let replyLast ← ask env.replyLast (.compare sentAddr.sinAddr replyAddr.sinAddr)
  let (first, second) ←
    if replyLast then do
      let sent ← inetNtoa sentAddr.sinAddr
      let reply ← inetNtoa replyAddr.sinAddr
      pure (reply, sent)
    else do
      let reply ← inetNtoa replyAddr.sinAddr
      let sent ← inetNtoa sentAddr.sinAddr
      pure (reply, sent)
  if (← readText first) ≠ (← readText second) then return 1 else return 0

/-- `set_socket_recvfrom_timeout`. -/
def setSocketRecvfromTimeout (env : Env) (sockfd seconds : ℤ) : ClientM ℤ := do
  let success ← ask env.setsockopt (.setsockopt sockfd (.receiveTimeout ⟨seconds, 0⟩))
  if success = false then return 1 else return 0

/-- `initialise_socket`: the socket, or an error code. -/
def initialiseSocket (env : Env) (recvUniTimeout : ℤ) : ClientM (Except ℤ ℤ) := do
  let sockfd ← ask env.socket .socket
  if sockfd = -1 then return .error 3
  else if (← setSocketRecvfromTimeout env sockfd recvUniTimeout) ≠ 0 then return .error 8
  else return .ok sockfd

/-- The `cn->addr` that a lookup fills in. -/
def Hostent.sockaddr (env : Env) (port : ℤ) (he : Hostent) : SockaddrIn where
  sinPort := htons env.host (UInt16.ofInt port)
  sinAddr := he.hAddr

/-- `initialise_server_interface`: the server, or an error code. -/
def initialiseServerInterface (env : Env) (host : CharPtr) (port : ℤ) :
    ClientM (Except ℤ HostInfo) := do
  let name ← readText host
  match inetPton name with
  | some ipaddr =>
    match ← ask (fun index => env.gethostbyaddr index ipaddr) (.gethostbyaddr ipaddr) with
    | none => return .error 2
    | some he => return .ok ⟨.text he.hName, he.sockaddr env port⟩
  | none =>
    match ← ask (fun index => env.gethostbyname index name) (.gethostbyname name) with
    | none => return .error 2
    | some he => return .ok ⟨host, he.sockaddr env port⟩

/-- `create_packet` with its clock reading. -/
def createRequest (env : Env) : ClientM NtpPacket :=
  return createPacket env.host (getNtpTimeOfDay (← gettimeofday env))

/-- `print_server_results`; the time of day of its first column is not formatted here. -/
def printServerResults (transmitTime : Timeval) (offset errorBound : ℚ) (cn : HostInfo)
    (stratum : UInt8) : ClientM Unit := do
  let name ← readText cn.name
  let _ ← inetNtoa cn.addr.sinAddr
  record (.serverResults transmitTime offset errorBound name cn.addr.sinAddr stratum)

end Sntp
