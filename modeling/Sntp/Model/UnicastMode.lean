import Sntp.Model.ClientNetwork

/-! # One time sample

`unicast_mode` looks the server up and then retries: it waits out the poll interval, sends a
request, listens until a reply is taken to come from the server, and checks the reply. The loops
are kept as in the source; the locals a loop carries are the arguments of its body.
-/

namespace Sntp

open Machine

/-- The condition under which a retry goes round again: a timer is set and the poll interval is
not over. The value `-1` stands for a timer that has not been set. -/
def mustWait (env : Env) (cSet : ClientSettings) : ClientM Bool := do
  let pollTimer := (← get).vars.pollTimer
  if pollTimer.tvSec ≠ -1 then return decide ((← elapsedTime env pollTimer) ≤ cSet.pollWait)
  else return false

/-- The clock reading behind the `rem_time` that failures report. -/
def remainingTime (env : Env) (cSet : ClientSettings) : ClientM ℤ := do
  return cSet.pollWait - (← elapsedTime env (← get).vars.pollTimer)

/-- The body of the `do` loop that listens for replies. It ends without a reply when receiving
fails, and with the first reply whose address compares equal. -/
def listen (env : Env) (cSet : ClientSettings) (sockfd : ℤ) (userver : HostInfo) (_ : Unit) :
    ClientM (Unit ⊕ Option Received) := do
  let received ← recieveOnClient env sockfd
  if received.code ≠ 0 then
    let _ ← remainingTime env cSet
    return .inr none
  else if (← isSameIpaddr env userver.addr received.addr) ≠ 0 then return .inl ()
  else return .inr (some received)

/-- The body of the `while` loop, at the value of `retry_count`. It ends without a reply when the
retries are used up, and with a reply that passes the sanity checks. -/
def attempt (env : Env) (cSet : ClientSettings) (fuel : ℕ) (sockfd : ℤ) (userver : HostInfo)
    (retryCount : ℤ) : ClientM (ℤ ⊕ Option Received) := do
  if cSet.maxUnicastRetries < retryCount then return .inr none
  else if ← mustWait env cSet then return .inl retryCount
  else
    let requestPkt ← createRequest env
    let startTime ← gettimeofday env
    modify fun world => world.setTimer startTime
    if (← sendSntpPacket env requestPkt sockfd userver.addr) ≠ 0 then
      let _ ← remainingTime env cSet
      return .inl (toInt (retryCount + 1))
    else
      match ← loop .outOfFuel (listen env cSet sockfd userver) fuel () with
      | none => return .inl (toInt (retryCount + 1))
      | some received =>
        if runSanityChecks requestPkt (.load env.host received.memory 0) ≠ 0 then
          let _ ← remainingTime env cSet
          return .inl (toInt (retryCount + 1))
        else return .inr (some received)

/-- `serv_ts`, from the packet of the reply and its time of arrival. -/
def Received.servTs (env : Env) (received : Received) : CoreTs :=
  getTimestampsFromPacketInEpochTime env.host (.load env.host received.memory 0)
    { originateTimestamp := default, receiveTimestamp := default, transmitTimestamp := default
      destinationTimestamp := received.destTime }

/-- What `unicast_mode` does once a reply is valid. -/
def reportSample (env : Env) (sockfd : ℤ) (userver : HostInfo) (received : Received) :
    ClientM Unit := do
  let servTs := received.servTs env
  let offset := calculateClockOffset servTs
  let errorBound := calculateErrorBound servTs
  modify fun world => world.setSample offset errorBound
  printServerResults servTs.transmitTimestamp offset errorBound userver
    (NtpPacket.load env.host received.memory 0).stratum
  record (.close sockfd)

/-- The timer that has not been set. -/
def unsetTimer (pollTimer : Timeval) : Timeval := { pollTimer with tvSec := -1 }

/-- `unicast_mode`. -/
def unicastMode (env : Env) (cSet : ClientSettings) (fuel : ℕ) : ClientM ℤ := do
  match ← initialiseSocket env cSet.recvUniTimeout with
  | .error code => return code
  | .ok sockfd =>
    match ← initialiseServerInterface env cSet.serverHost cSet.serverPort with
    | .error code => return code
    | .ok userver =>
      modify fun world => world.setTimer (unsetTimer world.vars.pollTimer)
      match ← loop .outOfFuel (attempt env cSet fuel sockfd userver) fuel 1 with
      | none => return 4
      | some received =>
        reportSample env sockfd userver received
        return 0

end Sntp
