import Sntp.Model.ClientNetwork
import Mathlib.Logic.Function.Basic

/-! # Manycast discovery

`discover_unicast_servers_with_manycast` sends one request to the manycast group and collects the
servers whose replies pass the sanity checks. The table it fills holds pointers, not addresses.
-/

namespace Sntp

open Machine

/-- `MANYCAST_MAX_SERVERS`. -/
def manycastMaxServers : ℕ := 10

/-- `MANYCAST_RECV_TIMEOUT`. -/
def manycastRecvTimeout : ℤ := 1

/-- The table of servers and `*s_count`. -/
structure ServerTable where
  ntpServers : ℕ → CharPtr
  sCount : ℕ

/-- The body of the loop that gathers replies. -/
def collect (env : Env) (cSet : ClientSettings) (sockfd : ℤ) (requestPkt : NtpPacket)
    (timer : Timeval) (table : ServerTable) : ClientM (ServerTable ⊕ ServerTable) := do
  if (← elapsedTime env timer) ≤ cSet.manycastWaitTime then
    let received ← recieveOnClient env sockfd
    if received.code ≠ 0 then return .inl table
    else
      let _ ← inetNtoa received.addr.sinAddr
      if runSanityChecks requestPkt (.load env.host received.memory 0) ≠ 0 then
        let _ ← inetNtoa received.addr.sinAddr
        return .inl table
      else
        let entry ← inetNtoa received.addr.sinAddr
        if manycastMaxServers ≤ table.sCount then throw .overrun
        else
          let _ ← inetNtoa received.addr.sinAddr
          return .inl ⟨Function.update table.ntpServers table.sCount entry, table.sCount + 1⟩
  else return .inr table

/-- `discover_unicast_servers_with_manycast`: the code it returns and the table it leaves. -/
def discoverUnicastServersWithManycast (env : Env) (cSet : ClientSettings) (fuel : ℕ)
    (ntpServers : ℕ → CharPtr) : ClientM (ℤ × ServerTable) := do
  let table : ServerTable := ⟨ntpServers, 0⟩
  match ← initialiseSocket env manycastRecvTimeout with
  | .error code => return (code, table)
  | .ok sockfd =>
    match ← initialiseServerInterface env (.text cSet.manycastAddress) cSet.serverPort with
    | .error code => return (code, table)
    | .ok manyGrp =>
      let success ← ask env.setsockopt (.setsockopt sockfd (.multicastTtl 55))
      if success = false then return (7, table)
      else
        let requestPkt ← createRequest env
        if (← sendSntpPacket env requestPkt sockfd manyGrp.addr) ≠ 0 then return (5, table)
        else
          let timer ← gettimeofday env
          let table ← loop .outOfFuel (collect env cSet sockfd requestPkt timer) fuel table
          if table.sCount = 0 then return (6, table)
          else
            record (.close sockfd)
            return (0, table)

end Sntp
