import Sntp.Model.ClientMain
import Sntp.Model.ServerNetwork
import Mathlib.Logic.Relation

/-! # Clients and servers on one network

Any number of clients and servers, each with a clock that is ahead of true time by an amount of its
own. They interleave at the grain of single calls: a client makes the next call of its run, a server
takes a datagram in or answers the one it took in. A message stays in the network once it is sent, so
that it may be received late, out of order, more than once or never, and anyone may add messages.

The answers of a client's run are given in advance. It makes a call only where the clock and the
network bear the answer out.
-/

namespace Sntp

open Machine

/-- A host that runs the client: what its run depends on, the addresses of its sockets, and by how
many microseconds its clock is ahead. -/
structure ClientHost where
  env : Env
  cSet : ClientSettings
  fuel : ℕ
  ntpServers : ℕ → CharPtr
  offsetTotal : ℚ
  errorBoundTotal : ℚ
  ntoa : Text
  vars : SampleVars
  addrs : SockaddrIn → Prop
  ahead : ℤ

/-- The events of the client's run. -/
def ClientHost.run (host : ClientHost) : List Event :=
  (finalWorld (clientMain host.env host.fuel host.cSet host.ntpServers host.offsetTotal
    host.errorBoundTotal ⟨host.ntoa, host.vars, []⟩)).trace

/-- The hosts, by how many microseconds the servers' clocks are ahead, and which servers a
destination reaches. -/
structure Deployment (Client Server : Type) where
  clients : Client → ClientHost
  servers : Server → ServerHost
  ahead : Server → ℤ
  reaches : SockaddrIn → Server → Prop

/-- A message and how it came about. A reply is what a server sent for a message that it received
and answered at the given true times. -/
inductive Message (Client Server : Type) where
  | request (client : Client) (index : ℕ) (pkt : NtpPacket) (addr source : SockaddrIn)
  | reply (server : Server) (received : Message Client Server) (arrival transmit : ℤ) (sent : Sent)
  | forged (destination : SockaddrIn) (datagram : Datagram)

/-- No one but the hosts had a part in the message. -/
def Message.Honest {Client Server : Type} : Message Client Server → Prop
  | .request _ _ _ _ _ => True
  | .reply _ received _ _ _ => received.Honest
  | .forged _ _ => False

/-- A server's record, and the message it is about to answer with the true time of its arrival. -/
structure ServerTurn (Client Server : Type) where
  state : ServerState
  pending : Option (Message Client Server × ℤ)

/-- The true time, what each client has done so far and when, where the servers are, and the messages
sent so far. -/
structure Snapshot (Client Server : Type) where
  time : ℤ
  history : Client → List (ℤ × Event)
  servers : Server → ServerTurn Client Server
  soup : List (Message Client Server)

variable {Client Server : Type}

/-- Before anyone has done anything. -/
def Snapshot.initial (time : ℤ) (servers : Server → ServerState) : Snapshot Client Server where
  time := time
  history := fun _ => []
  servers := fun server => ⟨servers server, none⟩
  soup := []

namespace Deployment

variable (deployment : Deployment Client Server)

/-- The reading of a client's clock at a true time. -/
def clientReading (client : Client) (time : ℤ) : Timeval :=
  .ofMicros (time + (deployment.clients client).ahead)

/-- The reading of a server's clock at a true time. -/
def serverReading (server : Server) (time : ℤ) : Timeval :=
  .ofMicros (time + deployment.ahead server)

/-- The datagram of a message. -/
def datagram : Message Client Server → Datagram
  | .request client _ pkt _ source => pkt.datagram (deployment.clients client).env.host source
  | .reply server _ _ _ sent =>
    sent.2.datagram (deployment.servers server).byteOrder (deployment.servers server).addr
  | .forged _ datagram => datagram

end Deployment

/-- The address a message is sent to. -/
def Message.destination : Message Client Server → SockaddrIn
  | .request _ _ _ addr _ => addr
  | .reply _ _ _ _ sent => sent.1
  | .forged destination _ => destination

/-- The message a client's call adds to the network, where it is sent from the given address. -/
def Event.message (client : Client) (index : ℕ) (source : SockaddrIn) :
    Event → List (Message Client Server)
  | .sendto _ pkt addr true => [.request client index pkt addr source]
  | _ => []

/-- The clock and the network bear the answer of a client's call out. -/
def BornOut (deployment : Deployment Client Server) (snapshot : Snapshot Client Server)
    (client : Client) : Event → Prop
  | .gettimeofday now => now = deployment.clientReading client snapshot.time
  | .recvfrom _ (some datagram) => ∃ message ∈ snapshot.soup,
      deployment.datagram message = datagram ∧
        (deployment.clients client).addrs message.destination
  | _ => True

variable [DecidableEq Client]

/-- The snapshot after a client's call, where a packet it sends comes from the given address. -/
def Snapshot.call (snapshot : Snapshot Client Server) (client : Client) (source : SockaddrIn)
    (event : Event) : Snapshot Client Server :=
  { snapshot with
    history := Function.update snapshot.history client
      (snapshot.history client ++ [(snapshot.time, event)])
    soup := snapshot.soup ++ event.message client (snapshot.history client).length source }

variable [DecidableEq Server]

/-- One event of the deployment. -/
inductive DeploymentStep (deployment : Deployment Client Server) :
    Snapshot Client Server → Snapshot Client Server → Prop
  | elapse {snapshot : Snapshot Client Server} (later : ℤ) : snapshot.time ≤ later →
      DeploymentStep deployment snapshot { snapshot with time := later }
  | call {snapshot : Snapshot Client Server} (client : Client) (event : Event)
      (source : SockaddrIn) :
      (snapshot.history client).map Prod.snd ++ [event] <+: (deployment.clients client).run →
      BornOut deployment snapshot client event → (deployment.clients client).addrs source →
      DeploymentStep deployment snapshot (snapshot.call client source event)
  | failure {snapshot : Snapshot Client Server} (server : Server) {next : ServerState} :
      (snapshot.servers server).pending = none →
      serverIteration (deployment.servers server).byteOrder (snapshot.servers server).state
        .failure = some (next, none) →
      DeploymentStep deployment snapshot
        { snapshot with servers := Function.update snapshot.servers server ⟨next, none⟩ }
  | receive {snapshot : Snapshot Client Server} (server : Server)
      (message : Message Client Server) : message ∈ snapshot.soup →
      deployment.reaches message.destination server →
      (snapshot.servers server).pending = none →
      DeploymentStep deployment snapshot
        { snapshot with
          servers := Function.update snapshot.servers server
            ⟨(snapshot.servers server).state, some (message, snapshot.time)⟩ }
  | answer {snapshot : Snapshot Client Server} (server : Server) {message : Message Client Server}
      {arrival : ℤ} {next : ServerState} {sent : Option Sent} :
      (snapshot.servers server).pending = some (message, arrival) →
      serverIteration (deployment.servers server).byteOrder (snapshot.servers server).state
        (.datagram (deployment.datagram message) (deployment.serverReading server arrival)
          (deployment.serverReading server snapshot.time)) = some (next, sent) →
      DeploymentStep deployment snapshot
        { snapshot with
          servers := Function.update snapshot.servers server ⟨next, none⟩
          soup := snapshot.soup ++
            sent.toList.map (.reply server message arrival snapshot.time) }
  | forge {snapshot : Snapshot Client Server} (destination : SockaddrIn) (datagram : Datagram) :
      DeploymentStep deployment snapshot
        { snapshot with soup := snapshot.soup ++ [.forged destination datagram] }

/-- The deployment gets to a snapshot, in any order of events. -/
def Arises (deployment : Deployment Client Server) (snapshot : Snapshot Client Server) : Prop :=
  ∃ time servers, Relation.ReflTransGen (DeploymentStep deployment) (.initial time servers) snapshot

end Sntp
