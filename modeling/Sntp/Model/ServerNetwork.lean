import Sntp.Model.Server
import Mathlib.Data.Multiset.Basic
import Mathlib.Logic.Function.Basic

/-! # A network of servers

Hosts that all run the server and exchange datagrams. A datagram in flight is received once, by a
host its destination reaches, or lost; a multicast destination may reach several hosts. A reply
whose `sendto` fails is one that is lost at once.
-/

namespace Sntp

open Machine

/-- A datagram in flight, with the address it is sent to. -/
structure Flight where
  destination : SockaddrIn
  datagram : Datagram
deriving DecidableEq, Repr

/-- A host that runs the server, and the address its datagrams come from. -/
structure ServerHost where
  byteOrder : ByteOrder
  addr : SockaddrIn
deriving DecidableEq, Repr

/-- What the hosts keep, what is in flight between them, and how many replies they have sent. -/
structure Network (Host : Type) where
  servers : Host → ServerState
  inFlight : Multiset Flight
  replies : ℕ

/-- A packet that a host has sent. -/
def Sent.flight (host : ServerHost) (sent : Sent) : Flight :=
  ⟨sent.1, sent.2.datagram host.byteOrder host.addr⟩

variable {Host : Type} [DecidableEq Host]

/-- One event of the network: a datagram is lost, a receive fails, or a datagram is delivered to a
host, which takes one turn of its loop. -/
inductive NetworkStep (hosts : Host → ServerHost) (reaches : SockaddrIn → Host → Prop) :
    Network Host → Network Host → Prop
  | lose {servers : Host → ServerState} {flight : Flight} {rest : Multiset Flight} {replies : ℕ} :
      NetworkStep hosts reaches ⟨servers, flight ::ₘ rest, replies⟩ ⟨servers, rest, replies⟩
  | failure {servers : Host → ServerState} {inFlight : Multiset Flight} {replies : ℕ} (host : Host)
      {next : ServerState} :
      serverIteration (hosts host).byteOrder (servers host) .failure = some (next, none) →
      NetworkStep hosts reaches ⟨servers, inFlight, replies⟩
        ⟨Function.update servers host next, inFlight, replies⟩
  | deliver {servers : Host → ServerState} {flight : Flight} {rest : Multiset Flight} {replies : ℕ}
      (host : Host) (arrival transmit : Timeval) {next : ServerState} {sent : Option Sent} :
      reaches flight.destination host →
      serverIteration (hosts host).byteOrder (servers host)
        (.datagram flight.datagram arrival transmit) = some (next, sent) →
      NetworkStep hosts reaches ⟨servers, flight ::ₘ rest, replies⟩
        ⟨Function.update servers host next,
          (sent.toList.map (Sent.flight (hosts host)) : List Flight) + rest,
          replies + sent.toList.length⟩

end Sntp
