import Sntp.Model.ServerNetwork
import Sntp.Soundness.Responder
import Mathlib.Data.Multiset.Count
import Mathlib.Logic.Relation

/-! # Servers do not answer each other

A server answers client packets with server packets, and no server answers those. A reply therefore
uses up the datagram it answers and puts nothing in flight that is answered in turn: the replies
sent so far, together with the datagrams in flight that look like requests, never become more.
-/

namespace Sntp.ReplyStorm

open Machine Responder

instance : DecidablePred LooksLikeRequest := fun datagram =>
  decidable_of_iff (checkPacket (request .little datagram default) = 0)
    (checkPacket_request_eq_zero_iff ..)

/-- The datagrams in flight that a server would answer. -/
def pending {Host : Type} (network : Network Host) : ℕ :=
  network.inFlight.countP fun flight => LooksLikeRequest flight.datagram

/-- Every datagram in flight fits a packet. -/
def Fits {Host : Type} (network : Network Host) : Prop :=
  ∀ flight ∈ network.inFlight, flight.datagram.bytes.length ≤ sizeofNtpPacket

/-- A reply does not look like a request, whatever request it answers. -/
theorem not_looksLikeRequest_reply (host : ByteOrder) (source : SockaddrIn) (cReq : SntpRequest)
    (transmitTsNtp : NtpTime) :
    ¬ LooksLikeRequest ((createReplyPacket host cReq transmitTsNtp).datagram host source) := by
  rintro ⟨first, rest, same, client, -⟩
  obtain ⟨rfl, -⟩ := List.cons.inj same
  exact absurd ((reply_liVnMode cReq.pkt.liVnMode).1.symm.trans client) (by decide)

/-- No server answers a reply. -/
theorem serverIgnores_reply (reader writer : ByteOrder) (source : SockaddrIn) (cReq : SntpRequest)
    (transmitTsNtp : NtpTime) :
    ServerIgnores reader ((createReplyPacket writer cReq transmitTsNtp).datagram writer source) :=
  (serverIgnores_iff reader _ (NtpPacket.length_store ..).le).mpr
    (not_looksLikeRequest_reply writer source cReq transmitTsNtp)

section

variable {Host : Type} [DecidableEq Host] {hosts : Host → ServerHost}
  {reaches : SockaddrIn → Host → Prop}

/-- What a delivery to a host sends: a reply to what looks like a request, and nothing else. -/
private theorem sent_of_deliver {host : ServerHost} {state next : ServerState} {datagram : Datagram}
    {arrival transmit : Timeval} {sent : Option Sent}
    (fits : datagram.bytes.length ≤ sizeofNtpPacket)
    (turn : serverIteration host.byteOrder state (.datagram datagram arrival transmit) =
      some (next, sent)) :
    (¬ LooksLikeRequest datagram ∧ sent = none) ∨
      (LooksLikeRequest datagram ∧ ∃ cReq transmitTsNtp,
        sent = some (datagram.source, createReplyPacket host.byteOrder cReq transmitTsNtp)) := by
  obtain ⟨after, answer⟩ := serverIteration_responds host.byteOrder state
    (.datagram datagram arrival transmit) fits
  obtain ⟨-, rfl⟩ := Prod.mk.inj (Option.some.inj (turn.symm.trans answer))
  by_cases looks : LooksLikeRequest datagram
  · exact .inr ⟨looks, request host.byteOrder datagram arrival, getNtpTimeOfDay transmit,
      if_pos ((checkPacket_request_eq_zero_iff ..).mpr looks)⟩
  · refine .inl ⟨looks, ?_⟩
    rw [respond, if_neg fun accepted => looks ((checkPacket_request_eq_zero_iff ..).mp accepted)]

/-- A request that reaches a host can be delivered to it, and is answered. -/
theorem deliver_request (hosts : Host → ServerHost) (servers : Host → ServerState)
    (rest : Multiset Flight) (replies : ℕ) {flight : Flight} {host : Host} (reached : reaches flight.destination host)
    (fits : flight.datagram.bytes.length ≤ sizeofNtpPacket)
    (looks : LooksLikeRequest flight.datagram) :
    ∃ servers' cReq transmitTsNtp, NetworkStep hosts reaches ⟨servers, flight ::ₘ rest, replies⟩
      ⟨servers', Sent.flight (hosts host) (flight.datagram.source,
        createReplyPacket (hosts host).byteOrder cReq transmitTsNtp) ::ₘ rest, replies + 1⟩ := by
  obtain ⟨next, answer⟩ := serverIteration_responds (hosts host).byteOrder (servers host)
    (.datagram flight.datagram default default) fits
  rw [respond, if_pos ((checkPacket_request_eq_zero_iff ..).mpr looks)] at answer
  exact ⟨_, _, _, .deliver host default default reached answer⟩

/-- A datagram that reaches a host which ignores it can be delivered to it without effect. -/
theorem deliver_ignored (hosts : Host → ServerHost) (servers : Host → ServerState)
    (flight : Flight) (rest : Multiset Flight) (replies : ℕ) {host : Host} (reached : reaches flight.destination host)
    (ignored : ServerIgnores (hosts host).byteOrder flight.datagram) :
    ∃ servers', NetworkStep hosts reaches ⟨servers, flight ::ₘ rest, replies⟩
      ⟨servers', rest, replies⟩ := by
  obtain ⟨next, ignores⟩ := ignored (servers host) default default
  have delivered : NetworkStep hosts reaches ⟨servers, flight ::ₘ rest, replies⟩ _ :=
    .deliver host default default reached ignores
  rw [Option.toList_none, List.map_nil, Multiset.coe_nil, zero_add] at delivered
  exact ⟨_, delivered⟩

/-- A step keeps what is in flight short, and pays for a reply with a pending request. -/
private theorem step_bounded {before after : Network Host} (fits : Fits before)
    (step : NetworkStep hosts reaches before after) :
    Fits after ∧ after.replies + pending after ≤ before.replies + pending before := by
  cases step with
  | @lose servers flight rest replies =>
    refine ⟨fun other member => fits other (Multiset.mem_cons_of_mem member), ?_⟩
    simp only [pending, Multiset.countP_cons]
    omega
  | failure => exact ⟨fits, le_rfl⟩
  | @deliver servers flight rest replies host arrival transmit next sent reached turn =>
    have fits_rest (other : Flight) (member : other ∈ rest) :=
      fits other (Multiset.mem_cons_of_mem member)
    rcases sent_of_deliver (fits flight (Multiset.mem_cons_self ..)) turn with
      ⟨unlike, rfl⟩ | ⟨looks, cReq, transmitTsNtp, rfl⟩
    · refine ⟨by simpa [Fits] using fits_rest, ?_⟩
      simp [pending, unlike]
    · constructor
      · intro other member
        simp only [Option.toList_some, List.map_cons, List.map_nil, Multiset.coe_singleton,
          Multiset.singleton_add, Multiset.mem_cons] at member
        rcases member with rfl | member
        · exact (NtpPacket.length_store ..).le
        · exact fits_rest other member
      · have unlike := not_looksLikeRequest_reply (hosts host).byteOrder (hosts host).addr cReq
          transmitTsNtp
        simp [pending, looks, Sent.flight, unlike]
        omega

/-- A run keeps the bound. -/
private theorem run_bounded {initial final : Network Host} (fits : Fits initial)
    (run : Relation.ReflTransGen (NetworkStep hosts reaches) initial final) :
    Fits final ∧ final.replies + pending final ≤ initial.replies + pending initial := by
  induction run with
  | refl => exact ⟨fits, le_rfl⟩
  | tail _ step ih =>
    obtain ⟨fits', bounded⟩ := step_bounded ih.1 step
    exact ⟨fits', bounded.trans ih.2⟩

end

/-- However datagrams are delivered and lost, the servers of a network send at most one reply for
each datagram that was in flight at first, and none of them answers a reply. -/
theorem no_reply_storm {Host : Type} [DecidableEq Host] (hosts : Host → ServerHost)
    (reaches : SockaddrIn → Host → Prop) (servers : Host → ServerState) (inFlight : Multiset Flight)
    (final : Network Host)
    (fits : ∀ flight ∈ inFlight, flight.datagram.bytes.length ≤ sizeofNtpPacket)
    (run : Relation.ReflTransGen (NetworkStep hosts reaches) ⟨servers, inFlight, 0⟩ final) :
    final.replies ≤ Multiset.card inFlight ∧
      ∀ reader writer source cReq transmitTsNtp, ServerIgnores reader
        ((createReplyPacket writer cReq transmitTsNtp).datagram writer source) := by
  refine ⟨?_, serverIgnores_reply⟩
  have within : Fits ⟨servers, inFlight, 0⟩ := fits
  have bounded := (run_bounded within run).2
  have initially : pending ⟨servers, inFlight, 0⟩ ≤ Multiset.card inFlight :=
    Multiset.countP_le_card ..
  simp only [Nat.zero_add] at bounded
  omega

/-- Two servers, each reached by its own address. -/
def pair (host : Bool) : ServerHost := ⟨.little, ⟨31488, ⟨10, 0, 0, if host then 2 else 1⟩⟩⟩

def ownAddr (destination : SockaddrIn) (host : Bool) : Prop := destination = (pair host).addr

/-- A client request to one server that claims to come from the other. -/
def forged : Flight := ⟨(pair true).addr, (pair false).addr, List.replicate 48 0x23⟩

/-- The forged request is answered once, and its reply by nobody. -/
theorem no_reply_storm_forged :
    ∃ final, Relation.ReflTransGen (NetworkStep pair ownAddr)
        ⟨fun _ => ⟨default, fun _ => 0, default⟩, {forged}, 0⟩ final ∧
      final.inFlight = 0 ∧ 0 < final.replies ∧ final.replies ≤ 1 := by
  have fits : forged.datagram.bytes.length ≤ sizeofNtpPacket := by decide
  have looks : LooksLikeRequest forged.datagram := ⟨0x23, _, rfl, by decide, by decide, by decide⟩
  have reached : ownAddr forged.destination true := rfl
  obtain ⟨answering, cReq, transmitTsNtp, first⟩ := deliver_request pair
    (fun _ => ⟨default, fun _ => 0, default⟩) 0 0 reached fits looks
  have returned : ownAddr forged.datagram.source false := rfl
  obtain ⟨ignoring, second⟩ := deliver_ignored pair answering
    (Sent.flight (pair true) (forged.datagram.source, _)) 0 1 returned
    (serverIgnores_reply _ _ _ cReq transmitTsNtp)
  have run := (Relation.ReflTransGen.single first).tail second
  refine ⟨_, run, rfl, Nat.one_pos, ?_⟩
  have short : ∀ flight ∈ ({forged} : Multiset Flight),
      flight.datagram.bytes.length ≤ sizeofNtpPacket :=
    fun flight member => Multiset.mem_singleton.mp member ▸ fits
  exact (no_reply_storm pair ownAddr _ {forged} _ short run).1

end Sntp.ReplyStorm
