import Sntp.Proofs.PacketChecks

/-! # The server loop refines a memoryless responder

The responder answers each receive event on its own: a datagram that passes `check_packet` gets
one reply to its source, anything else gets none. The loop keeps one request record for all
datagrams, but the receive clears the packet, the source address and the arrival time are written
on every success, and nothing else of the record reaches a reply. Its replies are therefore those
of the responder, whatever the record held before and whatever came earlier.
-/

namespace Sntp.Responder

open Machine

variable (host : ByteOrder)

/-- The request record a datagram gives rise to, from nothing but the datagram and its arrival. -/
def request (datagram : Datagram) (arrival : Timeval) : SntpRequest where
  client := datagram.source
  pkt := datagram.packet host
  timeOfRequest := convertUnixTimeIntoNtpTime arrival

/-- The memoryless answer to one receive event. -/
def respond : ServerInput → Option Sent
  | .failure => none
  | .datagram datagram arrival transmit =>
    if checkPacket (request host datagram arrival) = 0 then
      some (datagram.source,
        createReplyPacket host (request host datagram arrival) (getNtpTimeOfDay transmit))
    else none

/-- The datagram of a receive event fits the packet. -/
def Short : ServerInput → Prop
  | .failure => True
  | .datagram datagram _ _ => datagram.bytes.length ≤ sizeofNtpPacket

private theorem stored_fits {datagram : Datagram}
    (short : datagram.bytes.length ≤ sizeofNtpPacket) : ¬ requestRoom < datagram.stored.length := by
  simp only [Datagram.stored, List.length_take, requestRoom, sizeofNtpPacket] at *
  omega

/-- Once its fields are written, the record holds the request of the datagram alone. -/
theorem clientReq_written (state : ServerState) (datagram : Datagram) (arrival : Timeval) :
    let received := recieveSntpPacket state.memory 0 state.client state.requestTUnix
      (some (datagram, arrival))
    ServerState.clientReq host
      { client := received.addr
        memory := received.memory.write timeOfRequestOffset
          ((convertUnixTimeIntoNtpTime received.destTime).store host)
        requestTUnix := received.destTime } = request host datagram arrival := by
  intro received
  have time := received.memory.read_write_self timeOfRequestOffset
    ((convertUnixTimeIntoNtpTime arrival).store host)
  rw [NtpTime.length_store] at time
  have packet : (received.memory.write timeOfRequestOffset
      ((convertUnixTimeIntoNtpTime arrival).store host)).read 0 sizeofNtpPacket =
        received.memory.read 0 sizeofNtpPacket :=
    received.memory.read_write_of_disjoint (Or.inl (by decide))
  have loaded := load_recieve host state.memory 0 state.client state.requestTUnix arrival datagram
  rw [NtpPacket.load] at loaded
  rw [ServerState.clientReq, request, SntpRequest.mk.injEq, NtpPacket.load]
  refine ⟨rfl, ?_, ?_⟩
  · exact (congrArg (NtpPacket.ofBytes host) packet).trans loaded
  · exact (congrArg (NtpTime.ofBytes host) time).trans (NtpTime.ofBytes_store host _)

/-- One iteration answers as the responder does, from every state of the record. -/
theorem serverIteration_responds (state : ServerState) (input : ServerInput) (short : Short input) :
    ∃ next, serverIteration host state input = some (next, respond host input) := by
  cases input with
  | failure => exact ⟨_, rfl⟩
  | datagram datagram arrival transmit =>
    simp only [serverIteration, if_neg (stored_fits short), clientReq_written, respond]
    by_cases accepted : checkPacket (request host datagram arrival) = 0
    · simp only [ne_eq, accepted, not_true_eq_false, ↓reduceIte]
      exact ⟨_, rfl⟩
    · simp only [ne_eq, accepted, not_false_eq_true, ↓reduceIte]
      exact ⟨_, rfl⟩

/-- A run of the loop sends exactly the responder's answers, in order. -/
theorem serverLoop_responds (state : ServerState) (inputs : List ServerInput)
    (short : ∀ input ∈ inputs, Short input) :
    serverLoop host state inputs = some (inputs.filterMap (respond host)) := by
  induction inputs generalizing state with
  | nil => rfl
  | cons input rest ih =>
    obtain ⟨next, step⟩ := serverIteration_responds host state input (short input List.mem_cons_self)
    have later := ih next fun other member => short other (List.mem_cons_of_mem _ member)
    simp only [serverLoop, step, later, Option.bind_eq_bind, Option.bind_some, Option.pure_def,
      List.filterMap_cons]
    cases respond host input <;> rfl

/-- What a reply owes to the datagram it answers: the destination, the copied fields, the fixed
mode, and the two encoded clock readings. -/
structure Answers (datagram : Datagram) (arrival transmit : Timeval) (sent : Sent) : Prop where
  destination : sent.1 = datagram.source
  originate : sent.2.originateTimestamp = (datagram.packet host).transmitTimestamp
  version : version sent.2.liVnMode = version (datagram.packet host).liVnMode
  poll : sent.2.poll = (datagram.packet host).poll
  mode : mode sent.2.liVnMode = 4
  receive : sent.2.receiveTimestamp = (convertUnixTimeIntoNtpTime arrival).hton host
  transmit : sent.2.transmitTimestamp = (getNtpTimeOfDay transmit).hton host

/-- The mode and version bits of a reply, for every byte of a request. -/
theorem reply_liVnMode (liVnMode : UInt8) :
    Sntp.mode ((Sntp.version liVnMode <<< 3) ||| 4) = 4 ∧
      Sntp.version ((Sntp.version liVnMode <<< 3) ||| 4) = Sntp.version liVnMode := by
  have all : ∀ bits : Fin 256,
      Sntp.mode ((Sntp.version (.ofFin bits) <<< 3) ||| 4) = 4 ∧
        Sntp.version ((Sntp.version (.ofFin bits) <<< 3) ||| 4) = Sntp.version (.ofFin bits) := by
    decide +kernel
  exact all liVnMode.toFin

theorem answers_createReplyPacket (datagram : Datagram) (arrival transmit : Timeval) :
    Answers host datagram arrival transmit (datagram.source,
      createReplyPacket host (request host datagram arrival) (getNtpTimeOfDay transmit)) where
  destination := rfl
  originate := rfl
  version := (reply_liVnMode _).2
  poll := rfl
  mode := (reply_liVnMode _).1
  receive := rfl
  transmit := rfl

/-- `check_packet` accepts the datagram of a receive event. -/
def accepts : ServerInput → Bool
  | .failure => false
  | .datagram datagram arrival _ => checkPacket (request host datagram arrival) = 0

/-- A reply answers the receive event it was sent for. -/
def Answered (input : ServerInput) (sent : Sent) : Prop :=
  ∃ datagram arrival transmit,
    input = .datagram datagram arrival transmit ∧ Answers host datagram arrival transmit sent

theorem respond_of_accepts {input : ServerInput} (accepted : accepts host input = true) :
    ∃ sent, respond host input = some sent ∧ Answered host input sent := by
  cases input with
  | failure => simp [accepts] at accepted
  | datagram datagram arrival transmit =>
    have checked : checkPacket (request host datagram arrival) = 0 := by simpa [accepts] using accepted
    exact ⟨_, if_pos checked, datagram, arrival, transmit, rfl, answers_createReplyPacket ..⟩

theorem respond_of_not_accepts {input : ServerInput} (rejected : accepts host input = false) :
    respond host input = none := by
  cases input with
  | failure => rfl
  | datagram datagram arrival transmit =>
    exact if_neg (by simpa [accepts] using rejected)

/-- The responder's answers pair up, in order, with the accepted events. -/
theorem forall₂_respond (inputs : List ServerInput) :
    List.Forall₂ (Answered host) (inputs.filter (accepts host)) (inputs.filterMap (respond host)) := by
  induction inputs with
  | nil => exact .nil
  | cons input rest ih =>
    cases accepted : accepts host input with
    | false =>
      rw [List.filter_cons_of_neg (by simp [accepted]),
        List.filterMap_cons_none (respond_of_not_accepts host accepted)]
      exact ih
    | true =>
      obtain ⟨sent, responded, answered⟩ := respond_of_accepts host accepted
      rw [List.filter_cons_of_pos accepted, List.filterMap_cons_some responded]
      exact .cons answered ih

/-- The server answers exactly the accepted datagrams, in order and each with what it owes to that
datagram, and its replies are a function of the single receive events, whatever the request record
held before the run. -/
theorem serverLoop_faithful (inputs : List ServerInput) (short : ∀ input ∈ inputs, Short input) :
    ∃ sends : List Sent,
      (∀ state, serverLoop host state inputs = some sends) ∧
      List.Forall₂ (Answered host) (inputs.filter (accepts host)) sends ∧
      sends = inputs.filterMap (respond host) :=
  ⟨inputs.filterMap (respond host), fun state => serverLoop_responds host state inputs short,
    forall₂_respond host inputs, rfl⟩

/-- A failure, a version 4 client request and a truncated datagram. -/
theorem serverLoop_faithful_run :
    ∃ sends : List Sent,
      (∀ state, serverLoop .little state
        [.failure, .datagram ⟨default, List.replicate 48 0x23⟩ ⟨0, 0⟩ ⟨0, 1⟩,
          .datagram ⟨default, [0x24]⟩ ⟨1, 0⟩ ⟨1, 1⟩] = some sends) ∧
      List.Forall₂ (Answered .little) (List.filter (accepts .little)
        [.failure, .datagram ⟨default, List.replicate 48 0x23⟩ ⟨0, 0⟩ ⟨0, 1⟩,
          .datagram ⟨default, [0x24]⟩ ⟨1, 0⟩ ⟨1, 1⟩]) sends ∧
      sends = List.filterMap (respond .little)
        [.failure, .datagram ⟨default, List.replicate 48 0x23⟩ ⟨0, 0⟩ ⟨0, 1⟩,
          .datagram ⟨default, [0x24]⟩ ⟨1, 0⟩ ⟨1, 1⟩] :=
  serverLoop_faithful .little _ (by simp [Short, sizeofNtpPacket])

/-- The first byte is that of a client request. -/
def LooksLikeRequest (datagram : Datagram) : Prop :=
  ∃ first rest, datagram.bytes = first :: rest ∧ mode first = 3 ∧ 1 ≤ version first ∧
    version first ≤ 4

/-- One iteration of the server loop sends nothing, whatever its state and the clock. -/
def ServerIgnores (host : ByteOrder) (datagram : Datagram) : Prop :=
  ∀ state arrival transmit, ∃ next,
    serverIteration host state (.datagram datagram arrival transmit) = some (next, none)

/-- `check_packet` accepts what looks like a request. -/
theorem checkPacket_request_eq_zero_iff (datagram : Datagram) (arrival : Timeval) :
    checkPacket (request host datagram arrival) = 0 ↔ LooksLikeRequest datagram := by
  have first : (request host datagram arrival).pkt.liVnMode = datagram.bytes.getD 0 0 := rfl
  rw [checkPacket_eq_zero_iff, first, LooksLikeRequest]
  cases datagram.bytes with
  | nil => exact iff_of_false (fun accepted => absurd accepted.1 (by decide)) (by simp)
  | cons first rest => simp

/-- The server ignores a datagram that fits its packet exactly when the first byte is not that of a
client request. -/
theorem serverIgnores_iff (datagram : Datagram)
    (short : datagram.bytes.length ≤ sizeofNtpPacket) :
    ServerIgnores host datagram ↔ ¬ LooksLikeRequest datagram := by
  have responds (state : ServerState) (arrival transmit : Timeval) :=
    serverIteration_responds host state (.datagram datagram arrival transmit) short
  constructor
  · intro ignores looks
    let idle : ServerState := ⟨default, fun _ => 0, default⟩
    obtain ⟨next, silent⟩ := ignores idle default default
    obtain ⟨after, answer⟩ := responds idle default default
    rw [silent, respond, if_pos ((checkPacket_request_eq_zero_iff ..).mpr looks)] at answer
    simp at answer
  · intro unlike state arrival transmit
    obtain ⟨next, answer⟩ := responds state arrival transmit
    refine ⟨next, answer.trans ?_⟩
    rw [respond, if_neg fun accepted => unlike ((checkPacket_request_eq_zero_iff ..).mp accepted)]

end Sntp.Responder
