import Sntp.Soundness.FreshReply
import Sntp.Soundness.Provenance
import Sntp.Soundness.ReplyStorm
import Sntp.Soundness.SampleOrigin

/-! # Every sample is that of a true exchange

The reply behind a sample of a deployment, unless someone forged it or the request it answers, is a
server's answer to the very request the client sent last: its own because replies go where requests
came from, the last because requests of one run are made in different seconds. The sample is therefore
computed from the readings of one exchange, taken in its order, and its error bound is good for them.
-/

namespace Sntp.GenuineSample

open Machine ClientMachine PollTimer Provenance Responder SampleOrigin

variable {Client Server : Type}

section Accuracy

/-- Encoding and decoding a reading gains at most a microsecond. -/
private theorem codecSlip_le (usec : ℤ) : codecSlip usec ≤ 1 := by
  rw [codecSlip]
  split_ifs <;> decide

/-- It loses nothing before the last microsecond of a second. -/
private theorem codecSlip_nonneg {usec : ℤ} (early : usec ≠ 999999) : 0 ≤ codecSlip usec := by
  rw [codecSlip, if_neg early]
  split_ifs <;> decide

/-- Unless the server takes the request in at the last microsecond of a second, the offset errs by no
more than its error bound and two microseconds. -/
theorem abs_offset_sub_le (course : Exchange.Course) (client server : ByteOrder)
    (clientMemory serverMemory : Memory) (clientAddr serverAddr : SockaddrIn)
    (range : course.InRange) (early : course.t2.tvUsec ≠ 999999) :
    let ts := course.report client server clientMemory serverMemory clientAddr serverAddr
    |calculateClockOffset ts - course.theta / 10 ^ 6| ≤ calculateErrorBound ts + 2 / 10 ^ 6 := by
  intro ts
  obtain ⟨seconds1, seconds2, seconds3, seconds4⟩ :=
    course.report_seconds client server clientMemory serverMemory clientAddr serverAddr range
  change |OffsetEstimate.offset ts.originateTimestamp.seconds ts.receiveTimestamp.seconds
      ts.transmitTimestamp.seconds ts.destinationTimestamp.seconds - course.theta / 10 ^ 6| ≤
    OffsetEstimate.delay ts.originateTimestamp.seconds ts.receiveTimestamp.seconds
      ts.transmitTimestamp.seconds ts.destinationTimestamp.seconds + 2 / 10 ^ 6
  rw [seconds1, seconds2, seconds3, seconds4, OffsetEstimate.abs_offset_sub_le_delay_add_iff]
  have slip1 : (codecSlip course.t1.tvUsec : ℚ) ≤ 1 := by exact_mod_cast codecSlip_le _
  have slip3 : (codecSlip course.t3.tvUsec : ℚ) ≤ 1 := by exact_mod_cast codecSlip_le _
  have slip2 : (0 : ℚ) ≤ codecSlip course.t2.tvUsec := by exact_mod_cast codecSlip_nonneg early
  have outbound : (0 : ℚ) ≤ course.requestDelay := by exact_mod_cast course.requestDelay_nonneg
  have inbound : (0 : ℚ) ≤ course.replyDelay := by exact_mod_cast course.replyDelay_nonneg
  constructor <;> linarith

end Accuracy

section Samples

/-- The true times of an exchange: of the reading its request is made of, of the readings of the
server, and of the reading after its reply. -/
structure Times where
  made : ℤ
  arrival : ℤ
  transmit : ℤ
  arrived : ℤ
  made_le : made ≤ arrival
  arrival_le : arrival ≤ transmit
  transmit_le : transmit ≤ arrived

/-- The course of an exchange between two hosts. -/
def Times.course (times : Times) (deployment : Deployment Client Server) (client : Client)
    (server : Server) : Exchange.Course where
  theta := deployment.ahead server - (deployment.clients client).ahead
  requestDelay := times.arrival - times.made
  processing := times.transmit - times.arrival
  replyDelay := times.arrived - times.transmit
  sendTime := times.made + (deployment.clients client).ahead
  requestDelay_nonneg := sub_nonneg.mpr times.made_le
  processing_nonneg := sub_nonneg.mpr times.arrival_le
  replyDelay_nonneg := sub_nonneg.mpr times.transmit_le

/-- The timestamps that the client computes with in an exchange. -/
def Times.report (times : Times) (deployment : Deployment Client Server) (client : Client)
    (server : Server) (source : SockaddrIn) : CoreTs :=
  (times.course deployment client server).report (deployment.clients client).env.host
    (deployment.servers server).byteOrder (fun _ => 0) (fun _ => 0) source
    (deployment.servers server).addr

/-- A sample is computed from an exchange with the server, which answered the latest request. -/
structure Genuine (deployment : Deployment Client Server) (client : Client)
    (before : List (ℤ × Event)) (message : Message Client Server) (offset errorBound : ℚ)
    (server : Server) (times : Times) (source : SockaddrIn) : Prop where
  answers : ∃ earlier time sockfd pkt addr later sent,
    before = earlier ++ (time, .sendto sockfd pkt addr true) :: later ∧
    (∀ entry ∈ later, entry.2.request = none) ∧
    message = .reply server (.request client earlier.length pkt addr source) times.arrival
      times.transmit sent
  made : (times.made, .gettimeofday (deployment.clientReading client times.made)) ∈ before
  arrived : (times.arrived, .gettimeofday (deployment.clientReading client times.arrived)) ∈ before
  offset : offset = calculateClockOffset (times.report deployment client server source)
  errorBound : errorBound = calculateErrorBound (times.report deployment client server source)

/-- What the client and its clock are relied on for. -/
structure Reliable (host : ClientHost) : Prop where
  pollWait_nonneg : 0 ≤ host.cSet.pollWait
  steady : Steady host.env.clock
  set : ∀ index, (host.env.clock index).tvSec ≠ -1

variable {deployment : Deployment Client Server}

/-- The datagram of an honest message is a packet. -/
private theorem length_of_honest {message : Message Client Server} (honest : message.Honest) :
    (deployment.datagram message).bytes.length ≤ sizeofNtpPacket := by
  cases message with
  | request | reply => exact (NtpPacket.length_store ..).le
  | forged => exact honest.elim

/-- What a server sends for a datagram that fits. -/
private theorem sent_eq {host : ByteOrder} {state next : ServerState} {datagram : Datagram}
    {arrival transmit : Timeval} {sent : Sent} (fits : datagram.bytes.length ≤ sizeofNtpPacket)
    (turn : serverIteration host state (.datagram datagram arrival transmit) =
      some (next, some sent)) :
    sent = (datagram.source,
      createReplyPacket host (request host datagram arrival) (getNtpTimeOfDay transmit)) := by
  obtain ⟨after, answer⟩ := serverIteration_responds host state (.datagram datagram arrival transmit) fits
  obtain ⟨-, answered⟩ := Prod.mk.inj (Option.some.inj (turn.symm.trans answer))
  rw [respond] at answered
  split at answered
  · exact Option.some.inj answered
  · simp at answered

/-- An honest message that looks like a server's answers a request. -/
private theorem exists_request {history : Client → List (ℤ × Event)} {latest : ℤ}
    {message : Message Client Server} (honest : message.Honest)
    (traceable : Traceable deployment history message latest)
    (created : ∀ (client : Client) (index : ℕ) (time sockfd : ℤ) (pkt : NtpPacket)
      (addr : SockaddrIn), (history client)[index]? = some (time, .sendto sockfd pkt addr true) →
      ∃ reading, pkt = createPacket (deployment.clients client).env.host (getNtpTimeOfDay reading))
    {host : ByteOrder}
    (replies : Sntp.mode ((deployment.datagram message).packet host).liVnMode = 4) :
    ∃ server client index pkt addr source arrival transmit sent,
      message = .reply server (.request client index pkt addr source) arrival transmit sent := by
  cases message with
  | request client index pkt addr source =>
    obtain ⟨⟨time, sockfd, -, entry⟩, -⟩ := traceable
    obtain ⟨reading, rfl⟩ := created _ _ _ _ _ _ entry
    rw [Deployment.datagram, NtpPacket.packet_datagram, NtpPacket.ofBytes_store_of_hosts] at replies
    exact absurd replies (show Sntp.mode ((4 : UInt8) <<< 3 ||| 3) ≠ 4 by decide)
  | reply server received arrival transmit sent =>
    cases received with
    | request client index pkt addr source => exact ⟨_, _, _, _, _, _, _, _, _, rfl⟩
    | forged => exact honest.elim
    | reply other asked _ _ answer =>
      -- A server ignores the reply of another.
      obtain ⟨⟨-, -, -, state, next, answered⟩, -, -, before, after, turn⟩ := traceable
      have honest : asked.Honest := honest
      rw [Deployment.datagram, sent_eq (length_of_honest honest) answered] at turn
      obtain ⟨ignored, silent⟩ := ReplyStorm.serverIgnores_reply (deployment.servers server).byteOrder
        (deployment.servers other).byteOrder (deployment.servers other).addr _ _ before _ _
      rw [silent] at turn
      simp at turn
  | forged => exact honest.elim

/-- The packet a client finds in the answer to its own request. -/
private theorem packet_answer (client server : ByteOrder) (pkt : NtpPacket)
    (source addr : SockaddrIn) (arrival transmit : Timeval) :
    ((createReplyPacket server (request server (pkt.datagram client source) arrival)
      (getNtpTimeOfDay transmit)).datagram server addr).packet client =
        Exchange.reply client server (fun _ => 0) (fun _ => 0) source addr
          (convertUnixTimeIntoNtpTime arrival) (getNtpTimeOfDay transmit) pkt := by
  simp only [Exchange.reply, Exchange.arrive, load_recieve]
  rfl

/-- The server's readings in the course of an exchange. -/
private theorem Times.t2_course (times : Times) (client : Client) (server : Server) :
    (times.course deployment client server).t2 = deployment.serverReading server times.arrival := by
  simp only [Exchange.Course.t2, Times.course, Deployment.serverReading]
  congr 1
  ring

private theorem Times.t3_course (times : Times) (client : Client) (server : Server) :
    (times.course deployment client server).t3 = deployment.serverReading server times.transmit := by
  simp only [Exchange.Course.t3, Times.course, Deployment.serverReading]
  congr 1
  ring

/-- The client's reading at the end of it. -/
private theorem Times.t4_course (times : Times) (client : Client) (server : Server) :
    (times.course deployment client server).t4 = deployment.clientReading client times.arrived := by
  simp only [Exchange.Course.t4, Times.course, Deployment.clientReading]
  congr 1
  ring

/-- The timestamps of the answer are those of the course. -/
private theorem servTs_answer (times : Times) (client : Client) (server : Server)
    (source : SockaddrIn) :
    servTs (deployment.clients client).env.host
      ((createReplyPacket (deployment.servers server).byteOrder
        (request (deployment.servers server).byteOrder
          ((createPacket (deployment.clients client).env.host
            (getNtpTimeOfDay (deployment.clientReading client times.made))).datagram
              (deployment.clients client).env.host source)
          (deployment.serverReading server times.arrival))
        (getNtpTimeOfDay (deployment.serverReading server times.transmit))).datagram
          (deployment.servers server).byteOrder (deployment.servers server).addr)
      (deployment.clientReading client times.arrived) =
        times.report deployment client server source := by
  rw [servTs, packet_answer, Times.report, Exchange.Course.report, times.t2_course, times.t3_course,
    times.t4_course]
  rfl

variable {snapshot : Snapshot Client Server}

/-- The history of a client is part of its run. -/
private theorem originates (valid : Valid deployment snapshot) (client : Client) :
    ((snapshot.history client).map Prod.snd).EachAfter
      (Originates (deployment.clients client).env.host) := by
  have run := clientMain_originates (deployment.clients client).env (deployment.clients client).cSet
    (deployment.clients client).fuel (deployment.clients client).ntpServers
    (deployment.clients client).offsetTotal (deployment.clients client).errorBoundTotal
    (deployment.clients client).ntoa (deployment.clients client).vars
  exact run.of_prefix (valid.run client)

/-- The requests of a history are made of readings. -/
private theorem request_created (valid : Valid deployment snapshot) (client : Client) (index : ℕ)
    (time sockfd : ℤ) (pkt : NtpPacket) (addr : SockaddrIn)
    (entry : (snapshot.history client)[index]? = some (time, .sendto sockfd pkt addr true)) :
    ∃ reading, pkt = createPacket (deployment.clients client).env.host (getNtpTimeOfDay reading) := by
  have asked : ((snapshot.history client).map Prod.snd)[index]? = some (.sendto sockfd pkt addr true) := by
    rw [List.getElem?_map, entry]
    rfl
  exact (originates valid client).of_getElem? asked

/-- The calls of an exchange with their true times. -/
def stamped (host : ByteOrder) (exchanged : Exchanged)
    (made timed set sent received arrived compared : ℤ) : List (ℤ × Event) :=
  [(made, .gettimeofday exchanged.request), (timed, .gettimeofday exchanged.timer),
    (set, .pollTimer exchanged.timer),
    (sent, .sendto exchanged.sockfd (exchanged.requestPkt host) exchanged.addr true),
    (received, .recvfrom exchanged.sockfd (some exchanged.reply)),
    (arrived, .gettimeofday exchanged.arrival),
    (compared, .compare exchanged.addr.sinAddr exchanged.reply.source.sinAddr exchanged.replyLast)]

/-- A sample is printed right after the calls of its exchange. -/
private theorem exists_exchanged (valid : Valid deployment snapshot) {client : Client}
    {before after : List (ℤ × Event)} {time : ℤ} {transmitTime : Timeval} {offset errorBound : ℚ}
    {name : Text} {addr : InAddr} {stratum : UInt8}
    (printed : snapshot.history client = before ++
      (time, .serverResults transmitTime offset errorBound name addr stratum) :: after) :
    ∃ (exchanged : Exchanged) (front : List (ℤ × Event)) (made timed set sent received arrived
      compared : ℤ),
      before = front ++ stamped (deployment.clients client).env.host exchanged made timed set sent
        received arrived compared ∧
      offset = calculateClockOffset (servTs (deployment.clients client).env.host exchanged.reply
        exchanged.arrival) ∧
      errorBound = calculateErrorBound (servTs (deployment.clients client).env.host exchanged.reply
        exchanged.arrival) ∧
      runSanityChecks (exchanged.requestPkt (deployment.clients client).env.host)
        (exchanged.reply.packet (deployment.clients client).env.host) = 0 := by
  obtain ⟨exchanged, earlier, split, sampled, passes⟩ :=
    originates valid client (before.map Prod.snd) _ (after.map Prod.snd) (by rw [printed]; simp; rfl)
  obtain ⟨front, calls, rfl, -, same⟩ := List.map_eq_append_iff.mp split
  simp only [Exchanged.sample, Event.serverResults.injEq] at sampled
  simp only [Exchanged.events, List.map_eq_cons_iff, List.map_eq_nil_iff] at same
  obtain ⟨⟨made, _⟩, _, rfl, rfl, ⟨timed, _⟩, _, rfl, rfl, ⟨set, _⟩, _, rfl, rfl, ⟨sent, _⟩, _, rfl,
    rfl, ⟨received, _⟩, _, rfl, rfl, ⟨arrived, _⟩, _, rfl, rfl, ⟨compared, _⟩, _, rfl, rfl, rfl⟩ := same
  exact ⟨exchanged, front, made, timed, set, sent, received, arrived, compared, rfl, sampled.2.1,
    sampled.2.2.1, passes⟩

/-- No request before an exchange has the transmit timestamp of its own. -/
private theorem transmitTimestamp_ne_exchanged {host : ClientHost} (reliable : Reliable host)
    {earlier : List Event} {exchanged : Exchanged}
    (run : earlier ++ exchanged.events host.env.host <+: host.run) {send : Event}
    (member : send ∈ earlier) {pkt : NtpPacket} {addr : SockaddrIn}
    (asked : send.request = some (pkt, addr)) :
    pkt.transmitTimestamp ≠ (exchanged.requestPkt host.env.host).transmitTimestamp := by
  have whole := clientMain_permitted reliable.steady reliable.set
    (FreshReply.discipline_freshness host.env reliable.pollWait_nonneg) host.fuel host.ntpServers
    host.offsetTotal host.errorBoundTotal host.ntoa host.vars
  have permitted := whole.of_prefix run
  let read : List Event := [.gettimeofday exchanged.request, .gettimeofday exchanged.timer]
  have timed : (earlier ++ read ++ [Event.pollTimer exchanged.timer]).latest Event.timer =
      some exchanged.timer := by
    rw [List.latest_concat]
    rfl
  obtain ⟨-, -, index, made, fresh⟩ := permitted (earlier ++ read ++ [.pollTimer exchanged.timer])
    (.sendto exchanged.sockfd (exchanged.requestPkt host.env.host) exchanged.addr true) _
    (by simp [Exchanged.events, read]; rfl) _ _ _ rfl timed
  obtain ⟨start, rfl, order⟩ := fresh send (by simp [member]) pkt addr asked
  rw [made]
  have near := reliable.steady.span start index
  exact FreshReply.transmitTimestamp_ne host.env.host order (by omega)

/-- A request that was sent before the reply of an exchange was received, with the transmit timestamp
of the exchange, is the one of the exchange. -/
private theorem request_of_exchanged (valid : Valid deployment snapshot) {client : Client}
    (reliable : Reliable (deployment.clients client)) {exchanged : Exchanged}
    {front rest : List (ℤ × Event)} {made timed set sent received arrived compared : ℤ}
    (printed : snapshot.history client = front ++ stamped (deployment.clients client).env.host
      exchanged made timed set sent received arrived compared ++ rest)
    {index : ℕ} {asked sockfd : ℤ} {pkt : NtpPacket} {target : SockaddrIn}
    (request : (snapshot.history client)[index]? = some (asked, .sendto sockfd pkt target true))
    (before : index < front.length + 4)
    (same : (exchanged.requestPkt (deployment.clients client).env.host).transmitTimestamp =
      pkt.transmitTimestamp) :
    index = front.length + 3 ∧ asked = sent ∧
      pkt = exchanged.requestPkt (deployment.clients client).env.host ∧ target = exchanged.addr := by
  have run := valid.run client
  rw [printed, List.append_assoc] at request run
  rcases lt_or_ge index front.length with earlier | late
  · rw [List.getElem?_append_left earlier] at request
    have member : Event.sendto sockfd pkt target true ∈ front.map Prod.snd :=
      List.mem_map.mpr ⟨_, List.mem_of_getElem? request, rfl⟩
    rw [← List.append_assoc, List.map_append, List.map_append] at run
    have first := transmitTimestamp_ne_exchanged reliable ((List.prefix_append ..).trans run) member rfl
    exact absurd same.symm first
  · obtain ⟨offset, rfl⟩ := Nat.exists_eq_add_of_le late
    rw [List.getElem?_append_right late, Nat.add_sub_cancel_left] at request
    -- Only the fourth call of an exchange is a request.
    rcases offset with _ | _ | _ | _ | offset
    · simp [stamped] at request
    · simp [stamped] at request
    · simp [stamped] at request
    · simp only [stamped, List.cons_append, List.getElem?_cons_succ, List.getElem?_cons_zero,
        Option.some.injEq, Prod.mk.injEq, Event.sendto.injEq] at request
      exact ⟨rfl, request.1.symm, request.2.2.1.symm, request.2.2.2.1.symm⟩
    · omega

/-- The offset of an exchange is that of the two clocks up to the error bound and two microseconds. -/
theorem Genuine.abs_sub_le {client : Client} {before : List (ℤ × Event)}
    {message : Message Client Server} {offset errorBound : ℚ} {server : Server} {times : Times}
    {source : SockaddrIn}
    (genuine : Genuine deployment client before message offset errorBound server times source)
    (range : (times.course deployment client server).InRange)
    (early : (deployment.serverReading server times.arrival).tvUsec ≠ 999999) :
    |offset - (deployment.ahead server - (deployment.clients client).ahead : ℤ) / 10 ^ 6| ≤
      errorBound + 2 / 10 ^ 6 := by
  rw [genuine.offset, genuine.errorBound]
  refine abs_offset_sub_le (times.course deployment client server) _ _ _ _ _ _ range ?_
  rwa [times.t2_course]

variable [DecidableEq Client] [DecidableEq Server]

/-- Calls are made in the order of the history. -/
private theorem entry_order (arises : Arises deployment snapshot) {client : Client}
    {first second : ℕ} (order : first < second) {past present : ℤ} {event other : Event}
    (earlier : (snapshot.history client)[first]? = some (past, event))
    (later : (snapshot.history client)[second]? = some (present, other)) : past ≤ present := by
  obtain ⟨before, valid, -, rfl, history, -⟩ := exists_call arises later
  have found : (before.history client)[first]? = some (past, event) := by
    rw [history, List.getElem?_take_of_lt order, earlier]
  exact valid.past client _ (List.mem_of_getElem? found)

/-- A reading of a client is its clock at that time. -/
private theorem eq_clientReading (arises : Arises deployment snapshot) {client : Client} {index : ℕ}
    {time : ℤ} {now : Timeval}
    (entry : (snapshot.history client)[index]? = some (time, .gettimeofday now)) :
    now = deployment.clientReading client time := by
  obtain ⟨_, -, -, rfl, -, same⟩ := exists_call arises entry
  exact same

/-- The calls of an exchange stand behind those before it. -/
private theorem entry_of_printed {history front rest : List (ℤ × Event)} {host : ByteOrder}
    {exchanged : Exchanged} {made timed set sent received arrived compared : ℤ}
    (printed : history = front ++ stamped host exchanged made timed set sent received arrived compared ++ rest)
    {index : ℕ} (bound : index < 7) : history[front.length + index]? =
      (stamped host exchanged made timed set sent received arrived compared)[index]? := by
  rw [printed, List.append_assoc, List.getElem?_append_right (by omega), Nat.add_sub_cancel_left,
    List.getElem?_append_left (by simpa [stamped] using bound)]

/-- Every sample printed in a deployment whose clients have addresses of their own comes from a
message of the network, and, unless someone else had a part in it, is computed from an exchange with
the server that answered the latest request of the client. -/
theorem samples_genuine (arises : Arises deployment snapshot)
    (reliable : ∀ client, Reliable (deployment.clients client))
    (separate : ∀ client other addr, (deployment.clients client).addrs addr →
      (deployment.clients other).addrs addr → client = other)
    {client : Client} {before after : List (ℤ × Event)} {time : ℤ} {transmitTime : Timeval}
    {offset errorBound : ℚ} {name : Text} {addr : InAddr} {stratum : UInt8}
    (printed : snapshot.history client = before ++
      (time, .serverResults transmitTime offset errorBound name addr stratum) :: after) :
    ∃ message ∈ snapshot.soup,
      (before.map Prod.snd).latest Event.datagram = some (deployment.datagram message) ∧
      (message.Honest → ∃ server times source,
        Genuine deployment client before message offset errorBound server times source) := by
  have valid := valid_of_arises arises
  obtain ⟨exchanged, front, made, timed, set, sentAt, received, arrived, compared, rfl, offset_eq,
    errorBound_eq, passes⟩ := exists_exchanged valid printed
  let host := (deployment.clients client).env.host
  have entry (index : ℕ) (bound : index < 7) := entry_of_printed printed bound
  obtain ⟨past, validPast, passed, rfl, history, message, member, replied, own⟩ :=
    exists_call arises (entry 4 (by decide))
  refine ⟨message, passed.soup.subset member, ?_, fun honest => ?_⟩
  · rw [List.map_append, List.latest_append, replied]
    rfl
  have traceable := validPast.soup message member
  have checks := (runSanityChecks_eq_zero_iff ..).mp passes
  rw [← replied] at checks
  obtain ⟨server, asker, index, pkt, target, source, arrival, transmit, sent, rfl⟩ :=
    exists_request honest traceable (request_created validPast) checks.2.2.2.1
  obtain ⟨⟨⟨asked, sockfd, askedBefore, request⟩, ownSource⟩, turn, transmitted, state, next, turned⟩ :=
    traceable
  have answer := sent_eq (NtpPacket.length_store ..).le turned
  rw [answer] at own replied checks
  obtain rfl : asker = client := separate _ _ _ ownSource own
  -- The request was sent before its reply was received.
  have before : index < front.length + 4 := by
    rw [history] at request
    obtain ⟨bound, -⟩ := List.getElem?_eq_some_iff.mp request
    exact (List.length_take_le ..).trans_lt' bound
  have copied : (exchanged.requestPkt host).transmitTimestamp = pkt.transmitTimestamp := by
    rw [checks.1]
    exact (congrArg NtpPacket.originateTimestamp (packet_answer ..)).trans
      (Exchange.reply_fields ..).2.2.1
  obtain ⟨rfl, rfl, rfl, rfl⟩ := request_of_exchanged valid (reliable asker) printed
    (entry_of_grown (passed.history asker) request) before copied
  have made_eq : exchanged.request = deployment.clientReading asker made :=
    eq_clientReading arises (entry 0 (by decide))
  have arrived_eq : exchanged.arrival = deployment.clientReading asker arrived :=
    eq_clientReading arises (entry 5 (by decide))
  let times : Times :=
    { made := made
      arrival := arrival
      transmit := transmit
      arrived := arrived
      made_le := (entry_order arises (by omega) (entry 0 (by decide))
        (entry 3 (by decide))).trans askedBefore
      arrival_le := turn
      transmit_le := transmitted.trans (entry_order arises (by omega) (entry 4 (by decide))
        (entry 5 (by decide))) }
  have report : servTs host exchanged.reply exchanged.arrival =
      times.report deployment asker server source := by
    rw [← replied, arrived_eq, ← servTs_answer]
    simp only [Deployment.datagram, Exchanged.requestPkt, made_eq]
    rfl
  refine ⟨server, times, source, ?_, ?_, ?_, by rw [offset_eq, report], by rw [errorBound_eq, report]⟩
  · refine ⟨front ++ [(made, .gettimeofday exchanged.request), (timed, .gettimeofday exchanged.timer),
      (set, .pollTimer exchanged.timer)], asked, exchanged.sockfd, exchanged.requestPkt host,
      exchanged.addr, (stamped host exchanged made timed set asked past.time arrived compared).drop 4,
      sent, ?_, ?_, ?_⟩
    · rw [List.append_assoc]
      rfl
    · simp [stamped, Event.request]
    · rw [List.length_append]
      rfl
  · simp [stamped, times, made_eq]
  · simp [stamped, times, arrived_eq]

end Samples

section Exchange

/-- A client and a server at addresses of their own, whose clocks stand at the same reading. -/
def now : Timeval := ⟨1000000000, 0⟩

def clientAddr : SockaddrIn := ⟨0, ⟨10, 0, 0, 2⟩⟩

def serverAddr : SockaddrIn := ⟨31488, ⟨10, 0, 0, 1⟩⟩

/-- The answer of the server to the request of the client. -/
def answer : Sent :=
  (clientAddr, createReplyPacket .little
    (request .little ((FreshReply.requestAt now).datagram .little clientAddr) now)
    (getNtpTimeOfDay now))

def onceSettings : ClientSettings := .defaults (.text (dotted serverAddr.sinAddr)) 0

def askingHost (cSet : ClientSettings) : ClientHost where
  env := .benign (fun _ => now) fun _ => some (answer.2.datagram .little serverAddr)
  cSet := cSet
  fuel := 3
  ntpServers := fun _ => .ntoaBuffer
  offsetTotal := 0
  errorBoundTotal := 0
  ntoa := []
  vars := ⟨0, 0, default⟩
  addrs := (· = clientAddr)
  ahead := 0

def twoHosts (cSet : ClientSettings) : Deployment Unit Unit where
  clients := fun _ => askingHost cSet
  servers := fun _ => ⟨.little, serverAddr⟩
  ahead := fun _ => 0
  reaches := fun _ _ => True

/-- The calls of the client up to its request, and those from the reply on. -/
def asking : List Event :=
  [.socket 3, .setsockopt 3 (.receiveTimeout ⟨10, 0⟩) true,
    .gethostbyaddr serverAddr.sinAddr (some ⟨dotted serverAddr.sinAddr, serverAddr.sinAddr⟩),
    .pollTimer ⟨-1, 0⟩, .gettimeofday now, .gettimeofday now, .pollTimer now,
    .sendto 3 (FreshReply.requestAt now) serverAddr true]

def hearing : List Event :=
  [.recvfrom 3 (some (answer.2.datagram .little serverAddr)), .gettimeofday now,
    .compare serverAddr.sinAddr serverAddr.sinAddr true,
    .serverResults now 0 0 (dotted serverAddr.sinAddr) serverAddr.sinAddr 2, .close 3]

/-- The record of a server that has received nothing. -/
def idle : ServerState := ⟨default, fun _ => 0, default⟩

/-- After the request is sent, taken in and answered, with the given record. -/
def answered (next : ServerState) : Snapshot Unit Unit :=
  let request : Message Unit Unit := .request () 7 (FreshReply.requestAt now) serverAddr clientAddr
  { time := now.micros
    history := fun _ => asking.map (now.micros, ·)
    servers := fun _ => ⟨next, none⟩
    soup := [request, .reply () request now.micros now.micros answer] }

/-- After the reply is received and the client has gone on with the given calls. -/
def heard (next : ServerState) (rest : List Event) : Snapshot Unit Unit :=
  (hearing ++ rest).foldl (·.call () clientAddr) (answered next)

private theorem update_unit {α : Type} (old : Unit → α) (new : α) :
    Function.update old () new = fun _ => new :=
  funext fun _ => Function.update_self ..

variable {cSet : ClientSettings}

/-- The clock stands at the reading. -/
private theorem reading_now : now = (twoHosts cSet).clientReading () now.micros := by
  show now = .ofMicros (now.micros + 0)
  decide

private theorem arises_answered (run : asking <+: (askingHost cSet).run) :
    ∃ next, Arises (twoHosts cSet) (answered next) := by
  have start : Arises (twoHosts cSet) (.initial now.micros fun _ => idle) := ⟨_, _, .refl⟩
  have own : ((twoHosts cSet).clients ()).addrs clientAddr := rfl
  have asked := arises_calls start () own asking run (by
    simp only [asking, List.forall_mem_cons]
    exact ⟨trivial, trivial, trivial, trivial, reading_now, reading_now, trivial, trivial, by simp⟩)
  have received := arises_step asked (.receive () (.request () 7 (FreshReply.requestAt now)
    serverAddr clientAddr) (by simp [asking, Snapshot.call, Event.message, Snapshot.initial]) trivial rfl)
  obtain ⟨next, turn⟩ := serverIteration_responds .little idle (.datagram
    ((FreshReply.requestAt now).datagram .little clientAddr) now now) (NtpPacket.length_store ..).le
  rw [respond, if_pos (by decide +kernel)] at turn
  have responded := arises_step received (.answer () rfl turn)
  refine ⟨next, ?_⟩
  convert responded using 1
  simp only [answered, asking, answer, request, Snapshot.call, update_unit, Snapshot.initial,
    Event.message, List.foldl_cons, List.foldl_nil, List.append_nil, List.nil_append,
    List.length_cons, List.length_nil, List.map_cons, List.map_nil,
    List.cons_append, Option.toList_some]
  rfl

/-- The rest of the run is born out as long as it makes no call that asks for an answer. -/
theorem arises_heard {rest : List Event} (run : asking ++ (hearing ++ rest) <+: (askingHost cSet).run)
    (unasked : ∀ event ∈ rest, ∀ snapshot, BornOut (twoHosts cSet) snapshot () event) :
    ∃ next, Arises (twoHosts cSet) (heard next rest) := by
  obtain ⟨next, arises⟩ := arises_answered ((List.prefix_append ..).trans run)
  refine ⟨next, arises_calls arises () rfl _ ?_ ?_⟩
  · simpa [answered, twoHosts] using run
  refine List.forall_mem_append.mpr ⟨?_, fun event member => unasked event member _⟩
  simp only [hearing, List.forall_mem_cons]
  exact ⟨⟨_, List.mem_cons_of_mem _ List.mem_cons_self, rfl, rfl⟩, reading_now, trivial, trivial,
    trivial, by simp⟩

theorem reliable_askingHost (nonneg : 0 ≤ cSet.pollWait) : Reliable (askingHost cSet) where
  pollWait_nonneg := nonneg
  steady := FreshReply.steady_const _ ⟨by decide, by decide⟩
  set := fun _ => show (1000000000 : ℤ) ≠ -1 by decide

/-- What the client has done when it prints the sample. -/
def sampling : List (ℤ × Event) := (asking ++ hearing.take 3).map (now.micros, ·)

private theorem run_once : (askingHost onceSettings).run = asking ++ hearing := by decide +kernel

end Exchange

end Sntp.GenuineSample
