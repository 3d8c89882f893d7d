import Sntp.Proofs.Observations

/-! # Whose reply a sample is computed from

The listening loop of `unicast_mode` is meant to pass over datagrams from other hosts. The address
comparison it relies on reports every two addresses equal, so a sample is computed from the first
reply that passes the sanity checks, and it comes from the queried server exactly when no other
host's datagram passes them.
-/

namespace Sntp.QueriedServer

open Machine

/-- The four timestamps of a reply that arrives at the given time. -/
def coreTs (host : ByteOrder) (reply : Datagram) (arrival : Timeval) : CoreTs :=
  getTimestampsFromPacketInEpochTime host (reply.packet host)
    { originateTimestamp := default, receiveTimestamp := default, transmitTimestamp := default
      destinationTimestamp := arrival }

/-- The sample in `final` is computed from `reply`, the last datagram received, and `queried` is
where the last request was sent. -/
structure Sample (env : Env) (final : World) (queried : SockaddrIn) (reply : Datagram) : Prop where
  asked : ∃ pkt, final.trace.latest Event.request = some (pkt, queried)
  received : final.trace.latest Event.datagram = some reply
  computed : ∃ arrival, final.trace.latest Event.reading = some arrival ∧
    final.vars.offset = calculateClockOffset (coreTs env.host reply arrival) ∧
    final.vars.errorBound = calculateErrorBound (coreTs env.host reply arrival)

/-- A successful run has its sample from the server it queried. -/
def BelievesQueried (env : Env) (code : ℤ) (final : World) : Prop :=
  code = 0 → ∃ queried reply, Sample env final queried reply ∧
    reply.source.sinAddr = queried.sinAddr

/-- A datagram that passes the sanity checks against the request in force. -/
def Passes (env : Env) (before : List Event) (event : Event) (queried : SockaddrIn)
    (reply : Datagram) : Prop :=
  event.datagram = some reply ∧ ∃ pkt, before.latest Event.request = some (pkt, queried) ∧
    runSanityChecks pkt (reply.packet env.host) = 0

/-- No host but the queried one sends a datagram that passes the sanity checks. -/
def PassesFromQueried (env : Env) (before : List Event) (event : Event) : Prop :=
  ∀ queried reply, Passes env before event queried reply → reply.source.sinAddr = queried.sinAddr

private def Refused (env : Env) (before : List Event) (event : Event) : Prop :=
  ∀ queried reply, ¬ Passes env before event queried reply

private theorem Refused.passesFromQueried {env : Env} (before : List Event) (event : Event)
    (refused : Refused env before event) : PassesFromQueried env before event :=
  fun queried reply passes => absurd passes (refused queried reply)

private theorem concerns_refused (env : Env) : List.Concerns Event.datagram (Refused env) := by
  rintro before event none queried reply ⟨datagram, -⟩
  simp [none] at datagram

private theorem refused_quiet {env : Env} {trace : List Event}
    (refused : trace.EachAfter (Refused env)) {event : Event} (quiet : event.datagram = none) :
    (trace ++ [event]).EachAfter (Refused env) :=
  refused.concat_of_none (concerns_refused env) quiet

/-- A trace that ends with the arrival of a reply that passes, everything before being refused. -/
private def Accepted (env : Env) (trace : List Event) (queried : SockaddrIn) (reply : Datagram)
    (arrival : Timeval) : Prop :=
  ∃ before sockfd compared,
    trace = before ++ [.recvfrom sockfd (some reply)] ++ [.gettimeofday arrival] ++
      [.compare queried.sinAddr reply.source.sinAddr compared] ∧
    before.EachAfter (Refused env) ∧
    Passes env before (.recvfrom sockfd (some reply)) queried reply

section

variable {env : Env} {cSet : ClientSettings} {sockfd : ℤ} {userver : HostInfo} {world : World}

private theorem refused_setUp {final : World} (refused : world.trace.EachAfter (Refused env))
    (setUp : SetUp world final) : final.trace.EachAfter (Refused env) :=
  setUp.eachAfter (concerns_refused env) (fun _ => Event.SetsUp.datagram_eq_none) refused

private theorem refused_asked {addr : SockaddrIn} {success : Bool} {request : NtpPacket}
    {asked : World} (refused : world.trace.EachAfter (Refused env))
    (step : Asked env cSet.pollWait sockfd addr success world request asked) :
    asked.trace.EachAfter (Refused env) :=
  step.eachAfter (concerns_refused env) (fun _ => rfl) (fun _ => rfl) rfl refused

/-- A turn of the retry loop refuses its datagram or ends with it. -/
private theorem refused_attempt {retryCount : ℤ}
    {result : EStateM.Result Stop World (ℤ ⊕ Option Received)}
    (refused : world.trace.EachAfter (Refused env))
    (step : AttemptStep env cSet.pollWait sockfd userver retryCount world result) :
    match result with
    | .ok (.inr (some received)) final => ∃ reply arrival,
        received = reply.received arrival ∧ Accepted env final.trace userver.addr reply arrival
    | .ok _ final => final.trace.EachAfter (Refused env)
    | .error _ _ => True := by
  cases step with
  | exhausted => exact refused
  | waiting => exact refused_quiet refused rfl
  | unsent asked => exact refused_quiet (refused_asked refused asked) rfl
  | unanswered asked => exact refused_quiet (refused_quiet (refused_asked refused asked) rfl) rfl
  | unfinished | overrun => trivial
  | rejected datagram replyLast asked fails =>
    refine refused_quiet (refused_quiet (refused_quiet
      (List.eachAfter_concat.mpr ⟨refused_asked refused asked, ?_⟩) rfl) rfl) rfl
    rintro queried reply ⟨received, pkt, inForce, passes⟩
    obtain rfl : datagram = reply := Option.some.inj received
    obtain ⟨rfl, -⟩ := Prod.mk.inj (Option.some.inj (asked.latest_request.symm.trans inForce))
    exact fails passes
  | accepted datagram replyLast asked passes =>
    have before := refused_asked refused asked
    exact ⟨datagram, _, rfl, _, sockfd, replyLast, rfl, before, rfl, _, asked.latest_request, passes⟩

/-- Reporting an accepted reply makes it the sample; the condition is then about its source alone,
because every other datagram was refused. -/
private theorem report_accepted {reply : Datagram} {arrival : Timeval}
    (accepted : Accepted env world.trace userver.addr reply arrival) :
    let final := world.sample env sockfd userver (reply.received arrival)
    Sample env final userver.addr reply ∧
      (final.trace.EachAfter (PassesFromQueried env) ↔
        reply.source.sinAddr = userver.addr.sinAddr) := by
  obtain ⟨before, socket, replyLast, trace, refused, passes⟩ := accepted
  obtain ⟨pkt, inForce, -⟩ := passes.2
  have quiet (prior : List Event) {event : Event} (none : event.datagram = none) :
      PassesFromQueried env prior event :=
    Refused.passesFromQueried prior event (concerns_refused env prior event none)
  obtain ⟨_, _, _, _, _, reported⟩ :=
    world.trace_sample env sockfd userver (reply.received arrival)
  constructor
  · refine ⟨⟨pkt, ?_⟩, ?_, arrival, ?_, ?_, ?_⟩
    · simp only [reported, trace, List.latest_concat, Event.request, inForce, Option.none_or]
    · simp only [reported, trace, List.latest_concat, Event.datagram, Option.none_or, Option.some_or]
    · simp only [reported, trace, List.latest_concat, Event.reading, Option.none_or, Option.some_or]
    · rw [World.vars_sample, Received.servTs, Datagram.load_received, Datagram.destTime_received,
        coreTs]
    · rw [World.vars_sample, Received.servTs, Datagram.load_received, Datagram.destTime_received,
        coreTs]
  · simp only [reported, trace, List.eachAfter_concat]
    constructor
    · rintro ⟨⟨⟨⟨⟨-, accepted⟩, -⟩, -⟩, -⟩, -⟩
      exact accepted _ _ passes
    · intro same
      refine ⟨⟨⟨⟨⟨refused.mono Refused.passesFromQueried, ?_⟩, quiet _ rfl⟩, quiet _ rfl⟩,
        quiet _ rfl⟩, quiet _ rfl⟩
      rintro queried other ⟨received, request, latest, -⟩
      obtain rfl : reply = other := Option.some.inj received
      obtain ⟨-, rfl⟩ := Prod.mk.inj (Option.some.inj (inForce.symm.trans latest))
      exact same

/-- A run ends without a sample, having refused every datagram, or reports the one it accepted. -/
private theorem unicastMode_outcome (fuel : ℕ) (refused : world.trace.EachAfter (Refused env)) :
    Wp (unicastMode env cSet fuel)
      (fun code final => (code ≠ 0 ∧ final.trace.EachAfter (Refused env)) ∨
        code = 0 ∧ ∃ queried reply, Sample env final queried reply ∧
          (final.trace.EachAfter (PassesFromQueried env) ↔
            reply.source.sinAddr = queried.sinAddr))
      (fun _ _ => True) world := by
  apply wp_unicastMode_cases
  · exact fun _ => .inl ⟨by decide, refused_quiet refused rfl⟩
  · exact fun code _ final nonzero _ opened => .inl ⟨nonzero, refused_setUp refused opened.setUp⟩
  intro sockfd userver ready _ opened _
  have refused := refused_setUp refused opened.setUp
  refine wp_loop (fun _ state => state.trace.EachAfter (Refused env)) ?_ (fun _ _ _ => trivial) fuel 1
    (refused_quiet refused rfl)
  intro retryCount state refused
  refine (wp_attempt fuel retryCount).mono ?_ fun _ _ _ => trivial
  intro next final step
  have kept := refused_attempt refused step
  rcases next with retry | none | received
  · exact kept
  · exact .inl ⟨by decide, kept⟩
  · obtain ⟨reply, arrival, rfl, accepted⟩ := kept
    exact .inr ⟨rfl, userver.addr, reply, report_accepted accepted⟩

end

/-- `is_same_ipaddr` tells two addresses apart as it should exactly when they are equal, because it
always returns zero. -/
theorem isSameIpaddr_faithful_iff (env : Env) (sentAddr replyAddr : SockaddrIn) (world : World) :
    (∀ code final, isSameIpaddr env sentAddr replyAddr world = .ok code final →
      (code = 0 ↔ sentAddr.sinAddr = replyAddr.sinAddr)) ↔ sentAddr.sinAddr = replyAddr.sinAddr := by
  have rule : Wp (isSameIpaddr env sentAddr replyAddr) (fun code _ => code = 0) (fun _ _ => False)
      world := (wp_isSameIpaddr ..).mpr rfl
  constructor
  · intro faithful
    cases returned : isSameIpaddr env sentAddr replyAddr world with
    | ok code final => exact (faithful code final returned).mp (rule.of_ok returned)
    | error stop final => exact (rule.of_error returned).elim
  · exact fun same code final returned => iff_of_true (rule.of_ok returned) same

/-- A returned run believes the server it queried exactly when no other host's datagram passes the
sanity checks, and two addresses compare as they should exactly when they are equal. -/
theorem unicastMode_believes_queried_iff (env : Env) (cSet : ClientSettings) (fuel : ℕ) (ntoa : Text)
    (vars : SampleVars) (code : ℤ) (final : World) (sentAddr replyAddr : SockaddrIn) (world : World)
    (returned : unicastMode env cSet fuel ⟨ntoa, vars, []⟩ = .ok code final) :
    (BelievesQueried env code final ↔ final.trace.EachAfter (PassesFromQueried env)) ∧
    ((∀ code final, isSameIpaddr env sentAddr replyAddr world = .ok code final →
      (code = 0 ↔ sentAddr.sinAddr = replyAddr.sinAddr)) ↔ sentAddr.sinAddr = replyAddr.sinAddr) := by
  refine ⟨?_, isSameIpaddr_faithful_iff env sentAddr replyAddr world⟩
  rcases (unicastMode_outcome fuel (List.eachAfter_nil _)).of_ok returned with
    ⟨nonzero, refused⟩ | ⟨rfl, queried, reply, sample, condition⟩
  · exact iff_of_true (fun zero => absurd zero nonzero) (refused.mono Refused.passesFromQueried)
  · rw [condition]
    constructor
    · intro believes
      obtain ⟨other, second, sample', same⟩ := believes rfl
      obtain ⟨pkt, asked⟩ := sample.asked
      obtain ⟨pkt', asked'⟩ := sample'.asked
      obtain ⟨-, rfl⟩ := Prod.mk.inj (Option.some.inj (asked.symm.trans asked'))
      obtain rfl := Option.some.inj (sample.received.symm.trans sample'.received)
      exact same
    · exact fun same _ => ⟨queried, reply, sample, same⟩

/-- The clock of the runs below. -/
def noon : Timeval := ⟨1000000000, 0⟩

def queriedAddr : InAddr := ⟨10, 0, 0, 1⟩

def foreignAddr : SockaddrIn := ⟨0, ⟨10, 0, 0, 2⟩⟩

/-- A reply to the client's request, sent from the given address. -/
def replyFrom (source : SockaddrIn) : Datagram :=
  (createReplyPacket .little
    ⟨default, createPacket .little (getNtpTimeOfDay noon), getNtpTimeOfDay noon⟩
    (getNtpTimeOfDay noon)).datagram .little source

def sampleEnv (source : SockaddrIn) : Env :=
  .benign (fun _ => noon) fun _ => some (replyFrom source)

def sampleRun (source : SockaddrIn) : EStateM.Result Stop World ℤ :=
  unicastMode (sampleEnv source) (.defaults (.text (dotted queriedAddr)) 0) 2
    ⟨[], ⟨0, 0, default⟩, []⟩

/-- A run that only the queried server answers believes it. -/
theorem unicastMode_believes_queried_iff_answered :
    BelievesQueried (sampleEnv ⟨0, queriedAddr⟩) 0 (finalWorld (sampleRun ⟨0, queriedAddr⟩)) := by
  have returned : sampleRun ⟨0, queriedAddr⟩ = .ok 0 (finalWorld (sampleRun ⟨0, queriedAddr⟩)) :=
    eq_ok_of_returnValue (by decide +kernel)
  refine (unicastMode_believes_queried_iff _ _ _ _ _ _ _ foreignAddr foreignAddr
    ⟨[], ⟨0, 0, default⟩, []⟩ returned).1.mpr ?_
  have queriedOnly : ∀ event ∈ (finalWorld (sampleRun ⟨0, queriedAddr⟩)).trace,
      event.datagram.all (fun reply => reply.source.sinAddr = queriedAddr) ∧
        event.request.all (fun request => request.2.sinAddr = queriedAddr) := by decide +kernel
  rintro before event after split queried reply ⟨received, pkt, asked, -⟩
  obtain ⟨send, member, request⟩ := List.exists_mem_of_latest asked
  have source := (queriedOnly event (by simp [split])).1
  have target := (queriedOnly send (by simp [split, member])).2
  simp only [received, request, Option.all_some, decide_eq_true_eq] at source target
  rw [source, target]

/-- A run that another host answers believes the other host, and the comparison finds its address
equal to the queried one. -/
theorem unicastMode_believes_foreign :
    (∃ final, sampleRun foreignAddr = .ok 0 final ∧
      ¬ BelievesQueried (sampleEnv foreignAddr) 0 final) ∧
    ∃ final, isSameIpaddr (sampleEnv foreignAddr) ⟨0, queriedAddr⟩ foreignAddr
      ⟨[], ⟨0, 0, default⟩, []⟩ = .ok 0 final := by
  refine ⟨⟨_, eq_ok_of_returnValue (by decide +kernel), fun believes => ?_⟩,
    _, eq_ok_of_returnValue (by decide +kernel)⟩
  obtain ⟨queried, reply, ⟨⟨pkt, asked⟩, received, -⟩, same⟩ := believes rfl
  have queriedOnly : (finalWorld (sampleRun foreignAddr)).trace.latest Event.request =
      some (createPacket .little (getNtpTimeOfDay noon), ⟨31488, queriedAddr⟩) := by decide +kernel
  have foreignOnly : (finalWorld (sampleRun foreignAddr)).trace.latest Event.datagram =
      some (replyFrom foreignAddr) := by decide +kernel
  obtain ⟨-, rfl⟩ := Prod.mk.inj (Option.some.inj (queriedOnly.symm.trans asked))
  obtain rfl := Option.some.inj (foreignOnly.symm.trans received)
  exact absurd same (by decide)

end Sntp.QueriedServer
