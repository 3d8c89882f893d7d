import Sntp.Proofs.ManycastSteps
import Sntp.Proofs.Observations

/-! # Which servers discovery returns

The gathering loop counts the replies that pass the sanity checks, and the code it returns says
whether there was one. Its table is another matter: every entry points to the buffer of
`inet_ntoa`, so on return every entry denotes the source of the last datagram that arrived, approved
or not. The table is right exactly when all approved replies came from that source.
-/

namespace Sntp.Discovery

open Machine

/-- The sources of the replies to `request` that pass the sanity checks, in order of arrival. -/
def approved (env : Env) (request : NtpPacket) (trace : List Event) : List InAddr :=
  ((trace.filterMap Event.datagram).filter fun reply =>
    runSanityChecks request (reply.packet env.host) = 0).map fun reply => reply.source.sinAddr

/-- The manycast request of a run. -/
def Requested (trace : List Event) (request : NtpPacket) : Prop :=
  ∃ sockfd addr, .sendto sockfd request addr true ∈ trace

/-- The table and the code are those of the approved servers. -/
structure ReturnsApproved (env : Env) (request : NtpPacket) (code : ℤ) (table : ServerTable)
    (final : World) : Prop where
  count : table.sCount = (approved env request final.trace).length
  entries : ∀ index a, (approved env request final.trace)[index]? = some a →
    inetPton (final.deref (table.ntpServers index)) = some a
  code : code = if approved env request final.trace = [] then 6 else 0

/-- Every approved reply came from where the last datagram came from. -/
def ApprovedFromLast (env : Env) (request : NtpPacket) (trace : List Event) : Prop :=
  ∀ a ∈ approved env request trace, ∀ last, trace.latest Event.datagram = some last →
    a = last.source.sinAddr

/-- What the gathering loop maintains. -/
private structure Gathered (env : Env) (request : NtpPacket) (table : ServerTable) (world : World) :
    Prop where
  requests : ∀ event ∈ world.trace, ∀ pkt addr, event.request = some (pkt, addr) → pkt = request
  count : table.sCount = (approved env request world.trace).length
  pointers : table.Buffered
  buffer : ∀ last, world.trace.latest Event.datagram = some last →
    world.ntoa = dotted last.source.sinAddr

section

variable {env : Env} {cSet : ClientSettings} {sockfd : ℤ} {request : NtpPacket} {timer : Timeval}
  {table : ServerTable} {world : World}

/-- Events without a datagram or a request are not gathered. -/
private theorem Gathered.log (gathered : Gathered env request table world) {event : Event}
    (datagram : event.datagram = none) (unsent : event.request = none) :
    Gathered env request table (world.log event) where
  requests := by
    intro other member pkt addr asked
    rcases List.mem_append.mp member with old | new
    · exact gathered.requests other old pkt addr asked
    · rw [List.mem_singleton.mp new, unsent] at asked
      simp at asked
  count := by simp [approved, datagram, gathered.count]
  pointers := gathered.pointers
  buffer := by simpa [datagram] using gathered.buffer

private theorem approved_concat (trace : List Event) (reply : Datagram) :
    approved env request (trace ++ [.recvfrom sockfd (some reply)]) =
      approved env request trace ++
        if runSanityChecks request (reply.packet env.host) = 0 then [reply.source.sinAddr]
        else [] := by
  simp only [approved, List.filterMap_append, List.filterMap_cons, List.filterMap_nil,
    Event.datagram, List.filter_append, List.map_append, List.filter_cons, List.filter_nil,
    decide_eq_true_eq]
  split <;> rfl

/-- A datagram joins the approved replies if it passes, and determines the buffer in any case. -/
private theorem Gathered.arrive (gathered : Gathered env request table world) (reply : Datagram)
    {next : ServerTable}
    (kept : if runSanityChecks request (reply.packet env.host) = 0 then next = table.approve
      else next = table) :
    Gathered env request next ((world.arrive sockfd reply).format reply.source.sinAddr) where
  requests := by
    intro event member pkt addr asked
    rcases List.mem_append.mp member with old | new
    · exact gathered.requests event old pkt addr asked
    · simp [List.mem_singleton.mp new, Event.request] at asked
  count := by
    simp only [World.trace_format, World.trace_arrive, approved_concat]
    split at kept
    · next passes => simp [kept, passes, ServerTable.approve, gathered.count]
    · next fails => simp [kept, fails, gathered.count]
  pointers := by
    split at kept
    · exact kept ▸ gathered.pointers.approve
    · exact kept ▸ gathered.pointers
  buffer := by
    intro last latest
    simp only [World.trace_format, World.trace_arrive, List.latest_concat, Event.datagram,
      Option.some_or, Option.some.injEq] at latest
    rw [← latest]
    rfl

private theorem Gathered.gather (gathered : Gathered env request table world) (reply : Datagram)
    {next : ServerTable}
    (kept : if runSanityChecks request (reply.packet env.host) = 0 then next = table.approve
      else next = table) :
    Gathered env request next (world.gather env sockfd reply) :=
  (Gathered.arrive (gathered.log rfl rfl) reply kept).log rfl rfl

private theorem gathered_collect {result : EStateM.Result Stop World (ServerTable ⊕ ServerTable)}
    (gathered : Gathered env request table world)
    (step : CollectStep env cSet.manycastWaitTime sockfd request timer table world result) :
    match result with
    | .ok (.inl next) final | .ok (.inr next) final => Gathered env request next final
    | .error _ _ => True := by
  cases step with
  | finished => exact gathered.log rfl rfl
  | silent => exact (gathered.log rfl rfl).log rfl rfl
  | discarded reply _ fails => exact gathered.gather reply (by rw [if_neg fails])
  | approved reply _ passes => exact gathered.gather reply (by rw [if_pos passes])
  | overrun | full => trivial

/-- Before the loop nothing has arrived. -/
private theorem gathered_search {ntoa : Text} {vars : SampleVars} {ready : World}
    (setUp : SetUp ⟨ntoa, vars, []⟩ ready) (addr : SockaddrIn) (ntpServers : ℕ → CharPtr) :
    Gathered env (ready.request env) ⟨ntpServers, 0⟩
      ((ready.search env sockfd addr true).tick env) := by
  obtain ⟨events, all, rfl⟩ := setUp
  rw [List.nil_append]
  have undelivered : events.filterMap Event.datagram = [] :=
    List.filterMap_eq_nil_iff.mpr fun event member => (all event member).datagram_eq_none
  have unanswered : events.latest Event.datagram = none :=
    List.latest_eq_none_iff.mpr fun event member => (all event member).datagram_eq_none
  have searched : Gathered env (World.request env ⟨ntoa, vars, events⟩) ⟨ntpServers, 0⟩
      (World.search env sockfd addr true ⟨ntoa, vars, events⟩) := by
    refine ⟨fun event member pkt target asked => ?_, ?_, fun index bound => ?_, ?_⟩
    · simp only [World.trace_search, World.trace_tick, List.mem_append, List.mem_singleton] at member
      rcases member with (old | rfl) | rfl
      · simp [(all event old).request_eq_none] at asked
      · simp [Event.request] at asked
      · exact (Prod.mk.inj (Option.some.inj asked)).1.symm
    · simp only [approved, World.trace_search, World.trace_tick, List.filterMap_append, undelivered,
        List.filterMap_cons, Event.datagram, List.filterMap_nil, List.append_nil, List.filter_nil,
        List.map_nil, List.length_nil]
    · exact absurd bound (Nat.not_lt_zero index)
    · simp only [World.trace_search, World.trace_tick, List.latest_concat, Event.datagram,
        unanswered, Option.none_or, reduceCtorEq, false_implies, implies_true]
  exact searched.log rfl rfl

/-- What a returned run leaves: no request, or what was gathered. -/
private theorem discover_outcome (fuel : ℕ) (ntpServers : ℕ → CharPtr) (ntoa : Text)
    (vars : SampleVars) :
    Wp (discoverUnicastServersWithManycast env cSet fuel ntpServers)
      (fun (code, table) final =>
        (∀ request, ¬ Requested final.trace request) ∨
        ∃ request, Gathered env request table final ∧ code = if table.sCount = 0 then 6 else 0)
      (fun _ _ => True) ⟨ntoa, vars, []⟩ := by
  have unrequested {ready : World} (setUp : SetUp ⟨ntoa, vars, []⟩ ready) (request : NtpPacket) :
      ¬ Requested ready.trace request := by
    rintro ⟨sockfd, addr, member⟩
    obtain ⟨events, all, rfl⟩ := setUp
    rw [List.nil_append] at member
    exact all _ member
  apply wp_discover
  · exact fun code final _ setUp => .inl (unrequested setUp)
  · rintro code ready sockfd addr - setUp
    refine .inl ?_
    rintro request ⟨other, target, member⟩
    simp only [World.trace_search, World.trace_tick, List.mem_append, List.mem_singleton,
      reduceCtorEq, or_false, Event.sendto.injEq, Bool.true_eq_false, and_false] at member
    exact unrequested setUp request ⟨other, target, member⟩
  · intro ready sockfd addr setUp sent
    refine wp_loop (Gathered env (ready.request env)) ?_ (fun _ _ _ => trivial) fuel _
      (gathered_search setUp addr ntpServers)
    intro table state gathered
    refine (wp_collect sockfd _ _ table).mono ?_ fun _ _ _ => trivial
    intro next final step
    have kept := gathered_collect gathered step
    rcases next with next | next
    · exact kept
    · simp only [Sum.elim_inr]
      split
      · next none => exact .inr ⟨_, kept, rfl⟩
      · next some => exact .inr ⟨_, kept.log rfl rfl, rfl⟩

/-- An approved reply is among the datagrams that arrived. -/
private theorem exists_latest {trace : List Event} (some : approved env request trace ≠ []) :
    ∃ last, trace.latest Event.datagram = .some last := by
  refine Option.ne_none_iff_exists'.mp fun none => some ?_
  have undelivered : trace.filterMap Event.datagram = [] :=
    List.filterMap_eq_nil_iff.mpr (List.latest_eq_none_iff.mp none)
  simp [approved, undelivered]

/-- Every entry of a gathered table denotes the source of the last datagram. -/
private theorem Gathered.entry (gathered : Gathered env request table world)
    {index : ℕ} {a : InAddr} (approves : (approved env request world.trace)[index]? = some a) :
    ∃ last, world.trace.latest Event.datagram = some last ∧
      inetPton (world.deref (table.ntpServers index)) = some last.source.sinAddr := by
  obtain ⟨bound, -⟩ := List.getElem?_eq_some_iff.mp approves
  obtain ⟨last, latest⟩ := exists_latest (List.ne_nil_of_length_pos (Nat.zero_lt_of_lt bound))
  refine ⟨last, latest, ?_⟩
  rw [gathered.pointers index (gathered.count ▸ bound), World.deref, gathered.buffer last latest,
    inetPton_dotted]

private theorem Gathered.returnsApproved_iff {code : ℤ} (gathered : Gathered env request table world)
    (returned : code = if table.sCount = 0 then 6 else 0) :
    ReturnsApproved env request code table world ↔ ApprovedFromLast env request world.trace := by
  constructor
  · intro faithful a member last latest
    obtain ⟨index, approves⟩ := List.mem_iff_getElem?.mp member
    obtain ⟨other, latest', denotes⟩ := gathered.entry approves
    obtain rfl := Option.some.inj (latest.symm.trans latest')
    exact Option.some.inj ((faithful.entries index a approves).symm.trans denotes)
  · intro fromLast
    refine ⟨gathered.count, fun index a approves => ?_, ?_⟩
    · obtain ⟨last, latest, denotes⟩ := gathered.entry approves
      rw [denotes, fromLast a (List.mem_of_getElem? approves) last latest]
    · simp only [returned, gathered.count, List.length_eq_zero_iff]

end

/-- Discovery that gets to listen returns the approved servers exactly when every approved reply
came from where the last datagram came from. -/
theorem discover_returns_approved_iff (env : Env) (cSet : ClientSettings) (fuel : ℕ)
    (ntpServers : ℕ → CharPtr) (ntoa : Text) (vars : SampleVars) (code : ℤ) (table : ServerTable)
    (final : World) (request : NtpPacket)
    (returned : discoverUnicastServersWithManycast env cSet fuel ntpServers ⟨ntoa, vars, []⟩ =
      .ok (code, table) final)
    (requested : Requested final.trace request) :
    ReturnsApproved env request code table final ↔ ApprovedFromLast env request final.trace := by
  rcases (discover_outcome fuel ntpServers ntoa vars).of_ok returned with
    none | ⟨asked, gathered, returned⟩
  · exact absurd requested (none request)
  · obtain ⟨sockfd, addr, member⟩ := requested
    obtain rfl := gathered.requests _ member request addr rfl
    exact gathered.returnsApproved_iff returned

/-- The clock stands still while datagrams arrive, and then passes the waiting time. -/
def arrivalClock (index : ℕ) : Timeval :=
  if index < 13 then ⟨1000000000, 0⟩ else ⟨1000000003, 0⟩

def approvedAddr : SockaddrIn := ⟨0, ⟨10, 0, 0, 1⟩⟩

def discardedAddr : SockaddrIn := ⟨0, ⟨10, 0, 0, 2⟩⟩

def groupRequest : NtpPacket := createPacket .little (getNtpTimeOfDay ⟨1000000000, 0⟩)

def groupReply : Datagram :=
  (createReplyPacket .little ⟨default, groupRequest, getNtpTimeOfDay ⟨1000000000, 0⟩⟩
    (getNtpTimeOfDay ⟨1000000000, 0⟩)).datagram .little approvedAddr

/-- The manycast request is answered by `groupReply` and then by `second`. -/
def groupEnv (second : Option Datagram) : Env :=
  .benign arrivalClock fun index => if index = 8 then some groupReply else second

def groupRun (second : Option Datagram) : EStateM.Result Stop World (ℤ × ServerTable) :=
  discoverUnicastServersWithManycast (groupEnv second) (.defaults .ntoaBuffer 1) 5
    (fun _ => .text []) ⟨[], ⟨0, 0, default⟩, []⟩

private theorem groupRun_requested (second : Option Datagram) (silent : second = none ∨
    second = some ⟨discardedAddr, []⟩) :
    Requested (finalWorld (groupRun second)).trace groupRequest := by
  refine ⟨3, ⟨31488, ⟨224, 0, 1, 1⟩⟩, ?_⟩
  rcases silent with rfl | rfl <;> decide +kernel

/-- With one server on the network the table is right. -/
theorem discover_returns_approved_iff_single :
    ∃ table final, groupRun none = .ok (0, table) final ∧
      ReturnsApproved (groupEnv none) groupRequest 0 table final := by
  have code : (returnValue (groupRun none)).map Prod.fst = some 0 := by decide +kernel
  obtain ⟨⟨_, table⟩, value, rfl⟩ := Option.map_eq_some_iff.mp code
  have returned := eq_ok_of_returnValue value
  refine ⟨table, _, returned, ?_⟩
  refine (discover_returns_approved_iff _ _ _ _ _ _ _ _ _ _ returned
    (groupRun_requested none (.inl rfl))).mpr ?_
  have approves : approved (groupEnv none) groupRequest (finalWorld (groupRun none)).trace =
      [approvedAddr.sinAddr] := by decide +kernel
  have latest : (finalWorld (groupRun none)).trace.latest Event.datagram = some groupReply := by
    decide +kernel
  intro a member last last_latest
  obtain rfl := Option.some.inj (latest.symm.trans last_latest)
  rw [approves, List.mem_singleton] at member
  exact member

/-- A datagram that fails the checks replaces the server that was approved before it. -/
theorem discover_returns_discarded :
    ∃ table final, groupRun (some ⟨discardedAddr, []⟩) = .ok (0, table) final ∧
      Requested final.trace groupRequest ∧
      ¬ ReturnsApproved (groupEnv (some ⟨discardedAddr, []⟩)) groupRequest 0 table final := by
  have code : (returnValue (groupRun (some ⟨discardedAddr, []⟩))).map Prod.fst = some 0 := by
    decide +kernel
  obtain ⟨⟨_, table⟩, value, rfl⟩ := Option.map_eq_some_iff.mp code
  refine ⟨table, _, eq_ok_of_returnValue value, groupRun_requested _ (.inr rfl), ?_⟩
  intro faithful
  have approves : (approved (groupEnv (some ⟨discardedAddr, []⟩)) groupRequest
      (finalWorld (groupRun (some ⟨discardedAddr, []⟩))).trace)[0]? = some approvedAddr.sinAddr := by
    decide +kernel
  have entry : (returnValue (groupRun (some ⟨discardedAddr, []⟩))).map (fun returned =>
      inetPton ((finalWorld (groupRun (some ⟨discardedAddr, []⟩))).deref
        (returned.2.ntpServers 0))) = some (some discardedAddr.sinAddr) := by decide +kernel
  rw [value, Option.map_some, faithful.entries 0 _ approves] at entry
  exact absurd entry (by decide)

end Sntp.Discovery
