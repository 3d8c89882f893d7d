import Sntp.Proofs.ManycastSteps
import Sntp.Proofs.Observations
import Sntp.Soundness.Discovery

/-! # The room in the server table

The gathering loop stores every server whose reply passes the sanity checks, and nothing but the
network bounds their number. The table of `main` has room for `MANYCAST_MAX_SERVERS`: discovery
writes within it exactly when no more valid replies than that arrive while it listens.
-/

namespace Sntp.TableRoom

open Machine

/-- The replies to the request of a trace that are packets and pass the sanity checks. -/
def validReplies (env : Env) (trace : List Event) : List Datagram :=
  match trace.latest Event.request with
  | none => []
  | some (request, _) => (trace.filterMap Event.datagram).filter fun reply =>
      reply.stored.length ≤ sizeofNtpPacket ∧ runSanityChecks request (reply.packet env.host) = 0

/-- The run stops at a write past the end of its table: it has overrun a variable, and it was not
the packet that its last datagram was received into. -/
def OverrunsTable (result : EStateM.Result Stop World (ℤ × ServerTable)) : Prop :=
  ∃ final datagram, result = .error .overrun final ∧
    final.trace.latest Event.datagram = some datagram ∧ datagram.stored.length ≤ sizeofNtpPacket

/-- Every write is within the table, and so is the count that is returned. -/
def StaysInTable (result : EStateM.Result Stop World (ℤ × ServerTable)) : Prop :=
  ¬ OverrunsTable result ∧
    ∀ code table final, result = .ok (code, table) final → table.sCount ≤ manycastMaxServers

/-- The replies of a run fit in the table. -/
def RepliesFit (env : Env) (world : World) : Prop :=
  (validReplies env world.trace).length ≤ manycastMaxServers

/-- What the gathering loop maintains: one entry for each valid reply, all within the table. -/
private structure Filled (env : Env) (request : NtpPacket) (table : ServerTable) (world : World) :
    Prop where
  asked : ∃ addr, world.trace.latest Event.request = some (request, addr)
  count : table.sCount = (validReplies env world.trace).length
  room : table.sCount ≤ manycastMaxServers

section

variable {env : Env} {cSet : ClientSettings} {sockfd : ℤ} {request : NtpPacket} {timer : Timeval}
  {table : ServerTable} {world : World}

/-- Neither a request nor a datagram changes nothing. -/
private theorem validReplies_quiet {trace : List Event} {event : Event}
    (unsent : event.request = none) (silent : event.datagram = none) :
    validReplies env (trace ++ [event]) = validReplies env trace := by
  simp only [validReplies, List.latest_concat, unsent, Option.none_or, List.filterMap_append,
    List.filterMap_cons, silent, List.filterMap_nil, List.append_nil]

/-- A datagram joins the valid replies if it is one. -/
private theorem validReplies_arrive {trace : List Event} {addr : SockaddrIn}
    (asked : trace.latest Event.request = some (request, addr)) (reply : Datagram) :
    validReplies env (trace ++ [.recvfrom sockfd (some reply)]) = validReplies env trace ++
      if reply.stored.length ≤ sizeofNtpPacket ∧
        runSanityChecks request (reply.packet env.host) = 0 then [reply] else [] := by
  simp only [validReplies, List.latest_concat, Event.request, Option.none_or, asked,
    List.filterMap_append, List.filterMap_cons, List.filterMap_nil, Event.datagram,
    List.filter_append, List.filter_cons, List.filter_nil, decide_eq_true_eq]

/-- Without a datagram there is no reply. -/
private theorem validReplies_undelivered {trace : List Event}
    (undelivered : trace.filterMap Event.datagram = []) : validReplies env trace = [] := by
  rw [validReplies]
  split
  · rfl
  · rw [undelivered, List.filter_nil]

private theorem RepliesFit.of_undelivered (undelivered : world.trace.filterMap Event.datagram = []) :
    RepliesFit env world := by
  rw [RepliesFit, validReplies_undelivered undelivered]
  exact Nat.zero_le _

private theorem Filled.log (filled : Filled env request table world) {event : Event}
    (unsent : event.request = none) (silent : event.datagram = none) :
    Filled env request table (world.log event) where
  asked := by simpa [unsent] using filled.asked
  count := by rw [World.trace_log, validReplies_quiet unsent silent, filled.count]
  room := filled.room

private theorem Filled.tick (filled : Filled env request table world) :
    Filled env request table (world.tick env) :=
  filled.log rfl rfl

private theorem Filled.repliesFit (filled : Filled env request table world) :
    RepliesFit env world := by
  rw [RepliesFit, ← filled.count]
  exact filled.room

/-- The replies once a datagram has been gathered. -/
private theorem validReplies_gather (filled : Filled env request table world) (reply : Datagram) :
    validReplies env (world.gather env sockfd reply).trace = validReplies env world.trace ++
      if reply.stored.length ≤ sizeofNtpPacket ∧
        runSanityChecks request (reply.packet env.host) = 0 then [reply] else [] := by
  obtain ⟨addr, asked⟩ := filled.tick.asked
  rw [World.trace_gather, validReplies_quiet rfl rfl, validReplies_arrive asked,
    World.trace_tick, validReplies_quiet rfl rfl]

private theorem asked_gather (filled : Filled env request table world) (reply : Datagram) :
    ∃ addr, (world.gather env sockfd reply).trace.latest Event.request = some (request, addr) := by
  simpa only [World.trace_gather, List.latest_concat, Event.request, Option.none_or]
    using filled.tick.asked

private theorem latest_gather (reply : Datagram) :
    (world.gather env sockfd reply).trace.latest Event.datagram = some reply := by
  simp only [World.trace_gather, List.latest_concat, Event.datagram, Option.none_or, Option.some_or]

/-- A reply that fails leaves the table as it is. -/
private theorem Filled.discard (filled : Filled env request table world) {reply : Datagram}
    (fails : runSanityChecks request (reply.packet env.host) ≠ 0) :
    Filled env request table (world.gather env sockfd reply) where
  asked := asked_gather filled reply
  count := by rw [validReplies_gather filled, if_neg (fun valid => fails valid.2), List.append_nil,
    filled.count]
  room := filled.room

/-- A reply that passes takes an entry while there is one. -/
private theorem Filled.approve (filled : Filled env request table world) {reply : Datagram}
    (fits : reply.stored.length ≤ sizeofNtpPacket)
    (passes : runSanityChecks request (reply.packet env.host) = 0)
    (room : table.sCount < manycastMaxServers) :
    Filled env request table.approve (world.gather env sockfd reply) where
  asked := asked_gather filled reply
  count := by
    rw [validReplies_gather filled, if_pos ⟨fits, passes⟩, List.length_append,
      List.length_singleton, ← filled.count]
    rfl
  room := room

/-- Where a run stops or returns, it has stayed in its table exactly if its replies fit. -/
private def Judged (env : Env) (result : EStateM.Result Stop World (ℤ × ServerTable)) : Prop :=
  StaysInTable result ↔ RepliesFit env (finalWorld result)

private theorem Judged.returned {code : ℤ} (room : table.sCount ≤ manycastMaxServers)
    (fit : RepliesFit env world) : Judged env (.ok (code, table) world) := by
  refine iff_of_true ⟨?_, ?_⟩ fit
  · rintro ⟨final, datagram, stopped, -⟩
    simp at stopped
  · rintro code' table' final returned
    obtain rfl := (Prod.mk.inj (EStateM.Result.ok.inj returned).1).2
    exact room

private theorem Judged.outOfFuel (fit : RepliesFit env world) :
    Judged env (.error .outOfFuel world) := by
  refine iff_of_true ⟨?_, ?_⟩ fit
  · rintro ⟨final, datagram, stopped, -⟩
    simp at stopped
  · rintro code table final returned
    simp at returned

/-- A datagram that overruns the packet it is received into does not write to the table. -/
private theorem Judged.overrunsPacket {datagram : Datagram}
    (latest : world.trace.latest Event.datagram = some datagram)
    (long : sizeofNtpPacket < datagram.stored.length) (fit : RepliesFit env world) :
    Judged env (.error .overrun world) := by
  refine iff_of_true ⟨?_, ?_⟩ fit
  · rintro ⟨final, other, stopped, latest', fits⟩
    obtain rfl := (EStateM.Result.error.inj stopped).2
    obtain rfl := Option.some.inj (latest.symm.trans latest')
    exact absurd long (Nat.not_lt.mpr fits)
  · rintro code table final returned
    simp at returned

private theorem Judged.overrunsTable {datagram : Datagram}
    (latest : world.trace.latest Event.datagram = some datagram)
    (fits : datagram.stored.length ≤ sizeofNtpPacket) (unfit : ¬ RepliesFit env world) :
    Judged env (.error .overrun world) :=
  iff_of_false (fun stays => stays.1 ⟨world, datagram, rfl, latest, fits⟩) unfit

/-- One turn of the gathering loop: it fills the table on, or writes past its end because the reply
that arrives is one too many. -/
private theorem filled_collect (filled : Filled env request table world) :
    Wp (collect env cSet sockfd request timer table)
      (Sum.elim (Filled env request) (Filled env request))
      (fun stop final => Judged env (.error stop final)) world := by
  rw [collect, wp_bind, wp_elapsedTime, wp_ite]
  refine ⟨fun _ => ?_, fun _ => filled.tick⟩
  rw [wp_bind]
  apply wp_recieveOnClient
  · intro received failed
    have kept : Filled env request table ((world.tick env).log (.recvfrom sockfd none)) :=
      filled.tick.log rfl rfl
    simpa [failed] using kept
  · intro datagram long
    have latest : ((world.tick env).log (.recvfrom sockfd (some datagram))).trace.latest
        Event.datagram = some datagram := by
      rw [World.trace_log, List.latest_concat, Event.datagram, Option.some_or]
    apply Judged.overrunsPacket latest long
    obtain ⟨addr, asked⟩ := filled.tick.asked
    rw [RepliesFit, World.trace_log, validReplies_arrive asked,
      if_neg (fun valid => absurd long (Nat.not_lt.mpr valid.1)), List.append_nil]
    exact filled.tick.repliesFit
  intro datagram fits arrived
  have stored : (datagram.received (arrived.now env)).code = 0 := rfl
  simp only [stored, ne_eq, not_true_eq_false, ↓reduceIte, wp_bind, wp_inetNtoa, wp_ite,
    Datagram.load_received, wp_throw, wp_pure]
  refine ⟨fun fails => filled.discard fails, fun passes => ⟨fun full => ?_, fun room => ?_⟩⟩
  · refine Judged.overrunsTable (latest_gather datagram) fits fun fit => ?_
    have counted : (validReplies env (world.gather env sockfd datagram).trace).length =
        table.sCount + 1 := by
      rw [validReplies_gather filled, if_pos ⟨fits, not_not.mp passes⟩, List.length_append,
        List.length_singleton, ← filled.count]
    exact absurd (counted ▸ fit : table.sCount + 1 ≤ manycastMaxServers) (Nat.not_le_of_lt
      (Nat.lt_succ_of_le full))
  · exact filled.approve fits (not_not.mp passes) (Nat.lt_of_not_le room)

/-- Before the loop nothing has arrived. -/
private theorem undelivered_search {ntoa : Text} {vars : SampleVars} {ready : World}
    (setUp : SetUp ⟨ntoa, vars, []⟩ ready) (addr : SockaddrIn) (success : Bool) :
    (ready.search env sockfd addr success).trace.filterMap Event.datagram = [] := by
  obtain ⟨events, all, rfl⟩ := setUp
  have undelivered : events.filterMap Event.datagram = [] :=
    List.filterMap_eq_nil_iff.mpr fun event member => (all event member).datagram_eq_none
  simp [undelivered, Event.datagram]

private theorem filled_search {ntoa : Text} {vars : SampleVars} {ready : World}
    (setUp : SetUp ⟨ntoa, vars, []⟩ ready) (addr : SockaddrIn) (ntpServers : ℕ → CharPtr) :
    Filled env (ready.request env) ⟨ntpServers, 0⟩
      ((ready.search env sockfd addr true).tick env) := by
  refine Filled.log ⟨⟨addr, ?_⟩, ?_, Nat.zero_le _⟩ rfl rfl
  · rw [World.trace_search, List.latest_concat, Event.request, Option.some_or]
  · rw [validReplies_undelivered (undelivered_search setUp addr true), List.length_nil]

end

/-- Discovery stays in the table of `main` exactly when the valid replies that arrive while it
listens fit in it. A datagram that overruns the packet ends the run, and nothing is said of what comes
after. -/
theorem staysInTable_iff (env : Env) (cSet : ClientSettings) (fuel : ℕ) (ntpServers : ℕ → CharPtr)
    (ntoa : Text) (vars : SampleVars) :
    let result := discoverUnicastServersWithManycast env cSet fuel ntpServers ⟨ntoa, vars, []⟩
    StaysInTable result ↔ RepliesFit env (finalWorld result) := by
  have judged : Wp (discoverUnicastServersWithManycast env cSet fuel ntpServers)
      (fun value final => Judged env (.ok value final))
      (fun stop final => Judged env (.error stop final)) ⟨ntoa, vars, []⟩ := by
    apply wp_discover
    · intro code final _ setUp
      obtain ⟨events, all, rfl⟩ := setUp
      refine Judged.returned (Nat.zero_le _) (RepliesFit.of_undelivered ?_)
      exact List.filterMap_eq_nil_iff.mpr fun event member => (all event member).datagram_eq_none
    · intro code ready sockfd addr _ setUp
      exact Judged.returned (Nat.zero_le _)
        (RepliesFit.of_undelivered (undelivered_search setUp addr false))
    · intro ready sockfd addr setUp sent
      refine wp_loop (Filled env (ready.request env)) ?_ ?_ fuel _
        (filled_search setUp addr ntpServers)
      · intro table world filled
        refine (filled_collect filled).mono ?_ fun _ _ judged => judged
        rintro (next | next) final filled
        · exact filled
        · simp only [Sum.elim_inr]
          split
          · exact Judged.returned filled.room filled.repliesFit
          · exact Judged.returned filled.room (filled.log rfl rfl).repliesFit
      · exact fun table world filled => Judged.outOfFuel filled.repliesFit
  exact wp_result.mp judged

/-- The group answers every receive with one more valid reply, within the second of the request. -/
def crowdedRun : EStateM.Result Stop World (ℤ × ServerTable) :=
  discoverUnicastServersWithManycast
    (.benign (fun _ => ⟨1000000000, 0⟩) fun _ => some Discovery.groupReply) (.defaults .ntoaBuffer 1)
    12 (fun _ => .text []) ⟨[], ⟨0, 0, default⟩, []⟩

/-- The eleventh valid reply is written behind the table. -/
theorem crowdedRun_overrunsTable : ¬ StaysInTable crowdedRun := by
  have stopped : (match crowdedRun with
      | .ok _ _ => false
      | .error stop final => stop = .overrun ∧
        final.trace.latest Event.datagram = some Discovery.groupReply) = true := by
    decide +kernel
  intro stays
  apply stays.1
  cases run : crowdedRun with
  | ok value final => simp [run] at stopped
  | error stop final =>
    rw [run] at stopped
    obtain ⟨rfl, latest⟩ := of_decide_eq_true stopped
    exact ⟨final, Discovery.groupReply, rfl, latest, by decide +kernel⟩

end Sntp.TableRoom
