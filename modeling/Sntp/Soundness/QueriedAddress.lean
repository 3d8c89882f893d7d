import Sntp.Proofs.Observations
import Sntp.Soundness.ClientMachine
import Sntp.Soundness.Discovery

/-! # Where requests go after discovery

Discovery leaves `main` with a pointer to the buffer of `inet_ntoa`, and every call of
`unicast_mode` looks up the text it then finds there. Sending and printing put the chosen address
back; comparing addresses can leave the one of a reply. All requests go to the chosen server when
no call runs out of retries with another host's address in the buffer.
-/

namespace Sntp.QueriedAddress

open Machine ClientMachine

/-- The server host that discovery returns with. -/
def chosenHost : Event → Option Text
  | .usingServer host => some host
  | _ => none

/-- For an event that rewrites the buffer, the address of the reply it leaves there, if any. -/
def leftReply : Event → Option (Option InAddr)
  | .compare _ replyAddr replyLast => some (if replyLast then some replyAddr else none)
  | .sendto _ _ _ success => if success then some none else none
  | .serverResults .. | .usingServer _ => some none
  | _ => none

/-- A request after discovery goes to the address that its server host denoted then. -/
def AsksChosen (before : List Event) (event : Event) : Prop :=
  ∀ pkt addr host, event.request = some (pkt, addr) → before.latest chosenHost = some host →
    inetPton host = some addr.sinAddr

/-- When the retries of a call are used up, no reply from another host has left its address. -/
def Undisturbed (before : List Event) (event : Event) : Prop :=
  event = .errorMessage 4 → ∀ replyAddr host, before.latest leftReply = some (some replyAddr) →
    before.latest chosenHost = some host → inetPton host = some replyAddr

/-- The address in the buffer, once `chosen` has been written there. -/
private def buffered (trace : List Event) (chosen : InAddr) : InAddr :=
  (trace.latest leftReply).join.getD chosen

/-- Discovery chose the address, and the server host points to the buffer. -/
private structure Follows (serverHost : CharPtr) (world : World) (chosen : InAddr) : Prop where
  pointer : serverHost = .ntoaBuffer
  host : world.trace.latest chosenHost = some (dotted chosen)
  buffer : world.ntoa = dotted (buffered world.trace chosen)

/-- What holds of the address in the buffer and the chosen one, if discovery chose a server. -/
private def IfChosen (serverHost : CharPtr) (holds : InAddr → InAddr → Prop) (world : World) : Prop :=
  world.trace.latest chosenHost = none ∨
    ∃ chosen, Follows serverHost world chosen ∧ holds (buffered world.trace chosen) chosen

/-- What the gathering loop maintains: the buffer holds an address. -/
private def Searching (table : ServerTable) (world : World) : Prop :=
  world.trace.latest chosenHost = none ∧ table.Buffered ∧ ∃ a, world.ntoa = dotted a

/-- What the retry loop maintains: the chosen server is queried. -/
private def Retrying (serverHost : CharPtr) (queried : InAddr) (world : World) : Prop :=
  IfChosen serverHost (fun _ chosen => queried = chosen) world

/-- The invariant of each phase, besides its requests. -/
private def Queries (phase : Phase) (world : World) : Prop :=
  match phase with
  | .start => world.trace.latest chosenHost = none
  | .searching _ _ _ table => Searching table world
  | .ready serverHost | .between serverHost => IfChosen serverHost Eq world
  | .retrying serverHost _ userver _ => Retrying serverHost userver.addr.sinAddr world
  | .done => True

/-- Events that neither choose a server nor rewrite the buffer. -/
private structure Quiet (event : Event) : Prop where
  unchosen : chosenHost event = none
  unwritten : leftReply event = none

private theorem Quiet.of_setsUp {event : Event} (setsUp : event.SetsUp) : Quiet event := by
  cases event <;> first | exact ⟨rfl, rfl⟩ | exact setsUp.elim

section Requests

variable {trace : List Event}

private theorem concerns_asksChosen : List.Concerns Event.request AsksChosen := by
  intro before event none pkt addr host asked
  simp [none] at asked

private theorem asksChosen_unsent (asks : trace.EachAfter AsksChosen) {event : Event}
    (unsent : event.request = none) : (trace ++ [event]).EachAfter AsksChosen :=
  asks.concat_of_none concerns_asksChosen unsent

private theorem asksChosen_unchosen (asks : trace.EachAfter AsksChosen)
    (unchosen : trace.latest chosenHost = none) (event : Event) :
    (trace ++ [event]).EachAfter AsksChosen := by
  refine List.eachAfter_concat.mpr ⟨asks, fun pkt addr host _ latest => ?_⟩
  simp [unchosen] at latest

private theorem unchosen_concat (unchosen : trace.latest chosenHost = none) {event : Event}
    (quiet : chosenHost event = none) : (trace ++ [event]).latest chosenHost = none := by
  rw [List.latest_concat, quiet, Option.none_or, unchosen]

private theorem asksChosen_setUp {world ready : World} (asks : world.trace.EachAfter AsksChosen)
    (setUp : SetUp world ready) : ready.trace.EachAfter AsksChosen :=
  setUp.eachAfter concerns_asksChosen (fun _ => Event.SetsUp.request_eq_none) asks

end Requests

section Buffer

variable {env : Env} {world final : World} {serverHost : CharPtr} {holds : InAddr → InAddr → Prop}
  {queried : InAddr}

private theorem IfChosen.imp (ifChosen : IfChosen serverHost holds world)
    {weaker : InAddr → InAddr → Prop}
    (weaken : ∀ buffer chosen, holds buffer chosen → weaker buffer chosen) :
    IfChosen serverHost weaker world :=
  Or.imp_right (fun ⟨chosen, follows, held⟩ => ⟨chosen, follows, weaken _ _ held⟩) ifChosen

/-- Quiet events keep the server and the buffer. -/
private theorem IfChosen.append (ifChosen : IfChosen serverHost holds world) {events : List Event}
    (quiet : ∀ event ∈ events, Quiet event) (trace : final.trace = world.trace ++ events)
    (ntoa : final.ntoa = world.ntoa) : IfChosen serverHost holds final := by
  have host : final.trace.latest chosenHost = world.trace.latest chosenHost := by
    rw [trace, List.latest_append_of_forall fun event member => (quiet event member).unchosen]
  have buffer (chosen : InAddr) : buffered final.trace chosen = buffered world.trace chosen := by
    rw [buffered, trace,
      List.latest_append_of_forall fun event member => (quiet event member).unwritten, buffered]
  rcases ifChosen with unchosen | ⟨chosen, follows, held⟩
  · exact .inl (host.trans unchosen)
  · refine .inr ⟨chosen, ⟨follows.pointer, host.trans follows.host, ?_⟩, buffer chosen ▸ held⟩
    rw [ntoa, buffer, follows.buffer]

private theorem IfChosen.log (ifChosen : IfChosen serverHost holds world) {event : Event}
    (quiet : Quiet event) : IfChosen serverHost holds (world.log event) :=
  ifChosen.append (by simpa using quiet) rfl rfl

private theorem IfChosen.setTimer (ifChosen : IfChosen serverHost holds world) (time : Timeval) :
    IfChosen serverHost holds (world.setTimer time) :=
  ifChosen.append (by simpa using Quiet.mk rfl rfl) (World.trace_setTimer ..) rfl

private theorem IfChosen.setUp (ifChosen : IfChosen serverHost holds world)
    (setUp : SetUp world final) : IfChosen serverHost holds final := by
  obtain ⟨events, all, rfl⟩ := setUp
  exact ifChosen.append (fun event member => .of_setsUp (all event member)) rfl rfl

/-- An event that rewrites the buffer leaves the address of its reply or else the queried one. -/
private theorem Retrying.rewrite (retrying : Retrying serverHost queried world) {event : Event}
    {reply : Option InAddr} (unchosen : chosenHost event = none)
    (written : leftReply event = some reply) :
    IfChosen serverHost (fun buffer chosen => queried = chosen ∧ buffer = reply.getD chosen)
      ((world.log event).format (reply.getD queried)) := by
  have host : ((world.log event).format (reply.getD queried)).trace.latest chosenHost =
      world.trace.latest chosenHost := by
    rw [World.trace_format, World.trace_log, List.latest_concat, unchosen, Option.none_or]
  have buffer (chosen : InAddr) :
      buffered ((world.log event).format (reply.getD queried)).trace chosen = reply.getD chosen := by
    rw [buffered, World.trace_format, World.trace_log, List.latest_concat, written, Option.some_or,
      Option.join_some]
  rcases retrying with none | ⟨chosen, follows, rfl⟩
  · exact .inl (host.trans none)
  · refine .inr ⟨queried, ⟨follows.pointer, host.trans follows.host, ?_⟩, rfl, buffer queried⟩
    rw [World.ntoa_format, buffer]

/-- A request goes to the chosen server, and puts its address back. -/
private theorem retrying_asked {pollWait sockfd : ℤ} {addr : SockaddrIn} {success : Bool}
    {request : NtpPacket} {asked : World} (asks : world.trace.EachAfter AsksChosen)
    (retrying : Retrying serverHost addr.sinAddr world)
    (step : Asked env pollWait sockfd addr success world request asked) :
    asked.trace.EachAfter AsksChosen ∧ Retrying serverHost addr.sinAddr asked := by
  cases step with
  | @intro rested wait =>
    have asks : rested.trace.EachAfter AsksChosen := wait.kept asks (asksChosen_unsent asks rfl)
    have retrying : Retrying serverHost addr.sinAddr rested :=
      wait.kept retrying (retrying.log ⟨rfl, rfl⟩)
    have started : Retrying serverHost addr.sinAddr (rested.startTimer env) :=
      ((retrying.log ⟨rfl, rfl⟩).log ⟨rfl, rfl⟩).setTimer _
    constructor
    · rw [World.trace_dispatch]
      refine List.eachAfter_concat.mpr
        ⟨asksChosen_unsent (asksChosen_unsent (asksChosen_unsent asks rfl) rfl) rfl, ?_⟩
      intro pkt target host asked latest
      obtain ⟨-, rfl⟩ := Prod.mk.inj (Option.some.inj asked)
      rcases started with none | ⟨chosen, follows, rfl⟩
      · exact absurd (none.symm.trans latest) (by simp)
      · obtain rfl := Option.some.inj (follows.host.symm.trans latest)
        exact inetPton_dotted _
    · have sent : leftReply (.sendto sockfd (rested.request env) addr true) = some none := rfl
      cases success with
      | false => exact started.log ⟨rfl, rfl⟩
      | true => exact (Retrying.rewrite started rfl sent).imp fun _ _ => And.left

/-- The comparison leaves the address of the reply or the queried one. -/
private theorem Retrying.answer (retrying : Retrying serverHost queried world) (sockfd : ℤ)
    {addr : SockaddrIn} (same : addr.sinAddr = queried) (datagram : Datagram) (replyLast : Bool) :
    Retrying serverHost queried (world.answer env sockfd addr datagram replyLast) := by
  subst same
  have arrived : Retrying serverHost addr.sinAddr ((world.arrive sockfd datagram).tick env) :=
    (retrying.log ⟨rfl, rfl⟩).log ⟨rfl, rfl⟩
  have compared : leftReply (.compare addr.sinAddr datagram.source.sinAddr replyLast) =
      some (if replyLast then some datagram.source.sinAddr else none) := rfl
  have left := (arrived.rewrite rfl compared).imp fun _ _ => And.left
  cases replyLast <;> exact left

private theorem queries_attempt {pollWait sockfd retryCount : ℤ} {userver : HostInfo}
    {result : EStateM.Result Stop World (ℤ ⊕ Option Received)}
    (asks : world.trace.EachAfter AsksChosen)
    (retrying : Retrying serverHost userver.addr.sinAddr world)
    (step : AttemptStep env pollWait sockfd userver retryCount world result) :
    (finalWorld result).trace.EachAfter AsksChosen ∧
      Retrying serverHost userver.addr.sinAddr (finalWorld result) := by
  have asked {success : Bool} {request : NtpPacket} {asked : World}
      (step : Asked env pollWait sockfd userver.addr success world request asked) :=
    retrying_asked asks retrying step
  cases step with
  | exhausted => exact ⟨asks, retrying⟩
  | waiting => exact ⟨asksChosen_unsent asks rfl, retrying.log ⟨rfl, rfl⟩⟩
  | unsent step =>
    exact ⟨asksChosen_unsent (asked step).1 rfl, (asked step).2.log ⟨rfl, rfl⟩⟩
  | unfinished step => exact asked step
  | unanswered step =>
    exact ⟨asksChosen_unsent (asksChosen_unsent (asked step).1 rfl) rfl,
      ((asked step).2.log ⟨rfl, rfl⟩).log ⟨rfl, rfl⟩⟩
  | overrun datagram step =>
    exact ⟨asksChosen_unsent (asked step).1 rfl, (asked step).2.log ⟨rfl, rfl⟩⟩
  | rejected datagram replyLast step =>
    exact ⟨asksChosen_unsent (asksChosen_unsent (asksChosen_unsent
      (asksChosen_unsent (asked step).1 rfl) rfl) rfl) rfl,
      ((asked step).2.answer sockfd rfl datagram replyLast).log ⟨rfl, rfl⟩⟩
  | accepted datagram replyLast step =>
    exact ⟨asksChosen_unsent (asksChosen_unsent (asksChosen_unsent (asked step).1 rfl) rfl) rfl,
      (asked step).2.answer sockfd rfl datagram replyLast⟩

/-- A report puts the queried address back. -/
private theorem Retrying.sample (retrying : Retrying serverHost queried world) (sockfd : ℤ)
    {userver : HostInfo} (same : userver.addr.sinAddr = queried) (received : Received) :
    IfChosen serverHost Eq (world.sample env sockfd userver received) := by
  subst same
  obtain ⟨transmitTime, offset, errorBound, name, stratum, trace⟩ :=
    world.trace_sample env sockfd userver received
  have printed : leftReply (.serverResults transmitTime offset errorBound name userver.addr.sinAddr
      stratum) = some none := rfl
  have closed : Quiet (.close sockfd) := ⟨rfl, rfl⟩
  have reported := ((retrying.rewrite rfl printed).imp fun _ _ => And.right).log closed
  exact reported.append (List.forall_mem_nil _) (by simp [trace]) (World.ntoa_sample ..)

private theorem queries_collect {waitTime sockfd : ℤ} {request : NtpPacket} {timer : Timeval}
    {table : ServerTable} {result : EStateM.Result Stop World (ServerTable ⊕ ServerTable)}
    (asks : world.trace.EachAfter AsksChosen) (searching : Searching table world)
    (step : CollectStep env waitTime sockfd request timer table world result) :
    (finalWorld result).trace.EachAfter AsksChosen ∧
    match result with
    | .ok (.inl next) final | .ok (.inr next) final => Searching next final
    | .error _ _ => True := by
  obtain ⟨unchosen, entries, buffer⟩ := searching
  have ticked : (world.tick env).trace.EachAfter AsksChosen := asksChosen_unsent asks rfl
  have quiet : (world.tick env).trace.latest chosenHost = none := unchosen_concat unchosen rfl
  have gathered (datagram : Datagram) :
      (world.gather env sockfd datagram).trace.EachAfter AsksChosen ∧
      (world.gather env sockfd datagram).trace.latest chosenHost = none :=
    ⟨asksChosen_unsent (asksChosen_unsent ticked rfl) rfl,
      unchosen_concat (unchosen_concat quiet rfl) rfl⟩
  cases step with
  | finished => exact ⟨ticked, quiet, entries, buffer⟩
  | silent => exact ⟨asksChosen_unsent ticked rfl, unchosen_concat quiet rfl, entries, buffer⟩
  | overrun datagram => exact ⟨asksChosen_unsent ticked rfl, trivial⟩
  | discarded datagram => exact ⟨(gathered datagram).1, (gathered datagram).2, entries, _, rfl⟩
  | full datagram => exact ⟨(gathered datagram).1, trivial⟩
  | approved datagram =>
    exact ⟨(gathered datagram).1, (gathered datagram).2, entries.approve, _, rfl⟩

end Buffer

section Steps

variable {env : Env} {cSet : ClientSettings} {world : World}

/-- Before a server is chosen no request is restricted. -/
private theorem queries_search (env : Env) {ready : World} (asks : world.trace.EachAfter AsksChosen)
    (unchosen : world.trace.latest chosenHost = none) (setUp : SetUp world ready) (sockfd : ℤ)
    (addr : SockaddrIn) (success : Bool) :
    (ready.search env sockfd addr success).trace.EachAfter AsksChosen ∧
      (ready.search env sockfd addr success).trace.latest chosenHost = none := by
  have asks := asksChosen_setUp asks setUp
  obtain ⟨events, all, rfl⟩ := setUp
  have unchosen : (world.trace ++ events).latest chosenHost = none := by
    rw [List.latest_append_of_forall fun event member => (Quiet.of_setsUp (all event member)).unchosen,
      unchosen]
  have ticked (reading : Timeval) :
      (world.trace ++ events ++ [Event.gettimeofday reading]).latest chosenHost = none :=
    unchosen_concat unchosen rfl
  rw [World.trace_search]
  exact ⟨asksChosen_unchosen (asksChosen_unsent asks rfl) (ticked _) _, unchosen_concat (ticked _) rfl⟩

/-- The server found by discovery is the one in the buffer. -/
private theorem ifChosen_found {table : ServerTable} (searching : Searching table world)
    (found : table.sCount ≠ 0) (sockfd : ℤ) :
    IfChosen (table.ntpServers 0) Eq ((world.log (.close sockfd)).log
      (.usingServer (world.deref (table.ntpServers 0)))) := by
  obtain ⟨-, entries, a, buffer⟩ := searching
  have first := entries 0 (Nat.pos_of_ne_zero found)
  have address : buffered ((world.log (.close sockfd)).log
      (.usingServer (world.deref (table.ntpServers 0)))).trace a = a := by
    rw [buffered, World.trace_log, List.latest_concat]
    rfl
  refine .inr ⟨a, ⟨first, ?_, ?_⟩, address⟩
  · rw [World.trace_log, List.latest_concat, first, World.deref, buffer]
    rfl
  · rw [address, World.ntoa_log, World.ntoa_log, buffer]

/-- A call looks the chosen address up and finds it. -/
private theorem retrying_begin
    (literal : ∀ index a he, env.gethostbyaddr index a = some he → he.hAddr = a)
    {serverHost : CharPtr} {ready : World} (ifChosen : IfChosen serverHost Eq world)
    (setUp : SetUp world ready) {userver : HostInfo}
    (resolved : Resolved env (world.deref serverHost) userver) :
    Retrying serverHost userver.addr.sinAddr (ready.setTimer (unsetTimer ready.vars.pollTimer)) := by
  refine IfChosen.setTimer (IfChosen.setUp ?_ setUp) _
  rcases ifChosen with none | ⟨chosen, follows, same⟩
  · exact .inl none
  · refine .inr ⟨chosen, follows, ?_⟩
    have denotes : inetPton (world.deref serverHost) = some chosen := by
      rw [follows.pointer, World.deref, follows.buffer, same, inetPton_dotted]
    obtain ⟨index, he, found, address⟩ := resolved chosen denotes
    rw [address, literal index chosen he found]

/-- An undisturbed call that fails leaves the chosen address. -/
private theorem ifChosen_exhausted {serverHost : CharPtr} {queried : InAddr}
    (retrying : Retrying serverHost queried world)
    (undisturbed : Undisturbed world.trace (.errorMessage 4)) :
    IfChosen serverHost Eq (world.log (.errorMessage 4)) := by
  refine IfChosen.log ?_ ⟨rfl, rfl⟩
  rcases retrying with none | ⟨chosen, follows, -⟩
  · exact .inl none
  · refine .inr ⟨chosen, follows, ?_⟩
    rw [buffered]
    cases left : world.trace.latest leftReply with
    | none => rfl
    | some reply =>
      cases reply with
      | none => rfl
      | some replyAddr =>
        have same := undisturbed rfl replyAddr _ left follows.host
        rw [inetPton_dotted] at same
        exact (Option.some.inj same).symm

private theorem queries_step
    (literal : ∀ index a he, env.gethostbyaddr index a = some he → he.hAddr = a)
    {phase next : Phase} {final : World} (step : ClientStep env cSet phase world next final)
    (undisturbed : final.trace.EachAfter Undisturbed) (asks : world.trace.EachAfter AsksChosen)
    (queries : Queries phase world) : final.trace.EachAfter AsksChosen ∧ Queries next final := by
  cases step with
  | direct => exact ⟨asks, .inl queries⟩
  | searchFailed code setUp => exact ⟨asksChosen_unsent (asksChosen_setUp asks setUp) rfl, trivial⟩
  | searchUnsent code sockfd addr setUp =>
    have sent := queries_search env asks queries setUp sockfd addr false
    exact ⟨asksChosen_unsent sent.1 rfl, trivial⟩
  | search sockfd addr ntpServers setUp =>
    have sent := queries_search env asks queries setUp sockfd addr true
    refine ⟨asksChosen_unsent sent.1 rfl, unchosen_concat sent.2 rfl, ?_, _, rfl⟩
    exact fun index bound => absurd bound (Nat.not_lt_zero index)
  | gather step => exact queries_collect asks queries step
  | gatherStopped step => exact queries_collect asks queries step
  | unfound step => exact ⟨asksChosen_unsent (queries_collect asks queries step).1 rfl, trivial⟩
  | found step found =>
    have kept := queries_collect asks queries step
    exact ⟨asksChosen_unsent (asksChosen_unsent kept.1 rfl) rfl, ifChosen_found kept.2 found _⟩
  | setUpFailed code setUp =>
    exact ⟨asksChosen_unsent (asksChosen_setUp asks setUp) rfl,
      (IfChosen.setUp queries setUp).log ⟨rfl, rfl⟩⟩
  | begin sockfd userver setUp resolved =>
    exact ⟨asksChosen_unsent (asksChosen_setUp asks setUp) rfl,
      retrying_begin literal queries setUp resolved⟩
  | retry step => exact queries_attempt asks queries step
  | retryStopped step => exact ⟨(queries_attempt asks queries step).1, trivial⟩
  | exhausted step =>
    have kept := queries_attempt asks queries step
    exact ⟨asksChosen_unsent kept.1 rfl,
      ifChosen_exhausted kept.2 (List.eachAfter_concat.mp undisturbed).2⟩
  | sampled step =>
    have kept := queries_attempt asks queries step
    refine ⟨?_, kept.2.sample _ rfl _⟩
    obtain ⟨_, _, _, _, _, trace⟩ := World.trace_sample ..
    rw [trace]
    exact asksChosen_unsent (asksChosen_unsent kept.1 rfl) rfl
  | wait => exact ⟨asksChosen_unsent asks rfl, IfChosen.log queries ⟨rfl, rfl⟩⟩
  | waited => exact ⟨asksChosen_unsent asks rfl, IfChosen.log queries ⟨rfl, rfl⟩⟩
  | finish totals =>
    refine ⟨asksChosen_unsent asks ?_, trivial⟩
    rw [MainLocals.statistics]
    split <;> rfl

end Steps

/-- If no call of a run runs out of retries with another host's address in the buffer, every request
after discovery goes to the server it chose. -/
theorem clientMain_asks_chosen (env : Env) (cSet : ClientSettings) (fuel : ℕ)
    (ntpServers : ℕ → CharPtr) (offsetTotal errorBoundTotal : ℚ) (ntoa : Text) (vars : SampleVars)
    (literal : ∀ index a he, env.gethostbyaddr index a = some he → he.hAddr = a)
    (undisturbed : (finalWorld (clientMain env fuel cSet ntpServers offsetTotal errorBoundTotal
      ⟨ntoa, vars, []⟩)).trace.EachAfter Undisturbed) :
    (finalWorld (clientMain env fuel cSet ntpServers offsetTotal errorBoundTotal
      ⟨ntoa, vars, []⟩)).trace.EachAfter AsksChosen := by
  obtain ⟨phase, reaches⟩ :=
    clientMain_reaches env cSet ⟨ntoa, vars, []⟩ fuel ntpServers offsetTotal errorBoundTotal
  refine (reaches.invariant (fun phase world => world.trace.EachAfter Undisturbed →
    world.trace.EachAfter AsksChosen ∧ Queries phase world) ?_ ?_ undisturbed).1
  · exact fun _ => ⟨List.eachAfter_nil _, rfl⟩
  · intro phase world next final step before undisturbed
    obtain ⟨asks, queries⟩ := before (undisturbed.of_prefix step.trace_prefix)
    exact queries_step literal step undisturbed asks queries

/-- The clock stands still until discovery has its reply, and then advances with every event. -/
def repeatClock (index : ℕ) : Timeval :=
  if index < 10 then ⟨1000000000, 0⟩ else ⟨1000000000 + 16 * index, 0⟩

/-- Discovery finds one server, and every later request is answered by another host. -/
def repeatEnv (replyLast : Bool) : Env :=
  { Env.benign repeatClock fun index =>
      if index = 8 then some Discovery.groupReply else some ⟨Discovery.discardedAddr, []⟩ with
    replyLast := fun _ => replyLast }

/-- Two repeats of one attempt each. -/
def repeatSettings : ClientSettings :=
  { ClientSettings.defaults .ntoaBuffer 1 with
    maxUnicastRetries := 1, timedRepeatUpdatesEnabled := 1, timedRepeatUpdatesLimit := 2 }

def repeatRun (replyLast : Bool) : EStateM.Result Stop World ℤ :=
  clientMain (repeatEnv replyLast) 5 repeatSettings (fun _ => .text []) 0 0
    ⟨[], ⟨0, 0, default⟩, []⟩

private theorem repeatEnv_literal (replyLast : Bool) (index : ℕ) (a : InAddr) (he : Hostent)
    (found : (repeatEnv replyLast).gethostbyaddr index a = some he) : he.hAddr = a := by
  obtain rfl := Option.some.inj found
  rfl

/-- When the address of the reply is formatted first, the chosen server stays in the buffer. -/
theorem clientMain_asks_chosen_replyFirst :
    (finalWorld (repeatRun false)).trace.EachAfter AsksChosen := by
  apply clientMain_asks_chosen _ _ _ _ _ _ _ _ (repeatEnv_literal false)
  have unleft : ∀ event ∈ (finalWorld (repeatRun false)).trace, (leftReply event).join = none := by
    decide +kernel
  intro before event after split _ replyAddr host left
  obtain ⟨writing, member, selected⟩ := List.exists_mem_of_latest left
  have unwritten := unleft writing (split ▸ List.mem_append_left _ member)
  simp [selected] at unwritten

/-- When it is formatted last, the second repeat asks the host that answered the first. -/
theorem clientMain_asks_other :
    (∀ index a he, (repeatEnv true).gethostbyaddr index a = some he → he.hAddr = a) ∧
      ¬ (finalWorld (repeatRun true)).trace.EachAfter AsksChosen := by
  refine ⟨repeatEnv_literal true, fun asks => ?_⟩
  have chosen : ((finalWorld (repeatRun true)).trace.take 34).latest chosenHost =
      some (dotted Discovery.approvedAddr.sinAddr) := by decide +kernel
  have asked : ((finalWorld (repeatRun true)).trace[34]?.bind Event.request).map
      (fun request => request.2.sinAddr) = some Discovery.discardedAddr.sinAddr := by decide +kernel
  obtain ⟨⟨pkt, addr⟩, request, same⟩ := Option.map_eq_some_iff.mp asked
  obtain ⟨event, found, sent⟩ := Option.bind_eq_some_iff.mp request
  have denotes := asks.of_getElem? found pkt addr _ sent chosen
  rw [inetPton_dotted, same] at denotes
  exact absurd denotes (by decide)

end Sntp.QueriedAddress
