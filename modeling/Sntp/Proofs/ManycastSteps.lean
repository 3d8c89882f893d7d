import Sntp.Model.Manycast
import Sntp.Proofs.UnicastSteps

/-! # The steps of discovery

`CollectStep` lists the outcomes of one turn of the loop that gathers replies. Every entry it
stores is the same pointer, the buffer of `inet_ntoa`, and every datagram, approved or not, rewrites
the text behind it.
-/

namespace Sntp

open Machine

namespace World

/-- A datagram arrives during discovery and its source is formatted. -/
def gather (env : Env) (sockfd : ℤ) (datagram : Datagram) (world : World) : World :=
  (((world.tick env).arrive sockfd datagram).tick env).format datagram.source.sinAddr

/-- The manycast request is created and passed to `sendto`. -/
def search (env : Env) (sockfd : ℤ) (addr : SockaddrIn) (success : Bool) (world : World) : World :=
  let sent := (world.tick env).log (.sendto sockfd (world.request env) addr success)
  if success then sent.format addr.sinAddr else sent

@[simp] theorem trace_gather (env : Env) (sockfd : ℤ) (datagram : Datagram) (world : World) :
    (world.gather env sockfd datagram).trace =
      (world.tick env).trace ++ [.recvfrom sockfd (some datagram)] ++
        [.gettimeofday (((world.tick env).arrive sockfd datagram).now env)] := rfl

@[simp] theorem trace_search (env : Env) (sockfd : ℤ) (addr : SockaddrIn) (success : Bool)
    (world : World) : (world.search env sockfd addr success).trace =
      (world.tick env).trace ++ [.sendto sockfd (world.request env) addr success] := by
  cases success <;> rfl

theorem trace_prefix_search (env : Env) (sockfd : ℤ) (addr : SockaddrIn) (success : Bool)
    (world : World) : world.trace <+: (world.search env sockfd addr success).trace := by
  rw [trace_search, trace_tick, List.append_assoc]
  exact List.prefix_append ..

end World

/-- The table with one more server. -/
def ServerTable.approve (table : ServerTable) : ServerTable :=
  ⟨Function.update table.ntpServers table.sCount .ntoaBuffer, table.sCount + 1⟩

/-- The servers of the table are the buffer of `inet_ntoa`. -/
def ServerTable.Buffered (table : ServerTable) : Prop :=
  ∀ index < table.sCount, table.ntpServers index = .ntoaBuffer

theorem ServerTable.Buffered.approve {table : ServerTable} (buffered : table.Buffered) :
    table.approve.Buffered := by
  intro index bound
  rcases Nat.lt_succ_iff_lt_or_eq.mp bound with old | rfl
  · exact (Function.update_of_ne (Nat.ne_of_lt old) ..).trans (buffered index old)
  · exact Function.update_self ..

/-- One turn of the gathering loop, which goes round again with an `inl` table. -/
inductive CollectStep (env : Env) (waitTime : ℤ) (sockfd : ℤ) (request : NtpPacket)
    (timer : Timeval) (table : ServerTable) (world : World) :
    EStateM.Result Stop World (ServerTable ⊕ ServerTable) → Prop
  | finished : waitTime < getElapsedTime timer (world.now env) →
      CollectStep env waitTime sockfd request timer table world (.ok (.inr table) (world.tick env))
  | silent :
      getElapsedTime timer (world.now env) ≤ waitTime →
      CollectStep env waitTime sockfd request timer table world
        (.ok (.inl table) ((world.tick env).log (.recvfrom sockfd none)))
  | overrun (datagram : Datagram) :
      CollectStep env waitTime sockfd request timer table world
        (.error .overrun ((world.tick env).arrive sockfd datagram))
  | discarded (datagram : Datagram) :
      getElapsedTime timer (world.now env) ≤ waitTime →
      runSanityChecks request (datagram.packet env.host) ≠ 0 →
      CollectStep env waitTime sockfd request timer table world
        (.ok (.inl table) (world.gather env sockfd datagram))
  | full (datagram : Datagram) :
      CollectStep env waitTime sockfd request timer table world
        (.error .overrun (world.gather env sockfd datagram))
  | approved (datagram : Datagram) :
      getElapsedTime timer (world.now env) ≤ waitTime →
      runSanityChecks request (datagram.packet env.host) = 0 →
      CollectStep env waitTime sockfd request timer table world
        (.ok (.inl table.approve) (world.gather env sockfd datagram))

variable {env : Env} {cSet : ClientSettings} {world : World}

/-- A turn of the gathering loop only adds events. -/
theorem CollectStep.trace_prefix {waitTime sockfd : ℤ} {request : NtpPacket} {timer : Timeval}
    {table : ServerTable} {result : EStateM.Result Stop World (ServerTable ⊕ ServerTable)}
    (step : CollectStep env waitTime sockfd request timer table world result) :
    world.trace <+: (finalWorld result).trace := by
  cases step <;> simp [finalWorld, World.arrive, List.append_assoc]

/-- Every turn of the gathering loop is one of the steps. -/
theorem wp_collect (sockfd : ℤ) (request : NtpPacket) (timer : Timeval) (table : ServerTable) :
    Wp (collect env cSet sockfd request timer table)
      (fun next final =>
        CollectStep env cSet.manycastWaitTime sockfd request timer table world (.ok next final))
      (fun stop final =>
        CollectStep env cSet.manycastWaitTime sockfd request timer table world (.error stop final))
      world := by
  rw [collect, wp_bind, wp_elapsedTime, wp_ite]
  refine ⟨fun early => ?_, fun late => .finished (not_le.mp late)⟩
  rw [wp_bind]
  apply wp_recieveOnClient
  · intro received failed
    simpa [failed] using CollectStep.silent early
  · exact fun datagram _ => .overrun datagram
  intro datagram _ arrived
  have stored : (datagram.received (arrived.now env)).code = 0 := rfl
  simp only [stored, ne_eq, not_true_eq_false, ↓reduceIte, wp_bind, wp_inetNtoa, wp_ite,
    Datagram.load_received, wp_throw, wp_pure]
  refine ⟨fun fails => .discarded datagram early fails, fun passes => ⟨fun _ => .full datagram, ?_⟩⟩
  exact fun _ => .approved datagram early (not_not.mp passes)

/-- Discovery is refused a socket, its timeout, the group, its time to live or the request, or gathers
replies to the request it sent. -/
theorem wp_discover_codes (fuel : ℕ) (ntpServers : ℕ → CharPtr)
    {returned : ℤ × ServerTable → World → Prop} {stopped : Stop → World → Prop}
    (refused : env.socket world.trace.length = -1 →
      returned (3, ⟨ntpServers, 0⟩) (world.log (.socket (-1))))
    (untimed : ∀ sockfd time, Opened env world sockfd (world.log (.socket sockfd)) →
      returned (8, ⟨ntpServers, 0⟩)
        ((world.log (.socket sockfd)).log (.setsockopt sockfd (.receiveTimeout time) false)))
    (unresolved : ∀ sockfd ready (event : Event), event.FindsNothing → Opened env world sockfd ready →
      returned (2, ⟨ntpServers, 0⟩) (ready.log event))
    (unlimited : ∀ sockfd ready, Opened env world sockfd ready →
      returned (7, ⟨ntpServers, 0⟩) (ready.log (.setsockopt sockfd (.multicastTtl 55) false)))
    (unsent : ∀ ready sockfd he, Opened env world sockfd ready →
      lookUp env (world.trace.length + 2) cSet.manycastAddress = some he →
      returned (5, ⟨ntpServers, 0⟩)
        (ready.search env sockfd (he.sockaddr env cSet.serverPort) false))
    (gathering : ∀ ready sockfd he, Opened env world sockfd ready →
      lookUp env (world.trace.length + 2) cSet.manycastAddress = some he →
      let sent := ready.search env sockfd (he.sockaddr env cSet.serverPort) true
      Wp (loop .outOfFuel (collect env cSet sockfd (ready.request env) (sent.now env)) fuel
          ⟨ntpServers, 0⟩)
        (fun table final =>
          if table.sCount = 0 then returned (6, table) final
          else returned (0, table) (final.log (.close sockfd)))
        stopped (sent.tick env)) :
    Wp (discoverUnicastServersWithManycast env cSet fuel ntpServers) returned stopped world := by
  rw [discoverUnicastServersWithManycast, wp_bind]
  apply wp_initialiseSocket
  · exact refused
  intro sockfd success valid same _
  have opened : Opened env world sockfd (world.log (.socket sockfd)) := .socket valid same
  have created := opened.setsockopt (.receiveTimeout ⟨manycastRecvTimeout, 0⟩) success
  cases success with
  | false => exact untimed sockfd _ opened
  | true =>
    simp only [↓reduceIte]
    rw [wp_bind]
    apply wp_initialiseServerInterface_asks
    · exact fun event nothing _ => unresolved sockfd _ event nothing created
    intro event he name prepares found
    have second : ((world.log (.socket sockfd)).log (.setsockopt sockfd
        (.receiveTimeout ⟨manycastRecvTimeout, 0⟩) true)).trace.length = world.trace.length + 2 := by simp
    rw [second] at found
    have resolved := created.log prepares
    have ready := resolved.setsockopt (.multicastTtl 55)
    simp only [wp_bind, wp_ask, wp_ite, wp_createRequest, wp_sendSntpPacket]
    refine ⟨fun refuses => ?_, fun _ => ?_⟩
    · rw [refuses]
      exact unlimited sockfd _ resolved
    split
    · simp only [ne_eq, not_true_eq_false, false_implies, not_false_eq_true, true_implies, true_and,
        wp_gettimeofday]
      rw [wp_bind]
      refine (gathering _ sockfd he (ready _) found).mono ?_ fun _ _ stop => stop
      intro table final outcome
      rw [wp_ite]
      split at outcome
      · next empty => exact ⟨fun _ => outcome, fun nonempty => absurd empty nonempty⟩
      · next nonempty => exact ⟨fun empty => absurd empty nonempty, fun _ => outcome⟩
    · simp only [ne_eq, one_ne_zero, not_false_eq_true, true_implies, not_true_eq_false,
        false_implies, and_true, wp_pure]
      exact unsent _ sockfd he (ready _) found

/-- Discovery is refused a socket, fails before a request is sent, or gathers replies to the one it
sent. -/
theorem wp_discover_opened (fuel : ℕ) (ntpServers : ℕ → CharPtr)
    {returned : ℤ × ServerTable → World → Prop} {stopped : Stop → World → Prop}
    (refused : env.socket world.trace.length = -1 →
      returned (3, ⟨ntpServers, 0⟩) (world.log (.socket (-1))))
    (failed : ∀ code sockfd final, code ≠ 0 → Opened env world sockfd final →
      returned (code, ⟨ntpServers, 0⟩) final)
    (unsent : ∀ code ready sockfd addr, code ≠ 0 → Opened env world sockfd ready →
      returned (code, ⟨ntpServers, 0⟩) (ready.search env sockfd addr false))
    (gathering : ∀ ready sockfd addr, Opened env world sockfd ready →
      let sent := ready.search env sockfd addr true
      Wp (loop .outOfFuel (collect env cSet sockfd (ready.request env) (sent.now env)) fuel
          ⟨ntpServers, 0⟩)
        (fun table final =>
          if table.sCount = 0 then returned (6, table) final
          else returned (0, table) (final.log (.close sockfd)))
        stopped (sent.tick env)) :
    Wp (discoverUnicastServersWithManycast env cSet fuel ntpServers) returned stopped world :=
  wp_discover_codes fuel ntpServers refused
    (fun sockfd _ opened => failed 8 sockfd _ (by decide) (opened.setsockopt ..))
    (fun sockfd _ _ nothing opened => failed 2 sockfd _ (by decide) (opened.log nothing.prepares))
    (fun sockfd _ opened => failed 7 sockfd _ (by decide) (opened.setsockopt ..))
    (fun ready sockfd _ opened _ => unsent 5 ready sockfd _ (by decide) opened)
    (fun ready sockfd _ opened _ => gathering ready sockfd _ opened)

/-- Discovery fails before a request is sent, or gathers replies to the one it sent. -/
theorem wp_discover (fuel : ℕ) (ntpServers : ℕ → CharPtr)
    {returned : ℤ × ServerTable → World → Prop} {stopped : Stop → World → Prop}
    (failed : ∀ code final, code ≠ 0 → SetUp world final → returned (code, ⟨ntpServers, 0⟩) final)
    (unsent : ∀ code ready sockfd addr, code ≠ 0 → SetUp world ready →
      returned (code, ⟨ntpServers, 0⟩) (ready.search env sockfd addr false))
    (gathering : ∀ ready sockfd addr, SetUp world ready →
      let sent := ready.search env sockfd addr true
      Wp (loop .outOfFuel (collect env cSet sockfd (ready.request env) (sent.now env)) fuel
          ⟨ntpServers, 0⟩)
        (fun table final =>
          if table.sCount = 0 then returned (6, table) final
          else returned (0, table) (final.log (.close sockfd)))
        stopped (sent.tick env)) :
    Wp (discoverUnicastServersWithManycast env cSet fuel ntpServers) returned stopped world := by
  apply wp_discover_opened
  · exact fun _ => failed 3 _ (by decide) ((SetUp.refl world).log trivial)
  · exact fun code _ final nonzero opened => failed code final nonzero opened.setUp
  · exact fun code ready sockfd addr nonzero opened =>
      unsent code ready sockfd addr nonzero opened.setUp
  · exact fun ready sockfd addr opened => gathering ready sockfd addr opened.setUp

end Sntp
