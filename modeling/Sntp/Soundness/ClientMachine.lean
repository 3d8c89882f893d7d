import Sntp.Model.ClientMain
import Sntp.Proofs.ManycastSteps
import Sntp.Proofs.Observations
import Mathlib.Logic.Relation

/-! # The client as a state machine

Between two turns of its loops the client is in one of a few phases, and `ClientStep` lists how it
moves between them. `clientMain_reaches` is the simulation: whatever a run of `main` leaves,
returned or stopped, the machine reaches it. What every step preserves therefore holds after every
run, and statements about whole runs are proved on the steps.
-/

namespace Sntp.ClientMachine

open Machine

/-- Where the client is. -/
inductive Phase where
  /-- Before discovery. -/
  | start
  /-- At the head of the gathering loop. -/
  | searching (sockfd : ℤ) (request : NtpPacket) (timer : Timeval) (table : ServerTable)
  /-- About to call `unicast_mode`. -/
  | ready (serverHost : CharPtr)
  /-- At the head of the retry loop. -/
  | retrying (serverHost : CharPtr) (sockfd : ℤ) (userver : HostInfo) (retryCount : ℤ)
  /-- After a call of `unicast_mode`. -/
  | between (serverHost : CharPtr)
  | done

/-- One move of the client. -/
inductive ClientStep (env : Env) (cSet : ClientSettings) : Phase → World → Phase → World → Prop
  | direct {world : World} : ClientStep env cSet .start world (.ready cSet.serverHost) world
  | searchFailed {world ready : World} (code : ℤ) : SetUp world ready →
      ClientStep env cSet .start world .done (ready.log (.errorMessage code))
  | searchUnsent {world ready : World} (code sockfd : ℤ) (addr : SockaddrIn) : SetUp world ready →
      ClientStep env cSet .start world .done
        ((ready.search env sockfd addr false).log (.errorMessage code))
  | search {world ready : World} (sockfd : ℤ) (addr : SockaddrIn) (ntpServers : ℕ → CharPtr) :
      SetUp world ready →
      ClientStep env cSet .start world
        (.searching sockfd (ready.request env) ((ready.search env sockfd addr true).now env)
          ⟨ntpServers, 0⟩)
        ((ready.search env sockfd addr true).tick env)
  | gather {world final : World} {sockfd : ℤ} {request : NtpPacket} {timer : Timeval}
      {table next : ServerTable} :
      CollectStep env cSet.manycastWaitTime sockfd request timer table world (.ok (.inl next) final) →
      ClientStep env cSet (.searching sockfd request timer table) world
        (.searching sockfd request timer next) final
  | gatherStopped {world final : World} {sockfd : ℤ} {request : NtpPacket} {timer : Timeval}
      {table : ServerTable} {stop : Stop} :
      CollectStep env cSet.manycastWaitTime sockfd request timer table world (.error stop final) →
      ClientStep env cSet (.searching sockfd request timer table) world .done final
  | unfound {world final : World} {sockfd : ℤ} {request : NtpPacket} {timer : Timeval}
      {table next : ServerTable} :
      CollectStep env cSet.manycastWaitTime sockfd request timer table world (.ok (.inr next) final) →
      next.sCount = 0 →
      ClientStep env cSet (.searching sockfd request timer table) world .done
        (final.log (.errorMessage 6))
  | found {world final : World} {sockfd : ℤ} {request : NtpPacket} {timer : Timeval}
      {table next : ServerTable} :
      CollectStep env cSet.manycastWaitTime sockfd request timer table world (.ok (.inr next) final) →
      next.sCount ≠ 0 →
      ClientStep env cSet (.searching sockfd request timer table) world
        (.ready (next.ntpServers 0))
        ((final.log (.close sockfd)).log (.usingServer (final.deref (next.ntpServers 0))))
  | setUpFailed {world ready : World} {serverHost : CharPtr} (code : ℤ) : SetUp world ready →
      ClientStep env cSet (.ready serverHost) world (.between serverHost)
        (ready.log (.errorMessage code))
  | begin {world ready : World} {serverHost : CharPtr} (sockfd : ℤ) (userver : HostInfo) :
      SetUp world ready → Resolved env (world.deref serverHost) userver →
      ClientStep env cSet (.ready serverHost) world (.retrying serverHost sockfd userver 1)
        (ready.setTimer (unsetTimer ready.vars.pollTimer))
  | retry {world final : World} {serverHost : CharPtr} {sockfd : ℤ} {userver : HostInfo}
      {retryCount next : ℤ} :
      AttemptStep env cSet.pollWait sockfd userver retryCount world (.ok (.inl next) final) →
      ClientStep env cSet (.retrying serverHost sockfd userver retryCount) world
        (.retrying serverHost sockfd userver next) final
  | retryStopped {world final : World} {serverHost : CharPtr} {sockfd : ℤ} {userver : HostInfo}
      {retryCount : ℤ} {stop : Stop} :
      AttemptStep env cSet.pollWait sockfd userver retryCount world (.error stop final) →
      ClientStep env cSet (.retrying serverHost sockfd userver retryCount) world .done final
  | exhausted {world final : World} {serverHost : CharPtr} {sockfd : ℤ} {userver : HostInfo}
      {retryCount : ℤ} :
      AttemptStep env cSet.pollWait sockfd userver retryCount world (.ok (.inr none) final) →
      ClientStep env cSet (.retrying serverHost sockfd userver retryCount) world
        (.between serverHost) (final.log (.errorMessage 4))
  | sampled {world final : World} {serverHost : CharPtr} {sockfd : ℤ} {userver : HostInfo}
      {retryCount : ℤ} {received : Received} :
      AttemptStep env cSet.pollWait sockfd userver retryCount world
        (.ok (.inr (some received)) final) →
      ClientStep env cSet (.retrying serverHost sockfd userver retryCount) world
        (.between serverHost) (final.sample env sockfd userver received)
  | wait {world : World} {serverHost : CharPtr} :
      ClientStep env cSet (.between serverHost) world (.between serverHost) (world.tick env)
  | waited {world : World} {serverHost : CharPtr} :
      cSet.pollWait < getElapsedTime world.vars.pollTimer (world.now env) →
      ClientStep env cSet (.between serverHost) world (.ready serverHost) (world.tick env)
  | finish {phase : Phase} {world : World} (totals : MainLocals) :
      ClientStep env cSet phase world .done (world.log totals.statistics)

/-- The machine gets from the start of `main` to the given phase and world. -/
def Reaches (env : Env) (cSet : ClientSettings) (initial : World) (phase : Phase) (world : World) :
    Prop :=
  Relation.ReflTransGen (fun source target : Phase × World =>
    ClientStep env cSet source.1 source.2 target.1 target.2) (.start, initial) (phase, world)

variable {env : Env} {cSet : ClientSettings} {initial world : World}

theorem Reaches.step {phase next : Phase} {final : World} (reaches : Reaches env cSet initial phase world)
    (step : ClientStep env cSet phase world next final) : Reaches env cSet initial next final :=
  Relation.ReflTransGen.tail reaches step

/-- What holds at the start and is preserved by every step holds wherever the machine gets. -/
theorem Reaches.invariant {phase : Phase} (reaches : Reaches env cSet initial phase world)
    (holds : Phase → World → Prop) (start : holds .start initial)
    (preserved : ∀ phase world next final, ClientStep env cSet phase world next final →
      holds phase world → holds next final) : holds phase world := by
  have along : ∀ target, Relation.ReflTransGen (fun source target : Phase × World =>
      ClientStep env cSet source.1 source.2 target.1 target.2) (.start, initial) target →
      holds target.1 target.2 := by
    intro target path
    induction path with
    | refl => exact start
    | tail _ step before => exact preserved _ _ _ _ step before
  exact along _ reaches

/-- A step only adds events. -/
theorem ClientStep.trace_prefix {phase next : Phase} {final : World}
    (step : ClientStep env cSet phase world next final) : world.trace <+: final.trace := by
  cases step with
  | direct => exact List.prefix_rfl
  | searchFailed _ setUp | setUpFailed _ setUp | begin _ _ setUp =>
    exact setUp.trace_prefix.trans (List.prefix_append ..)
  | searchUnsent _ _ _ setUp | search _ _ _ setUp =>
    apply setUp.trace_prefix.trans
    simp [List.append_assoc]
  | gather step | gatherStopped step => exact step.trace_prefix
  | unfound step => exact step.trace_prefix.trans (List.prefix_append ..)
  | found step =>
    apply step.trace_prefix.trans
    simp [finalWorld, List.append_assoc]
  | retry step | retryStopped step => exact step.trace_prefix
  | exhausted step => exact step.trace_prefix.trans (List.prefix_append ..)
  | sampled step =>
    apply step.trace_prefix.trans
    obtain ⟨_, _, _, _, _, trace⟩ := World.trace_sample ..
    rw [trace, List.append_assoc]
    exact List.prefix_append ..
  | wait | waited | finish => exact List.prefix_append ..

section Simulation

/-- `unicast_mode` with its error message leads from a call to the wait after it. -/
private theorem reaches_takeSample {settings : ClientSettings} (fuel : ℕ)
    (same : settings.pollWait = cSet.pollWait)
    (reaches : Reaches env cSet initial (.ready settings.serverHost) world) :
    Wp (takeSample env settings fuel)
      (fun _ final => Reaches env cSet initial (.between settings.serverHost) final)
      (fun _ final => ∃ phase, Reaches env cSet initial phase final) world := by
  have failed (code : ℤ) (ready : World) (nonzero : code ≠ 0) (setUp : SetUp world ready) :
      Reaches env cSet initial (.between settings.serverHost) (ready.log (.errorMessage code)) :=
    reaches.step (.setUpFailed code setUp)
  rw [takeSample, wp_bind]
  apply wp_unicastMode_cases
  · intro _
    have refused : SetUp world (world.log (.socket (-1))) := (SetUp.refl world).log trivial
    simpa using failed 3 _ (by decide) refused
  · intro code _ ready nonzero _ opened
    simpa [nonzero] using failed code ready nonzero opened.setUp
  intro sockfd userver ready _ opened resolved
  have begun := reaches.step (.begin sockfd userver opened.setUp resolved)
  refine wp_loop (fun retryCount state =>
    Reaches env cSet initial (.retrying settings.serverHost sockfd userver retryCount) state)
    ?_ (fun _ _ reaches => ⟨_, reaches⟩) fuel 1 begun
  intro retryCount state reaches
  apply (wp_attempt fuel retryCount).mono
  · intro next final step
    rw [same] at step
    rcases next with retry | none | received
    · exact reaches.step (.retry step)
    · simpa using reaches.step (.exhausted step)
    · simpa using reaches.step (.sampled step)
  · intro stop final step
    rw [same] at step
    exact ⟨_, reaches.step (.retryStopped step)⟩

/-- Discovery leads to the first call, or stops. -/
private theorem reaches_chooseServer (fuel : ℕ) (ntpServers : ℕ → CharPtr) :
    Wp (chooseServer env fuel cSet ntpServers)
      (fun settings final => settings.pollWait = cSet.pollWait ∧
        Reaches env cSet initial (.ready settings.serverHost) final)
      (fun _ final => ∃ phase, Reaches env cSet initial phase final) initial := by
  have start : Reaches env cSet initial .start initial := Relation.ReflTransGen.refl
  rw [chooseServer, wp_ite]
  refine ⟨fun _ => ?_, fun _ => ⟨rfl, start.step .direct⟩⟩
  rw [wp_bind]
  apply wp_discover
  · intro code ready nonzero setUp
    simpa [nonzero] using ⟨_, start.step (.searchFailed code setUp)⟩
  · intro code ready sockfd addr nonzero setUp
    simpa [nonzero] using ⟨_, start.step (.searchUnsent code sockfd addr setUp)⟩
  intro ready sockfd addr setUp sent
  refine wp_loop (fun table state =>
    Reaches env cSet initial (.searching sockfd (ready.request env) (sent.now env) table) state)
    ?_ (fun _ _ reaches => ⟨_, reaches⟩) fuel _ (start.step (.search sockfd addr ntpServers setUp))
  intro table state reaches
  refine (wp_collect sockfd _ _ table).mono ?_ fun stop final step =>
    ⟨_, reaches.step (.gatherStopped step)⟩
  intro next final step
  rcases next with next | next
  · exact reaches.step (.gather step)
  · simp only [Sum.elim_inr]
    split
    · next none => simpa using ⟨_, reaches.step (.unfound step none)⟩
    · next some =>
      simp only [↓reduceIte, wp_bind, wp_readText, wp_record, wp_pure]
      exact ⟨trivial, reaches.step (.found step some)⟩

/-- The first sample needs no wait; every later one comes after it. -/
private def AtRepeat (env : Env) (cSet : ClientSettings) (initial : World) (serverHost : CharPtr)
    (counter : ℤ) (world : World) : Prop :=
  0 ≤ counter ∧ (counter = 0 → Reaches env cSet initial (.ready serverHost) world) ∧
    (counter ≠ 0 → Reaches env cSet initial (.between serverHost) world)

private theorem AtRepeat.exists_reaches {serverHost : CharPtr} {counter : ℤ}
    (head : AtRepeat env cSet initial serverHost counter world) :
    ∃ phase, Reaches env cSet initial phase world := by
  by_cases first : counter = 0
  · exact ⟨_, head.2.1 first⟩
  · exact ⟨_, head.2.2 first⟩

/-- The busy wait leads to the next call. -/
private theorem reaches_waitPoll {settings : ClientSettings} {serverHost : CharPtr} {counter : ℤ}
    (fuel : ℕ) (same : settings.pollWait = cSet.pollWait)
    (head : AtRepeat env cSet initial serverHost counter world) :
    Wp (loop .outOfFuel (waitPoll env settings counter) fuel ())
      (fun _ final => Reaches env cSet initial (.ready serverHost) final)
      (fun _ final => ∃ phase, Reaches env cSet initial phase final) world := by
  refine wp_loop (fun _ state => AtRepeat env cSet initial serverHost counter state) ?_
    (fun _ _ head => head.exists_reaches) fuel () head
  intro _ state head
  rw [waitPoll, wp_ite]
  refine ⟨fun later => ?_, fun first => head.2.1 (not_not.mp first)⟩
  have between := head.2.2 later
  rw [wp_bind, wp_get, wp_bind, wp_elapsedTime, wp_ite, same]
  exact ⟨fun _ => ⟨head.1, fun first => absurd first later, fun _ => between.step .wait⟩,
    fun late => between.step (.waited (not_le.mp late))⟩

private theorem reaches_repeatSample {settings : ClientSettings} (fuel : ℕ)
    (same : settings.pollWait = cSet.pollWait) (counter : ℤ) (totals : MainLocals)
    (head : AtRepeat env cSet initial settings.serverHost counter world) :
    Wp (repeatSample env settings fuel (counter, totals))
      (Sum.elim (fun next => AtRepeat env cSet initial settings.serverHost next.1)
        (fun _ final => ∃ phase, Reaches env cSet initial phase final))
      (fun _ final => ∃ phase, Reaches env cSet initial phase final) world := by
  rw [repeatSample, wp_ite]
  refine ⟨fun _ => ?_, fun _ => head.exists_reaches⟩
  rw [wp_bind]
  refine (reaches_waitPoll fuel same head).mono (fun _ state ready => ?_) fun _ _ stop => stop
  rw [wp_bind]
  refine (reaches_takeSample fuel same ready).mono (fun code final after => ?_) fun _ _ stop => stop
  have next : AtRepeat env cSet initial settings.serverHost (counter + 1) final :=
    ⟨by have := head.1; omega, fun zero => by have := head.1; omega, fun _ => after⟩
  rw [wp_ite]
  exact ⟨fun _ => next, fun _ => next⟩

/-- Whatever a run of `main` leaves, the machine reaches it. -/
theorem clientMain_reaches (env : Env) (cSet : ClientSettings) (initial : World) (fuel : ℕ)
    (ntpServers : ℕ → CharPtr) (offsetTotal errorBoundTotal : ℚ) :
    ∃ phase, Reaches env cSet initial phase
      (finalWorld (clientMain env fuel cSet ntpServers offsetTotal errorBoundTotal initial)) := by
  have run : Wp (clientMain env fuel cSet ntpServers offsetTotal errorBoundTotal)
      (fun _ final => ∃ phase, Reaches env cSet initial phase final)
      (fun _ final => ∃ phase, Reaches env cSet initial phase final) initial := by
    rw [clientMain, wp_bind]
    refine (reaches_chooseServer fuel ntpServers).mono ?_ fun _ _ stop => stop
    rintro settings final ⟨same, ready⟩
    rw [wp_ite]
    constructor
    · intro once
      rw [wp_bind]
      exact (reaches_takeSample fuel same ready).mono (fun _ _ after => ⟨_, after⟩) fun _ _ stop => stop
    · intro repeats
      rw [wp_bind]
      refine wp_loop (fun next => AtRepeat env cSet initial settings.serverHost next.1) ?_
        (fun _ _ head => head.exists_reaches) fuel _ ⟨le_rfl, fun _ => ready, fun n => absurd rfl n⟩
      rintro ⟨counter, totals⟩ state head
      refine (reaches_repeatSample fuel same counter totals head).mono ?_ fun _ _ stop => stop
      rintro (next | totals) final outcome
      · exact outcome
      · obtain ⟨phase, reaches⟩ := outcome
        exact ⟨.done, reaches.step (.finish totals)⟩
  cases outcome : clientMain env fuel cSet ntpServers offsetTotal errorBoundTotal initial with
  | ok code final => exact run.of_ok outcome
  | error stop final => exact run.of_error outcome

end Simulation

end Sntp.ClientMachine
