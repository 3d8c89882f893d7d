import Sntp.Machine.Budget
import Sntp.Model.ClientMain
import Sntp.Proofs.MainSteps
import Sntp.Proofs.ManycastSteps
import Sntp.Soundness.RetryLoop

/-! # How many requests a run sends

The request budget of a run is fixed by its settings: one request for discovery, and for each time
sample as many as there are retries. No sequence of failures, rejected replies and waits makes the
client send more, whether the run returns or stops. The potential of the retry loop is the number of
retries that are left, so the limit has to be below the largest `int`, where the counter wraps.
-/

namespace Sntp.RequestBudget

open Machine RetryLoop

/-- The requests sent so far. -/
def sent (world : World) : ℕ := requests world.trace

/-- The calls of `unicast_mode` that the settings allow. -/
def samples (cSet : ClientSettings) : ℕ :=
  if cSet.timedRepeatUpdatesEnabled = 1 then cSet.timedRepeatUpdatesLimit.toNat else 1

/-- The requests that the settings allow. -/
def requestBudget (cSet : ClientSettings) : ℕ :=
  (if cSet.manycastEnabled ≠ 0 then 1 else 0) + samples cSet * cSet.maxUnicastRetries.toNat

section Events

variable {env : Env} {world : World} (event : Event) (sockfd : ℤ) (addr : SockaddrIn)

theorem sent_log : sent (world.log event) = sent world + event.request.toList.length :=
  requests_concat ..

theorem sent_log_of_none (quiet : event.request = none) : sent (world.log event) = sent world := by
  rw [sent_log, quiet]
  rfl

@[simp] theorem sent_tick : sent (world.tick env) = sent world := sent_log_of_none _ rfl

@[simp] theorem sent_format (a : InAddr) : sent (world.format a) = sent world := rfl

@[simp] theorem sent_setTimer (time : Timeval) : sent (world.setTimer time) = sent world :=
  sent_log_of_none _ rfl

theorem sent_setUp {final : World} (setUp : SetUp world final) : sent final = sent world := by
  obtain ⟨events, all, rfl⟩ := setUp
  have quiet : events.filterMap Event.request = [] :=
    List.filterMap_eq_nil_iff.mpr fun event member => (all event member).request_eq_none
  rw [sent, requests, List.filterMap_append, quiet, List.append_nil]
  rfl

theorem sent_search (success : Bool) : sent (world.search env sockfd addr success) = sent world + 1 := by
  rw [sent, World.trace_search, requests_concat]
  exact congrArg (· + 1) sent_tick

theorem sent_dispatch (success : Bool) :
    sent (world.dispatch env sockfd addr success) = sent world + 1 := by
  rw [sent, World.trace_dispatch, requests_concat, World.trace_startTimer]
  simp only [requests_concat]
  rfl

theorem sent_sample (userver : HostInfo) (received : Received) :
    sent (world.sample env sockfd userver received) = sent world := by
  obtain ⟨_, _, _, _, _, trace⟩ := World.trace_sample env sockfd world userver received
  rw [sent, trace, requests_concat, requests_concat]
  rfl

theorem sent_asked {pollWait : ℤ} {success : Bool} {request : NtpPacket} {asked : World}
    (step : Asked env pollWait sockfd addr success world request asked) :
    sent asked = sent world + 1 := by
  cases step with
  | intro wait =>
    rw [sent_dispatch]
    cases wait with
    | unset => rfl
    | elapsed => rw [sent_tick]

end Events

theorem sent_answer {env : Env} {world : World} (sockfd : ℤ) (addr : SockaddrIn) (datagram : Datagram)
    (replyLast : Bool) : sent (world.answer env sockfd addr datagram replyLast) = sent world := by
  rw [sent, World.trace_answer, requests_concat, requests_concat, World.trace_arrive, requests_concat]
  rfl

variable {env : Env} {cSet : ClientSettings} {world : World}

/-- The retries that are left at a value of `retry_count`. -/
def left (cSet : ClientSettings) (retryCount : ℤ) : ℕ :=
  (cSet.maxUnicastRetries + 1 - retryCount).toNat

/-- A turn of the retry loop, seen as a payment. -/
private def Paid (cSet : ClientSettings) (retryCount : ℤ) (world : World) :
    EStateM.Result Stop World (ℤ ⊕ Option Received) → Prop
  | .ok (.inl next) final =>
    1 ≤ next ∧ sent final + left cSet next ≤ sent world + left cSet retryCount
  | .ok (.inr _) final | .error _ final => sent final ≤ sent world + left cSet retryCount

/-- A turn sends a request and counts it, or does neither. -/
private theorem paid_attempt {sockfd : ℤ} {userver : HostInfo} {retryCount : ℤ}
    (limit : cSet.maxUnicastRetries < 2 ^ 31 - 1) (positive : 1 ≤ retryCount)
    (open_ : retryCount ≤ cSet.maxUnicastRetries)
    {result : EStateM.Result Stop World (ℤ ⊕ Option Received)}
    (step : AttemptStep env cSet.pollWait sockfd userver retryCount world result) :
    Paid cSet retryCount world result := by
  have counted : toInt (retryCount + 1) = retryCount + 1 := by
    rw [toInt, Int.bmod_def]
    omega
  have lowered : left cSet (retryCount + 1) + 1 = left cSet retryCount := by
    rw [left, left]
    omega
  -- A turn that sends one request goes round again with one retry less, or leaves the loop.
  have again {final : World} (once : sent final = sent world + 1) :
      Paid cSet retryCount world (.ok (.inl (toInt (retryCount + 1))) final) := by
    rw [counted]
    exact ⟨by omega, by omega⟩
  have leaves {final : World} (once : sent final = sent world + 1) :
      sent final ≤ sent world + left cSet retryCount := by omega
  cases step with
  | exhausted => exact Nat.le_add_right ..
  | waiting => exact ⟨positive, by rw [sent_tick]⟩
  | unsent asked => exact again (sent_tick.trans (sent_asked _ _ asked))
  | unfinished asked => exact leaves (sent_asked _ _ asked)
  | unanswered asked =>
    exact again (sent_tick.trans ((sent_log_of_none _ rfl).trans (sent_asked _ _ asked)))
  | overrun _ asked => exact leaves ((sent_log_of_none _ rfl).trans (sent_asked _ _ asked))
  | rejected _ _ asked =>
    exact again (sent_tick.trans ((sent_answer ..).trans (sent_asked _ _ asked)))
  | accepted _ _ asked => exact leaves ((sent_answer ..).trans (sent_asked _ _ asked))

/-- The retry loop spends the retries that are left. -/
private theorem spends_retries (fuel : ℕ) (limit : cSet.maxUnicastRetries < 2 ^ 31 - 1) (sockfd : ℤ)
    (userver : HostInfo) :
    Spends sent cSet.maxUnicastRetries.toNat
      (loop .outOfFuel (attempt env cSet fuel sockfd userver) fuel 1) world := by
  have all : left cSet 1 = cSet.maxUnicastRetries.toNat := by rw [left, Int.add_sub_cancel]
  rw [← all]
  refine spends_loop (1 ≤ ·) (left cSet) (fun retryCount state positive => ?_) fuel 1 le_rfl
  rcases lt_or_ge cSet.maxUnicastRetries retryCount with used | open_
  · exact (wp_of_ok (attempt_exhausted used)).mpr (Nat.le_add_right ..)
  refine (wp_attempt fuel retryCount).mono ?_ fun stop final step =>
    paid_attempt limit positive open_ step
  rintro (next | answer) final step
  · exact paid_attempt limit positive open_ step
  · exact paid_attempt limit positive open_ step

/-- A call of `unicast_mode` sends at most its retries. -/
theorem spends_unicastMode (fuel : ℕ) (limit : cSet.maxUnicastRetries < 2 ^ 31 - 1) :
    Spends sent cSet.maxUnicastRetries.toNat (unicastMode env cSet fuel) world := by
  apply wp_unicastMode_cases
  · exact fun _ => (sent_log_of_none _ rfl).trans_le (Nat.le_add_right ..)
  · exact fun _ _ _ _ _ opened => (sent_setUp opened.setUp).trans_le (Nat.le_add_right ..)
  intro sockfd userver ready _ opened _
  have before : sent (ready.setTimer (unsetTimer ready.vars.pollTimer)) = sent world :=
    (sent_setTimer _).trans (sent_setUp opened.setUp)
  rw [← before]
  refine Wp.mono (spends_retries fuel limit sockfd userver) ?_ fun _ _ bound => bound
  rintro (_ | received) final bound
  · exact bound
  · exact (sent_sample ..).trans_le bound

theorem spends_takeSample (fuel : ℕ) (limit : cSet.maxUnicastRetries < 2 ^ 31 - 1) :
    Spends sent cSet.maxUnicastRetries.toNat (takeSample env cSet fuel) world := by
  rw [takeSample, Spends, wp_bind]
  refine Wp.mono (spends_unicastMode fuel limit) ?_ fun _ _ bound => bound
  intro exitCode final bound
  rw [wp_ite]
  exact ⟨fun _ => (sent_log_of_none _ rfl).trans_le bound, fun _ => bound⟩

/-- Waiting sends nothing. -/
private theorem spends_waitPoll (fuel : ℕ) (counter : ℤ) :
    Spends sent 0 (loop .outOfFuel (waitPoll env cSet counter) fuel ()) world := by
  refine spends_loop (fun _ => True) (fun _ => 0) (fun _ state _ => ?_) fuel () trivial
  rw [waitPoll, wp_ite]
  refine ⟨fun _ => ?_, fun _ => le_rfl⟩
  simp only [wp_bind, wp_get, wp_elapsedTime, wp_ite, wp_pure, Sum.elim_inl, Sum.elim_inr, sent_tick,
    Nat.add_zero, le_refl, and_self, implies_true]

/-- Gathering sends nothing. -/
private theorem sent_collect {waitTime sockfd : ℤ} {request : NtpPacket} {timer : Timeval}
    {table : ServerTable} {result : EStateM.Result Stop World (ServerTable ⊕ ServerTable)}
    (step : CollectStep env waitTime sockfd request timer table world result) :
    sent (finalWorld result) = sent world := by
  cases step with
  | finished => exact sent_tick
  | silent => exact (sent_log_of_none _ rfl).trans sent_tick
  | overrun => exact (sent_log_of_none _ rfl).trans sent_tick
  | discarded | full | approved =>
    exact sent_tick.trans ((sent_log_of_none _ rfl).trans sent_tick)

/-- Discovery sends one request. -/
theorem spends_discover (fuel : ℕ) (ntpServers : ℕ → CharPtr) :
    Spends sent 1 (discoverUnicastServersWithManycast env cSet fuel ntpServers) world := by
  apply wp_discover
  · exact fun _ _ _ setUp => (sent_setUp setUp).trans_le (Nat.le_succ _)
  · intro _ ready sockfd addr _ setUp
    rw [sent_search, sent_setUp setUp]
  intro ready sockfd addr setUp searched
  have before : sent searched = sent world + 1 := by rw [sent_search, sent_setUp setUp]
  refine wp_loop (fun _ state => sent state = sent world + 1) ?_ (fun _ _ same => same.le) fuel _
    (sent_tick.trans before)
  intro table state same
  refine (wp_collect sockfd _ _ table).mono ?_ fun _ _ step => ((sent_collect step).trans same).le
  rintro (next | next) final step
  · exact (sent_collect step).trans same
  · rw [Sum.elim_inr]
    split
    · exact ((sent_collect step).trans same).le
    · exact ((sent_log_of_none _ rfl).trans ((sent_collect step).trans same)).le

/-- Choosing a server sends one request when it is discovered. -/
theorem spends_chooseServer (fuel : ℕ) (ntpServers : ℕ → CharPtr) :
    Spends sent (if cSet.manycastEnabled ≠ 0 then 1 else 0) (chooseServer env fuel cSet ntpServers)
      world := by
  rw [chooseServer, Spends, wp_ite]
  refine ⟨fun enabled => ?_, fun _ => Nat.le_add_right ..⟩
  rw [wp_bind, if_pos enabled]
  refine Wp.mono (spends_discover fuel ntpServers) ?_ fun _ _ bound => bound
  rintro ⟨exitCode, table⟩ final bound
  rw [wp_ite]
  exact ⟨fun _ => (sent_log_of_none _ rfl).trans_le bound,
    fun _ => (sent_log_of_none _ rfl).trans_le bound⟩

/-- The choice of a server leaves the budget for the samples. -/
private theorem samples_of_chooseServer {fuel : ℕ} {ntpServers : ℕ → CharPtr} {settings : ClientSettings}
    {final : World} (chosen : chooseServer env fuel cSet ntpServers world = .ok settings final) :
    settings.maxUnicastRetries = cSet.maxUnicastRetries ∧ samples settings = samples cSet := by
  have kept : Wp (chooseServer env fuel cSet ntpServers)
      (fun settings _ => settings.maxUnicastRetries = cSet.maxUnicastRetries ∧
        samples settings = samples cSet) (fun _ _ => True) world :=
    wp_chooseServer (fun _ => ⟨rfl, rfl⟩) fun _ _ _ _ _ => ⟨rfl, rfl⟩
  exact kept.of_ok chosen

/-- The samples that are left at a value of `counter`. -/
private def samplesLeft (cSet : ClientSettings) (counter : ℤ) : ℕ :=
  (cSet.timedRepeatUpdatesLimit - counter).toNat

/-- The repeat loop spends the retries of every sample that is left. -/
private theorem spends_repeats (fuel : ℕ) (limit : cSet.maxUnicastRetries < 2 ^ 31 - 1) (turns : ℕ)
    (start : ℤ × MainLocals) :
    Spends sent (samplesLeft cSet start.1 * cSet.maxUnicastRetries.toNat)
      (loop .outOfFuel (repeatSample env cSet fuel) turns start) world := by
  refine spends_loop (fun _ => True)
    (fun locals => samplesLeft cSet locals.1 * cSet.maxUnicastRetries.toNat) ?_ turns start trivial
  rintro ⟨counter, totals⟩ state -
  rw [repeatSample, wp_ite]
  refine ⟨fun below => ?_, fun _ => Nat.le_add_right ..⟩
  have next : samplesLeft cSet counter = samplesLeft cSet (counter + 1) + 1 := by
    rw [samplesLeft, samplesLeft]
    omega
  rw [wp_bind]
  refine Wp.mono (spends_waitPoll fuel counter) ?_ fun _ _ bound => bound.trans (by simp)
  intro _ ready waited
  rw [wp_bind]
  refine Wp.mono (spends_takeSample fuel limit) ?_ ?_
  · intro exitCode called taken
    have paid : sent called + samplesLeft cSet (counter + 1) * cSet.maxUnicastRetries.toNat ≤
        sent state + samplesLeft cSet counter * cSet.maxUnicastRetries.toNat := by
      rw [next, Nat.add_mul, Nat.one_mul]
      omega
    rw [wp_ite]
    exact ⟨fun _ => ⟨trivial, paid⟩, fun _ => ⟨trivial, paid⟩⟩
  · intro stop final bound
    rw [next, Nat.add_mul, Nat.one_mul]
    omega

/-- A run sends no more requests than its settings allow: one for discovery, and for each sample as
many as there are retries. -/
theorem clientMain_requests_le (env : Env) (cSet : ClientSettings) (fuel : ℕ) (ntpServers : ℕ → CharPtr)
    (offsetTotal errorBoundTotal : ℚ) (world : World) (limit : cSet.maxUnicastRetries < 2 ^ 31 - 1) :
    requests (finalWorld
      (clientMain env fuel cSet ntpServers offsetTotal errorBoundTotal world)).trace ≤
        requests world.trace + requestBudget cSet := by
  have run : Spends sent (requestBudget cSet)
      (clientMain env fuel cSet ntpServers offsetTotal errorBoundTotal) world := by
    refine spends_bind (spends_chooseServer fuel ntpServers) fun settings started chosen => ?_
    obtain ⟨sameRetries, sameSamples⟩ := samples_of_chooseServer chosen
    rw [← sameRetries] at limit
    rw [← sameRetries, ← sameSamples, Spends, wp_ite, samples]
    constructor
    · intro once
      rw [if_neg once, Nat.one_mul, wp_bind]
      exact spends_takeSample fuel limit
    · intro repeats
      rw [if_pos (not_not.mp repeats), wp_bind]
      have all : samplesLeft settings 0 = settings.timedRepeatUpdatesLimit.toNat := by
        rw [samplesLeft, Int.sub_zero]
      rw [← all]
      refine Wp.mono (spends_repeats fuel limit fuel (0, _)) (fun totals final bound => ?_)
        fun _ _ bound => bound
      refine (sent_log_of_none _ ?_).trans_le bound
      rw [MainLocals.statistics]
      split
      · rfl
      · rfl
  exact finalWorld_of_wp run

/-- Two samples of two retries each, on a network where no reply comes. -/
theorem clientMain_requests_le_silent :
    requests (finalWorld (clientMain silentEnv 100
      { silentSettings 2 with timedRepeatUpdatesEnabled := 1, timedRepeatUpdatesLimit := 2 }
      (fun _ => .ntoaBuffer) 0 0 ⟨[], ⟨0, 0, default⟩, []⟩)).trace ≤ 4 :=
  clientMain_requests_le _ _ _ _ _ _ _ (by decide)

end Sntp.RequestBudget
