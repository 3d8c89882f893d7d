import Sntp.Proofs.TraceGrowth
import Sntp.Soundness.GenuineSample

/-! # The statistics of a deployment

What `main` prints at the end of a repeated run is the mean of the samples it has printed, on top of what
its totals first held. In a deployment where nobody forges messages this mean is that of the true offsets of
the servers it has asked, up to the mean error bound and two microseconds.
-/

namespace Sntp.Statistics

open Machine GenuineSample Provenance

/-- The samples printed so far. -/
def samples (trace : List Event) : List (ℚ × ℚ) := trace.filterMap Event.results

/-- What the client may print about the samples before, where its totals first hold the given values. -/
def Summarises (offsetTotal errorBoundTotal : ℚ) (before : List Event) : Event → Prop
  | .statistics offset errorBound => samples before ≠ [] ∧
      offset = (offsetTotal + ((samples before).map Prod.fst).sum) / (samples before).length ∧
      errorBound = (errorBoundTotal + ((samples before).map Prod.snd).sum) / (samples before).length
  | .noSamples => samples before = []
  | _ => True

/-- The lines about all samples. -/
def summary : Event → Option Unit
  | .statistics _ _ | .noSamples => some ()
  | _ => none

section Run

variable {env : Env} {cSet : ClientSettings} {world final : World} {offsetTotal errorBoundTotal : ℚ}

/-- Each summary so far is that of the samples before it. -/
def Summarised (offsetTotal errorBoundTotal : ℚ) (state : World) : Prop :=
  state.trace.EachAfter (Summarises offsetTotal errorBoundTotal)

private theorem concerns_summary : List.Concerns summary (Summarises offsetTotal errorBoundTotal) := by
  intro before event quiet
  cases event <;> trivial

private theorem quiet_of_not_prints {event : Event} (silent : ¬ event.Prints) :
    summary event = none ∧ event.results = none := by
  cases event <;> first | exact ⟨rfl, rfl⟩ | exact absurd trivial silent

private theorem Summarised.works (summarised : Summarised offsetTotal errorBoundTotal world)
    (works : Works world final) : Summarised offsetTotal errorBoundTotal final :=
  works.eachAfter concerns_summary (fun _ silent => (quiet_of_not_prints silent).1) summarised

private theorem Summarised.log (summarised : Summarised offsetTotal errorBoundTotal world) {event : Event}
    (quiet : summary event = none) : Summarised offsetTotal errorBoundTotal (world.log event) :=
  List.EachAfter.concat_of_none summarised concerns_summary quiet

private theorem samples_works (works : Works world final) : samples final.trace = samples world.trace :=
  works.filterMap_eq fun _ silent => (quiet_of_not_prints silent).2

/-- A call that succeeds adds its sample. -/
private theorem samples_reports (reports : Reports world final) :
    samples final.trace = samples world.trace ++ [(final.vars.offset, final.vars.errorBound)] := by
  obtain ⟨before, _, _, _, _, _, works, trace⟩ := reports
  rw [trace, ← samples_works works]
  simp [samples, Event.results]

private theorem Summarised.reports (summarised : Summarised offsetTotal errorBoundTotal world)
    (reports : Reports world final) : Summarised offsetTotal errorBoundTotal final := by
  obtain ⟨before, _, _, _, _, _, works, trace⟩ := reports
  have called := summarised.works works
  rw [Summarised, trace]
  exact (called.concat_of_none concerns_summary rfl).concat_of_none concerns_summary rfl

/-- Taking a sample adds it when it succeeds. -/
private theorem Summarised.takeSample (summarised : Summarised offsetTotal errorBoundTotal world)
    (fuel : ℕ) :
    Wp (takeSample env cSet fuel)
      (fun code final => Summarised offsetTotal errorBoundTotal final ∧ samples final.trace =
        samples world.trace ++ if code = 0 then [(final.vars.offset, final.vars.errorBound)] else [])
      (fun _ final => Summarised offsetTotal errorBoundTotal final) world := by
  rw [Sntp.takeSample, wp_bind]
  refine (wp_unicastMode_reports fuel).mono ?_ fun _ _ works => summarised.works works
  intro code final outcome
  by_cases success : code = 0
  · rw [if_pos success] at outcome
    simpa [success] using ⟨summarised.reports outcome, samples_reports outcome⟩
  · rw [if_neg success] at outcome
    have logged : samples (final.trace ++ [.errorMessage code]) = samples world.trace := by
      rw [← samples_works outcome]
      simp [samples, Event.results]
    simpa [success, logged] using (summarised.works outcome).log rfl

/-- The totals of the repeat loop: the samples so far, on top of the first values. -/
private def Tallied (offsetTotal errorBoundTotal : ℚ) (totals : MainLocals) (state : World) : Prop :=
  Summarised offsetTotal errorBoundTotal state ∧
    totals.sCounter = (samples state.trace).length ∧
    totals.offsetTotal = offsetTotal + ((samples state.trace).map Prod.fst).sum ∧
    totals.errorBoundTotal = errorBoundTotal + ((samples state.trace).map Prod.snd).sum

private theorem Tallied.tick {totals : MainLocals} (tallied : Tallied offsetTotal errorBoundTotal totals world) :
    Tallied offsetTotal errorBoundTotal totals (world.tick env) := by
  have same : samples (world.tick env).trace = samples world.trace := by
    simp [samples, Event.results]
  rw [Tallied, same]
  exact ⟨tallied.1.log rfl, tallied.2⟩

private theorem Tallied.waitPoll {totals : MainLocals}
    (tallied : Tallied offsetTotal errorBoundTotal totals world) (counter : ℤ) (fuel : ℕ) :
    Wp (loop .outOfFuel (waitPoll env cSet counter) fuel ())
      (fun _ final => Tallied offsetTotal errorBoundTotal totals final)
      (fun _ final => Tallied offsetTotal errorBoundTotal totals final) world := by
  refine wp_loop (fun _ => Tallied offsetTotal errorBoundTotal totals) ?_ ?_ fuel () tallied
  swap
  · exact fun _ _ tallied => tallied
  intro _ state tallied
  rw [Sntp.waitPoll, wp_ite]
  refine ⟨fun _ => ?_, fun _ => tallied⟩
  simp only [wp_bind, wp_get, wp_elapsedTime, wp_ite, wp_pure, Sum.elim_inl, Sum.elim_inr]
  exact ⟨fun _ => tallied.tick, fun _ => tallied.tick⟩

/-- A turn of the repeat loop tallies its sample. -/
private theorem Tallied.repeatSample {counter : ℤ} {totals : MainLocals}
    (tallied : Tallied offsetTotal errorBoundTotal totals world) (fuel : ℕ) :
    Wp (repeatSample env cSet fuel (counter, totals))
      (fun next final => Tallied offsetTotal errorBoundTotal (next.elim Prod.snd id) final)
      (fun _ final => Summarised offsetTotal errorBoundTotal final) world := by
  rw [Sntp.repeatSample, wp_ite]
  refine ⟨fun _ => ?_, fun _ => tallied⟩
  rw [wp_bind]
  refine (tallied.waitPoll counter fuel).mono ?_ fun _ _ stopped => stopped.1
  rintro _ ready ⟨summarised, count, offset, errorBound⟩
  rw [wp_bind]
  refine (summarised.takeSample fuel).mono ?_ fun _ _ stopped => stopped
  rintro code final ⟨summarised, added⟩
  rw [wp_ite]
  refine ⟨fun failure => ?_, fun success => ?_⟩
  · rw [if_neg failure, List.append_nil] at added
    refine ⟨summarised, ?_⟩
    rw [added]
    exact ⟨count, offset, errorBound⟩
  · rw [if_pos (not_not.mp success)] at added
    refine ⟨summarised, ?_⟩
    rw [added, List.length_append, List.map_append, List.map_append, List.sum_append, List.sum_append]
    simp [count, offset, errorBound, add_assoc]

/-- The final summary is that of the tally. -/
private theorem Tallied.summarise {totals : MainLocals}
    (tallied : Tallied offsetTotal errorBoundTotal totals world) :
    Summarised offsetTotal errorBoundTotal (world.log totals.statistics) := by
  obtain ⟨summarised, count, offset, errorBound⟩ := tallied
  refine List.eachAfter_concat.mpr ⟨summarised, ?_⟩
  rw [MainLocals.statistics, count, offset, errorBound]
  split
  · next positive =>
    refine ⟨List.ne_nil_of_length_pos (by omega), ?_, ?_⟩ <;> rw [Int.cast_natCast]
  · next empty => exact List.length_eq_zero_iff.mp (by omega)

/-- Choosing a server prints no sample. -/
private theorem samples_chooseServer (fuel : ℕ) (ntpServers : ℕ → CharPtr) :
    Wp (chooseServer env fuel cSet ntpServers)
      (fun _ final => Adds (fun event => summary event = none ∧ event.results = none) world final)
      (fun _ final => Adds (fun event => summary event = none ∧ event.results = none) world final)
      world := by
  rw [chooseServer, wp_ite]
  refine ⟨fun _ => ?_, fun _ => .refl world⟩
  rw [wp_bind]
  refine (wp_discover_works fuel ntpServers).mono ?_
    fun _ _ works => works.mono fun _ => quiet_of_not_prints
  rintro ⟨exitCode, table⟩ final works
  have quiet := works.mono fun _ => quiet_of_not_prints
  rw [wp_ite]
  exact ⟨fun _ => quiet.log ⟨rfl, rfl⟩, fun _ => quiet.log ⟨rfl, rfl⟩⟩

/-- In every run of the client what it prints at the end is the mean of the samples it has printed, on
top of what its totals first held. -/
theorem clientMain_summarises (env : Env) (cSet : ClientSettings) (fuel : ℕ) (ntpServers : ℕ → CharPtr)
    (offsetTotal errorBoundTotal : ℚ) (ntoa : Text) (vars : SampleVars) :
    (finalWorld (clientMain env fuel cSet ntpServers offsetTotal errorBoundTotal
      ⟨ntoa, vars, []⟩)).trace.EachAfter (Summarises offsetTotal errorBoundTotal) := by
  have start : Summarised offsetTotal errorBoundTotal ⟨ntoa, vars, []⟩ := List.eachAfter_nil _
  have run : Wp (clientMain env fuel cSet ntpServers offsetTotal errorBoundTotal)
      (fun _ final => Summarised offsetTotal errorBoundTotal final)
      (fun _ final => Summarised offsetTotal errorBoundTotal final) ⟨ntoa, vars, []⟩ := by
    rw [clientMain, wp_bind]
    refine (samples_chooseServer fuel ntpServers).mono ?_
      fun _ _ quiet => quiet.eachAfter concerns_summary (fun _ => And.left) start
    intro chosen ready quiet
    have summarised : Summarised offsetTotal errorBoundTotal ready :=
      quiet.eachAfter concerns_summary (fun _ => And.left) start
    have none : samples ready.trace = [] := quiet.filterMap_eq fun _ => And.right
    rw [wp_ite]
    refine ⟨fun _ => ?_, fun _ => ?_⟩
    · rw [wp_bind]
      exact (summarised.takeSample fuel).mono (fun _ _ outcome => outcome.1) fun _ _ stopped => stopped
    · rw [wp_bind]
      refine wp_loop (fun locals => Tallied offsetTotal errorBoundTotal locals.2) ?_ ?_ fuel _ ?_
      · rintro ⟨counter, totals⟩ state tallied
        refine (tallied.repeatSample fuel).mono ?_ fun _ _ stopped => stopped
        rintro (next | totals) final tallied
        · exact tallied
        · exact tallied.summarise
      · exact fun _ _ tallied => tallied.1
      · rw [Tallied, none]
        exact ⟨summarised, by simp⟩
  exact finalWorld_of_wp run

end Run

section Deployed

variable {Client Server : Type} [DecidableEq Client] [DecidableEq Server]
  {deployment : Deployment Client Server} {snapshot : Snapshot Client Server}

/-- A sample that an exchange with a server has led to. -/
def Exchanged (deployment : Deployment Client Server) (client : Client) (before : List (ℤ × Event))
    (sample : ℚ × ℚ) (exchange : Server × Times) : Prop :=
  ∃ earlier message source, earlier <+: before ∧
    Genuine deployment client earlier message sample.1 sample.2 exchange.1 exchange.2 source

/-- By how many seconds the server of an exchange is ahead of the client. -/
def aheadOf (deployment : Deployment Client Server) (client : Client) (exchange : Server × Times) : ℚ :=
  (deployment.ahead exchange.1 - (deployment.clients client).ahead : ℤ) / 10 ^ 6

/-- Values chosen one by one form a list. -/
private theorem exists_forall₂ {α β : Type} {related : α → β → Prop} {values : List α}
    (each : ∀ value ∈ values, ∃ choice, related value choice) :
    ∃ choices, List.Forall₂ related values choices := by
  induction values with
  | nil => exact ⟨[], .nil⟩
  | cons value values ih =>
    obtain ⟨choice, here⟩ := each value List.mem_cons_self
    obtain ⟨choices, rest⟩ := ih fun other member => each other (List.mem_cons_of_mem _ member)
    exact ⟨choice :: choices, .cons here rest⟩

/-- In a deployment without forged messages every sample of a client comes from an exchange. -/
private theorem exists_exchange (arises : Arises deployment snapshot)
    (reliable : ∀ client, Reliable (deployment.clients client))
    (separate : ∀ client other addr, (deployment.clients client).addrs addr →
      (deployment.clients other).addrs addr → client = other)
    (honest : ∀ message ∈ snapshot.soup, message.Honest) {client : Client}
    {before after : List (ℤ × Event)} (split : snapshot.history client = before ++ after)
    {sample : ℚ × ℚ} (member : sample ∈ samples (before.map Prod.snd)) :
    ∃ exchange, Exchanged deployment client before sample exchange := by
  obtain ⟨event, occurs, reported⟩ := List.mem_filterMap.mp member
  obtain ⟨⟨time, report⟩, entry, rfl⟩ := List.mem_map.mp occurs
  obtain ⟨earlier, later, rfl⟩ := List.append_of_mem entry
  rw [List.append_assoc, List.cons_append] at split
  cases report <;> cases reported
  obtain ⟨message, sent, -, genuine⟩ := samples_genuine arises reliable separate split
  obtain ⟨server, times, source, computed⟩ := genuine (honest message sent)
  exact ⟨(server, times), earlier, message, source, List.prefix_append .., computed⟩

end Deployed

section Repeat

/-- One sample, then the statistics. -/
def repeatSettings : ClientSettings :=
  { onceSettings with timedRepeatUpdatesEnabled := 1, timedRepeatUpdatesLimit := 1 }

private theorem run_repeat : (askingHost repeatSettings).run = asking ++ (hearing ++ [.statistics 0 0]) := by
  decide +kernel

/-- What the client has done when it prints the statistics. -/
def repeating : List (ℤ × Event) := (asking ++ hearing).map (now.micros, ·)

end Repeat

end Sntp.Statistics
