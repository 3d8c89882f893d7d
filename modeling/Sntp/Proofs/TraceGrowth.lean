import Sntp.Proofs.ManycastSteps
import Sntp.Proofs.Observations
import Sntp.Model.ClientMain

/-! # What the parts of the client add to a trace

`unicast_mode` and discovery print nothing on their way: the results of a sample are printed at the very
end of a call that succeeds, and everything else the client prints is printed by `main`.
-/

namespace Sntp

open Machine

/-- An event by which the client prints something. -/
def Event.Prints : Event → Prop
  | .usingServer _ | .serverResults _ _ _ _ _ _ | .errorMessage _ | .statistics _ _ | .noSamples => True
  | _ => False

theorem Event.SetsUp.not_prints {event : Event} (setsUp : event.SetsUp) : ¬ event.Prints := by
  cases event <;> first | exact id | exact setsUp.elim

/-- From one world to another by allowed events only. -/
def Adds (allowed : Event → Prop) (world final : World) : Prop :=
  ∃ events : List Event, (∀ event ∈ events, allowed event) ∧ final.trace = world.trace ++ events

/-- From one world to another with nothing printed. -/
abbrev Works (world final : World) : Prop := Adds (fun event => ¬ event.Prints) world final

namespace Adds

variable {allowed permitted : Event → Prop} {world middle final : World}

theorem refl (world : World) : Adds allowed world world := ⟨[], by simp, by simp⟩

theorem trans (first : Adds allowed world middle) (second : Adds allowed middle final) :
    Adds allowed world final := by
  obtain ⟨events, all, trace⟩ := first
  obtain ⟨later, allLater, traceLater⟩ := second
  exact ⟨events ++ later, List.forall_mem_append.mpr ⟨all, allLater⟩,
    by rw [traceLater, trace, List.append_assoc]⟩

theorem log (adds : Adds allowed world final) {event : Event} (permits : allowed event) :
    Adds allowed world (final.log event) :=
  adds.trans ⟨[event], List.forall_mem_singleton.mpr permits, rfl⟩

theorem mono (adds : Adds allowed world final) (weaken : ∀ event, allowed event → permitted event) :
    Adds permitted world final := by
  obtain ⟨events, all, trace⟩ := adds
  exact ⟨events, fun event member => weaken event (all event member), trace⟩

/-- What restricts other events only is kept. -/
theorem eachAfter {β : Type} {select : Event → Option β} {holds : List Event → Event → Prop}
    (adds : Adds allowed world final) (concerns : List.Concerns select holds)
    (quiet : ∀ event, allowed event → select event = none) (each : world.trace.EachAfter holds) :
    final.trace.EachAfter holds := by
  obtain ⟨events, all, trace⟩ := adds
  rw [trace]
  exact each.append_of_forall_none concerns fun event member => quiet event (all event member)

/-- Events in which `select` finds nothing leave what it finds. -/
theorem filterMap_eq {β : Type} {select : Event → Option β} (adds : Adds allowed world final)
    (quiet : ∀ event, allowed event → select event = none) :
    final.trace.filterMap select = world.trace.filterMap select := by
  obtain ⟨events, all, trace⟩ := adds
  have none : events.filterMap select = [] :=
    List.filterMap_eq_nil_iff.mpr fun event member => quiet event (all event member)
  rw [trace, List.filterMap_append, none, List.append_nil]

end Adds

theorem SetUp.adds {world final : World} (setUp : SetUp world final) : Adds Event.SetsUp world final := by
  obtain ⟨events, all, rfl⟩ := setUp
  exact ⟨events, all, rfl⟩

theorem SetUp.works {world final : World} (setUp : SetUp world final) : Works world final :=
  setUp.adds.mono fun _ setsUp => setsUp.not_prints

variable {env : Env} {cSet : ClientSettings} {world : World}

theorem Asked.works {pollWait sockfd : ℤ} {addr : SockaddrIn} {success : Bool} {request : NtpPacket}
    {asked : World} (step : Asked env pollWait sockfd addr success world request asked) :
    Works world asked := by
  obtain ⟨readings, timer, trace⟩ := step.trace_eq
  refine ⟨readings.map .gettimeofday ++ [.pollTimer timer] ++ [.sendto sockfd request addr success], ?_,
    by rw [trace, List.append_assoc, List.append_assoc, List.append_assoc]⟩
  simp [or_imp, forall_and, Event.Prints]

private theorem Adds.tick {final : World} (works : Works world final) : Works world (final.tick env) :=
  works.log id

private theorem Adds.arrive {final : World} (works : Works world final) (sockfd : ℤ)
    (datagram : Datagram) : Works world (final.arrive sockfd datagram) :=
  works.log id

private theorem Adds.answer {final : World} (works : Works world final) (sockfd : ℤ) (addr : SockaddrIn)
    (datagram : Datagram) (replyLast : Bool) :
    Works world (final.answer env sockfd addr datagram replyLast) := by
  have read : Works world ((final.arrive sockfd datagram).tick env) := (works.arrive sockfd datagram).tick
  exact read.log id

/-- A turn of the retry loop prints nothing. -/
theorem AttemptStep.works {pollWait sockfd : ℤ} {userver : HostInfo} {retryCount : ℤ}
    {result : EStateM.Result Stop World (ℤ ⊕ Option Received)}
    (step : AttemptStep env pollWait sockfd userver retryCount world result) :
    Works world (finalWorld result) := by
  cases step with
  | exhausted => exact .refl world
  | waiting => exact (Adds.refl world).tick
  | unsent asked => exact asked.works.tick
  | unfinished asked => exact asked.works
  | unanswered asked =>
    have unheard : Works world (World.log _ (.recvfrom sockfd none)) := asked.works.log id
    exact unheard.tick
  | overrun datagram asked => exact asked.works.arrive sockfd datagram
  | rejected datagram replyLast asked => exact (asked.works.answer sockfd userver.addr datagram replyLast).tick
  | accepted datagram replyLast asked => exact asked.works.answer sockfd userver.addr datagram replyLast

/-- A turn of the gathering loop prints nothing. -/
theorem CollectStep.works {waitTime sockfd : ℤ} {request : NtpPacket} {timer : Timeval}
    {table : ServerTable} {result : EStateM.Result Stop World (ServerTable ⊕ ServerTable)}
    (step : CollectStep env waitTime sockfd request timer table world result) :
    Works world (finalWorld result) := by
  have ticked : Works world (world.tick env) := (Adds.refl world).tick
  cases step with
  | finished => exact ticked
  | silent => exact ticked.log id
  | overrun datagram => exact ticked.arrive sockfd datagram
  | discarded datagram | full datagram | approved datagram => exact (ticked.arrive sockfd datagram).tick

/-- Discovery prints nothing. -/
theorem wp_discover_works (fuel : ℕ) (ntpServers : ℕ → CharPtr) :
    Wp (discoverUnicastServersWithManycast env cSet fuel ntpServers) (fun _ final => Works world final)
      (fun _ final => Works world final) world := by
  apply wp_discover
  · exact fun _ _ _ setUp => setUp.works
  · intro _ ready sockfd addr _ setUp
    have ticked : Works world (ready.tick env) := setUp.works.tick
    exact ticked.log id
  intro ready sockfd addr setUp sent
  have ticked : Works world (ready.tick env) := setUp.works.tick
  have sent : Works world sent := ticked.log id
  refine wp_loop (fun _ state => Works world state) ?_ ?_ fuel _ sent.tick
  · intro table state works
    refine (wp_collect sockfd _ _ table).mono ?_ fun _ _ step => works.trans step.works
    rintro (next | table) final step
    · exact works.trans step.works
    · have done : Works world final := works.trans step.works
      rw [Sum.elim_inr]
      split
      · exact done
      · exact done.log id
  · exact fun _ _ works => works

/-- A call that has succeeded has printed its results and closed its socket at its end. -/
def Reports (world final : World) : Prop :=
  ∃ before transmitTime name addr stratum sockfd, Works world before ∧
    final.trace = before.trace ++ [.serverResults transmitTime final.vars.offset final.vars.errorBound
      name addr stratum] ++ [.close sockfd]

/-- A call of `unicast_mode` prints its results when it succeeds and nothing otherwise. -/
theorem wp_unicastMode_reports (fuel : ℕ) :
    Wp (unicastMode env cSet fuel)
      (fun code final => if code = 0 then Reports world final else Works world final)
      (fun _ final => Works world final) world := by
  apply wp_unicastMode_cases
  · intro _
    rw [if_neg (by decide)]
    exact (Adds.refl world).log id
  · intro code sockfd final nonzero _ opened
    rw [if_neg nonzero]
    exact opened.setUp.works
  intro sockfd userver ready _ opened _
  have begins : Works world (ready.setTimer (unsetTimer ready.vars.pollTimer)) := opened.setUp.works.log id
  refine wp_loop (fun _ state => Works world state) ?_ ?_ fuel 1 begins
  · intro retryCount state works
    refine (wp_attempt fuel retryCount).mono ?_ fun _ _ step => works.trans step.works
    rintro (next | none | received) final step
    · exact works.trans step.works
    · rw [Sum.elim_inr, Option.elim_none, if_neg (by decide)]
      exact works.trans step.works
    · rw [Sum.elim_inr, Option.elim_some, if_pos rfl]
      refine ⟨final, _, _, _, _, _, works.trans step.works, World.trace_report ..⟩
  · exact fun _ _ works => works

end Sntp
