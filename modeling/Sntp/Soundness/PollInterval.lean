import Sntp.Soundness.PollTimer

/-! # The minimum poll interval

Two consecutive unicast send attempts of a run are more than `poll_wait` apart, whether they belong
to one call of `unicast_mode` or to two. The distance is that of the values of the poll timer when
they are made, in whole seconds and hence also on the clock.
-/

namespace Sntp.PollInterval

open Machine PollTimer

/-- The value of the poll timer at the last send attempt. There is none at the manycast request,
which is sent before the timer is first written. -/
def LastSendTimer (trace : List Event) (timer : Timeval) : Prop :=
  ∃ before send after, trace = before ++ send :: after ∧ send.request.isSome ∧
    (∀ event ∈ after, event.request = none) ∧ before.latest Event.timer = some timer

/-- A send attempt comes later than the one before it by more than `poll_wait`. -/
def Spaced (pollWait : ℤ) (before : List Event) (event : Event) : Prop :=
  event.request.isSome → ∀ first second, LastSendTimer before first →
    before.latest Event.timer = some second →
    pollWait < second.tvSec - first.tvSec ∧ pollWait * 10 ^ 6 < second.micros - first.micros

theorem not_lastSendTimer_nil (timer : Timeval) : ¬ LastSendTimer [] timer := by
  rintro ⟨before, send, after, split, -⟩
  simp at split

theorem LastSendTimer.of_quiet {trace : List Event} {event : Event} {timer : Timeval}
    (last : LastSendTimer (trace ++ [event]) timer) (quiet : event.request = none) :
    LastSendTimer trace timer := by
  obtain ⟨before, send, after, split, asks, none, latest⟩ := last
  rcases List.concat_eq_append_cons_iff.mp split with ⟨-, -, rfl⟩ | ⟨rest, rfl, old⟩
  · simp [quiet] at asks
  · exact ⟨before, send, rest, old, asks, fun other member =>
      none other (List.mem_append_left _ member), latest⟩

theorem LastSendTimer.of_send {trace : List Event} {event : Event} {timer : Timeval}
    (last : LastSendTimer (trace ++ [event]) timer) (asks : event.request.isSome) :
    trace.latest Event.timer = some timer := by
  obtain ⟨before, send, after, split, _, none, latest⟩ := last
  rcases List.concat_eq_append_cons_iff.mp split with ⟨-, rfl, -⟩ | ⟨rest, rfl, -⟩
  · exact latest
  · rw [none event (List.mem_append_right _ (List.mem_singleton_self _))] at asks
    simp at asks

/-- A request may be sent once the timer of the last one has run for more than `poll_wait`. -/
def spacing (pollWait : ℤ) (trace : List Event) (second : ℤ) : Prop :=
  ∀ first, LastSendTimer trace first → pollWait < second - first.tvSec

theorem discipline_spacing (env : Env) (pollWait : ℤ) :
    Discipline env pollWait (spacing pollWait) where
  empty := fun _ first last => absurd last (not_lastSendTimer_nil first)
  later := by
    intro trace first second order permitted last sent
    have := permitted last sent
    omega
  quiet := fun none permitted first last => permitted first (last.of_quiet none)
  sent := by
    intro trace index timer sockfd addr success second inForce _ _ late first last
    obtain rfl := Option.some.inj (inForce.symm.trans (last.of_send rfl))
    exact late
  searched := by
    intro trace index sockfd addr second none _ _ first last
    exact absurd (last.of_send rfl) (by simp [none])

/-- Over a whole run, any two consecutive unicast send attempts keep the poll interval. -/
theorem poll_interval_respected (env : Env) (cSet : ClientSettings) (fuel : ℕ)
    (ntpServers : ℕ → CharPtr) (offsetTotal errorBoundTotal : ℚ) (ntoa : Text) (vars : SampleVars)
    (steady : Steady env.clock) (nonneg : ∀ index, 0 ≤ (env.clock index).tvSec) :
    (finalWorld (clientMain env fuel cSet ntpServers offsetTotal errorBoundTotal
      ⟨ntoa, vars, []⟩)).trace.EachAfter (Spaced cSet.pollWait) := by
  have history := clientMain_permitted steady (fun index => by have := nonneg index; omega)
    (discipline_spacing env cSet.pollWait) fuel ntpServers offsetTotal errorBoundTotal ntoa vars
  intro before event after split asks first second last inForce
  obtain ⟨⟨pkt, addr⟩, request⟩ := Option.isSome_iff_exists.mp asks
  obtain ⟨⟨index, rfl⟩, permitted, -⟩ :=
    history before event after split pkt addr second request inForce
  have apart := permitted first last
  obtain ⟨earlier, send, later, rfl, sends, -, latest⟩ := last
  obtain ⟨⟨pkt', addr'⟩, request'⟩ := Option.isSome_iff_exists.mp sends
  rw [List.append_assoc, List.cons_append] at split
  obtain ⟨⟨start, rfl⟩, -⟩ := history earlier send _ split pkt' addr' first request' latest
  obtain ⟨_, _⟩ := steady.normal start
  obtain ⟨_, _⟩ := steady.normal index
  simp only [Timeval.micros]
  omega

/-- A clock that advances by twenty seconds between two readings, for a while. -/
def tickingClock (index : ℕ) : Timeval := ⟨min (20 * index) 20000, 0⟩

theorem steady_tickingClock : Steady tickingClock where
  normal := fun _ => ⟨le_rfl, (by decide : (0 : ℤ) ≤ 999999)⟩
  monotone := by
    intro first second order
    simp only [tickingClock, Timeval.micros]
    omega
  span := by
    intro first second
    simp only [tickingClock]
    omega

/-- A server that never answers is asked twice. -/
theorem poll_interval_respected_silent :
    (finalWorld (clientMain (.benign tickingClock fun _ => none) 20
      (.defaults (.text (dotted ⟨10, 0, 0, 1⟩)) 0) (fun _ => .ntoaBuffer) 0 0
      ⟨[], ⟨0, 0, default⟩, []⟩)).trace.EachAfter (Spaced 15) :=
  poll_interval_respected _ _ _ _ _ _ _ _ steady_tickingClock fun index => by
    simp only [Env.benign, tickingClock]
    omega

end Sntp.PollInterval
