import Mathlib.Data.List.Induction

/-! # Lists read as histories

A list of events, oldest first. `latest` is the newest selected event, and `EachAfter` says of each
event that it is allowed after the ones before it; both are computed event by event at the new end.
-/

namespace List

variable {α β : Type*}

/-- The newest value that `select` finds. -/
def latest (select : α → Option β) (history : List α) : Option β :=
  history.reverse.findSome? select

theorem latest_append (select : α → Option β) (before after : List α) :
    latest select (before ++ after) = (latest select after).or (latest select before) := by
  simp only [latest, reverse_append, findSome?_append]

@[simp] theorem latest_concat (select : α → Option β) (before : List α) (event : α) :
    latest select (before ++ [event]) = (select event).or (latest select before) := by
  rw [latest_append]
  cases found : select event <;> simp [latest, found]

theorem latest_append_of_forall {select : α → Option β} {before after : List α}
    (quiet : ∀ event ∈ after, select event = none) :
    latest select (before ++ after) = latest select before := by
  rw [latest_append, show latest select after = none by simpa [latest] using quiet, Option.none_or]

theorem latest_map {γ : Type*} (f : β → γ) (select : α → Option β) (history : List α) :
    latest (fun event => (select event).map f) history = (latest select history).map f := by
  induction history using List.reverseRecOn with
  | nil => rfl
  | append_singleton before event ih =>
    rw [latest_concat, latest_concat, ih]
    cases select event <;> rfl

theorem latest_eq_none_iff {select : α → Option β} {history : List α} :
    latest select history = none ↔ ∀ event ∈ history, select event = none := by
  simp [latest]

/-- Events in which `select` finds nothing can be left out. -/
theorem latest_filter {select : α → Option β} {keep : α → Bool}
    (kept : ∀ event, (select event).isSome → keep event) (history : List α) :
    latest select (history.filter keep) = latest select history := by
  induction history using List.reverseRecOn with
  | nil => rfl
  | append_singleton before event ih =>
    rw [filter_append, latest_append, latest_concat, ih]
    cases found : select event with
    | some value => simp [kept event (by simp [found]), latest, found]
    | none =>
      have nothing : latest select (filter keep [event]) = none := by
        rw [latest_eq_none_iff]
        intro other member
        obtain rfl := mem_singleton.mp (mem_filter.mp member).1
        exact found
      rw [nothing]

theorem exists_mem_of_latest {select : α → Option β} {history : List α} {value : β}
    (found : latest select history = some value) : ∃ event ∈ history, select event = some value := by
  obtain ⟨event, member, selected⟩ := exists_of_findSome?_eq_some found
  exact ⟨event, mem_reverse.mp member, selected⟩

/-- A fold whose steps overwrite a value shows the newest one, or the value it started from. -/
theorem get_foldl_eq_latest {σ : Type*} {step : σ → α → σ} {get : σ → β} {select : α → Option β}
    (overwrites : ∀ state event, get (step state event) = (select event).getD (get state))
    (history : List α) (state : σ) :
    get (history.foldl step state) = (latest select history).getD (get state) := by
  induction history using List.reverseRecOn with
  | nil => rfl
  | append_singleton before event ih =>
    rw [foldl_append, foldl_cons, foldl_nil, overwrites, latest_concat, ih]
    cases select event <;> rfl

/-- A position in an extended history is the new one or a position in the old history. -/
theorem concat_eq_append_cons_iff {history before after : List α} {newest event : α} :
    history ++ [newest] = before ++ event :: after ↔
      (after = [] ∧ history = before ∧ newest = event) ∨
        ∃ rest, after = rest ++ [newest] ∧ history = before ++ event :: rest := by
  constructor
  · intro split
    rcases eq_nil_or_concat after with rfl | ⟨rest, last, rfl⟩
    · obtain ⟨same, last⟩ := append_inj' split rfl
      exact .inl ⟨rfl, same, (cons.inj last).1⟩
    · rw [concat_eq_append, ← cons_append, ← append_assoc] at split
      obtain ⟨same, last⟩ := append_inj' split rfl
      exact .inr ⟨rest, by rw [(cons.inj last).1, concat_eq_append], same⟩
  · rintro (⟨rfl, rfl, rfl⟩ | ⟨rest, rfl, rfl⟩)
    · rfl
    · simp

/-- Of two positions in a history the first is earlier than the second, the same, or later. -/
theorem mem_or_eq_or_mem_of_append_cons {before after before' after' : List α} {event event' : α}
    (same : before ++ event :: after = before' ++ event' :: after') :
    event ∈ before' ∨ (before = before' ∧ event = event' ∧ after = after') ∨ event ∈ after' := by
  rcases append_eq_append_iff.mp same with ⟨between, rfl, rest⟩ | ⟨between, rfl, rest⟩
  · cases between with
    | nil =>
      obtain ⟨rfl, rfl⟩ := cons.inj rest
      exact .inr (.inl ⟨(append_nil _).symm, rfl, rfl⟩)
    | cons first between =>
      obtain ⟨rfl, -⟩ := cons.inj rest
      exact .inl (mem_append_right _ mem_cons_self)
  · cases between with
    | nil =>
      obtain ⟨rfl, rfl⟩ := cons.inj rest
      exact .inr (.inl ⟨append_nil _, rfl, rfl⟩)
    | cons first between =>
      obtain ⟨-, rfl⟩ := cons.inj rest
      exact .inr (.inr (mem_append_right _ mem_cons_self))

/-- Each event is allowed after the ones before it. -/
def EachAfter (allowed : List α → α → Prop) (history : List α) : Prop :=
  ∀ before event after, history = before ++ event :: after → allowed before event

@[simp] theorem eachAfter_nil (allowed : List α → α → Prop) : EachAfter allowed [] := by
  intro before event after empty
  simp at empty

@[simp] theorem eachAfter_concat {allowed : List α → α → Prop} {history : List α} {event : α} :
    EachAfter allowed (history ++ [event]) ↔ EachAfter allowed history ∧ allowed history event := by
  constructor
  · intro each
    refine ⟨fun before other after split => ?_, each history event [] rfl⟩
    exact each before other (after ++ [event]) (by rw [split]; simp)
  · rintro ⟨each, last⟩ before other after split
    rcases concat_eq_append_cons_iff.mp split with ⟨-, rfl, rfl⟩ | ⟨rest, -, old⟩
    · exact last
    · exact each before other rest old

theorem EachAfter.mono {allowed permitted : List α → α → Prop} {history : List α}
    (each : EachAfter allowed history)
    (weaken : ∀ before event, allowed before event → permitted before event) :
    EachAfter permitted history :=
  fun before event after split => weaken before event (each before event after split)

theorem EachAfter.of_prefix {allowed : List α → α → Prop} {history longer : List α}
    (each : EachAfter allowed longer) (grown : history <+: longer) : EachAfter allowed history := by
  obtain ⟨later, rfl⟩ := grown
  exact fun before event after split => each before event (after ++ later) (by rw [split]; simp)

theorem EachAfter.of_getElem? {allowed : List α → α → Prop} {history : List α}
    (each : EachAfter allowed history) {index : ℕ} {event : α}
    (found : history[index]? = some event) : allowed (history.take index) event := by
  obtain ⟨bound, rfl⟩ := getElem?_eq_some_iff.mp found
  apply each _ _ (history.drop (index + 1))
  rw [← drop_eq_getElem_cons bound, take_append_drop]

/-- Only events in which `select` finds something are restricted. -/
def Concerns (select : α → Option β) (allowed : List α → α → Prop) : Prop :=
  ∀ before event, select event = none → allowed before event

theorem EachAfter.concat_of_none {select : α → Option β} {allowed : List α → α → Prop}
    {history : List α} {event : α} (each : EachAfter allowed history)
    (concerns : Concerns select allowed) (quiet : select event = none) :
    EachAfter allowed (history ++ [event]) :=
  eachAfter_concat.mpr ⟨each, concerns history event quiet⟩

theorem EachAfter.append_of_forall_none {select : α → Option β} {allowed : List α → α → Prop}
    {history events : List α} (each : EachAfter allowed history)
    (concerns : Concerns select allowed) (quiet : ∀ event ∈ events, select event = none) :
    EachAfter allowed (history ++ events) := by
  induction events using List.reverseRecOn with
  | nil => simpa using each
  | append_singleton events event ih =>
    rw [← append_assoc]
    refine EachAfter.concat_of_none (ih fun other member => ?_) concerns (quiet event (by simp))
    exact quiet other (mem_append_left _ member)

/-- Some event is found after the ones before it. -/
def SomeAfter (found : List α → α → Prop) (history : List α) : Prop :=
  ∃ before event after, history = before ++ event :: after ∧ found before event

@[simp] theorem someAfter_concat {found : List α → α → Prop} {history : List α} {event : α} :
    SomeAfter found (history ++ [event]) ↔ SomeAfter found history ∨ found history event := by
  constructor
  · rintro ⟨before, other, after, split, here⟩
    rcases concat_eq_append_cons_iff.mp split with ⟨-, rfl, rfl⟩ | ⟨rest, -, old⟩
    · exact .inr here
    · exact .inl ⟨before, other, rest, old, here⟩
  · rintro (⟨before, other, after, rfl, here⟩ | here)
    · exact ⟨before, other, after ++ [event], by simp, here⟩
    · exact ⟨history, event, [], rfl, here⟩

/-- Nothing is found where only later positions count. -/
theorem not_someAfter_of_length {found : List α → α → Prop} {history : List α}
    (later : ∀ before event, found before event → history.length ≤ before.length) :
    ¬ SomeAfter found history := by
  rintro ⟨before, event, after, split, here⟩
  have long := later before event here
  rw [split, length_append, length_cons] at long
  omega

end List
