import Mathlib.Data.Finset.Card
import Sntp.ToMathlib.ListHistory

/-! # Resources held along a history

Events that acquire and release resources, and the set that is held after a history of them. A
resource is acquired fresh when it is not held already, as the descriptors of an operating system are.
-/

namespace Machine.Resources

variable {α ρ : Type} [DecidableEq ρ]

/-- What an event does with a resource. -/
inductive Use (ρ : Type) where
  | acquire (resource : ρ)
  | release (resource : ρ)
deriving DecidableEq, Repr

/-- The resource that is acquired. -/
def Use.acquired : Use ρ → Option ρ
  | .acquire resource => some resource
  | .release _ => none

/-- The resources held after an event, from those held before it. -/
def hold (held : Finset ρ) : Option (Use ρ) → Finset ρ
  | none => held
  | some (.acquire resource) => insert resource held
  | some (.release resource) => held.erase resource

/-- The resources held after a history, from those held at first. -/
def heldAfter (use : α → Option (Use ρ)) (inherited : Finset ρ) (history : List α) : Finset ρ :=
  history.foldl (fun held event => hold held (use event)) inherited

/-- An event acquires a resource only if it is not held. -/
def Fresh (use : α → Option (Use ρ)) (inherited : Finset ρ) (before : List α) (event : α) : Prop :=
  ∀ resource, use event = some (.acquire resource) → resource ∉ heldAfter use inherited before

variable {use : α → Option (Use ρ)} {inherited : Finset ρ} {history : List α} {event : α}

@[simp] theorem heldAfter_concat : heldAfter use inherited (history ++ [event]) =
    hold (heldAfter use inherited history) (use event) := by
  rw [heldAfter, List.foldl_append]
  rfl

theorem heldAfter_concat_of_none (quiet : use event = none) :
    heldAfter use inherited (history ++ [event]) = heldAfter use inherited history := by
  rw [heldAfter_concat, quiet]
  rfl

theorem concerns_fresh :
    List.Concerns (fun event => (use event).bind Use.acquired) (Fresh use inherited) := by
  intro before event quiet resource acquires
  simp [acquires, Use.acquired] at quiet

/-- A history that acquires once, at its start, acquires what is not inherited. -/
theorem fresh_of_tail {resource : ρ} (acquires : use event = some (.acquire resource))
    (free : resource ∉ inherited) (quiet : ∀ later ∈ history, (use later).bind Use.acquired = none) :
    (event :: history).EachAfter (Fresh use inherited) := by
  have first : ([] ++ [event]).EachAfter (Fresh use inherited) := by
    refine List.eachAfter_concat.mpr ⟨List.eachAfter_nil _, fun other same => ?_⟩
    obtain rfl := Use.acquire.inj (Option.some.inj (acquires.symm.trans same))
    exact free
  exact first.append_of_forall_none concerns_fresh quiet

end Machine.Resources
