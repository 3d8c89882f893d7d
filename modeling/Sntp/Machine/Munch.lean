import Mathlib.Order.Bounds.Defs
import Sntp.Machine.Regex

/-! # Maximal munch

A scanner has an ordered list of rules. At the head of a text it takes the longest word that a rule
matches, and of the rules that match this word the first.
-/

namespace Munch

variable {α κ : Type}

/-- The length of the longest word at the head of a text. -/
def longest (regex : Regex α) : List α → Option ℕ
  | [] => if regex.nullable then some 0 else none
  | a :: text =>
    if regex.isNever then none
    else
      match longest (regex.derive a) text with
      | some length => some (length + 1)
      | none => if regex.nullable then some 0 else none

/-- The action of the rule that wins, and the length of its word. -/
def munch : List (Regex α × κ) → List α → Option (κ × ℕ)
  | [], _ => none
  | (regex, action) :: rules, text =>
    match longest regex text, munch rules text with
    | none, later => later
    | some length, none => some (action, length)
    | some length, some (later, other) =>
      if length < other then some (later, other) else some (action, length)

/-- The lengths of the words at the head of a text. -/
def lengths (regex : Regex α) (text : List α) : Set ℕ :=
  {length | ∃ word ∈ regex.language, word <+: text ∧ word.length = length}

/-- No rule matches a longer word, and none before the winner one as long. -/
inductive Wins (text : List α) (action : κ) (length : ℕ) : List (Regex α × κ) → Prop
  | here {regex : Regex α} {rules : List (Regex α × κ)} :
    IsGreatest (lengths regex text) length →
    (∀ rule ∈ rules, length ∈ upperBounds (lengths rule.1 text)) →
    Wins text action length ((regex, action) :: rules)
  | later {rule : Regex α × κ} {rules : List (Regex α × κ)} :
    (∀ other ∈ lengths rule.1 text, other < length) →
    Wins text action length rules →
    Wins text action length (rule :: rules)

variable {regex : Regex α} {rules : List (Regex α × κ)} {action : κ} {text : List α} {a : α}
  {length : ℕ}

theorem zero_mem_lengths : 0 ∈ lengths regex text ↔ regex.nullable := by
  rw [Regex.nullable_iff]
  constructor
  · rintro ⟨word, matched, -, empty⟩
    rwa [List.eq_nil_of_length_eq_zero empty] at matched
  · exact fun matched => ⟨[], matched, List.nil_prefix, rfl⟩

theorem succ_mem_lengths : length + 1 ∈ lengths regex (a :: text) ↔ length ∈ lengths (regex.derive a) text := by
  constructor
  · rintro ⟨_ | ⟨b, word⟩, matched, front, same⟩
    · cases same
    · obtain ⟨rfl, rest⟩ := List.cons_prefix_cons.mp front
      exact ⟨word, Regex.mem_derive.mpr matched, rest, Nat.succ.inj same⟩
  · rintro ⟨word, matched, front, rfl⟩
    exact ⟨a :: word, Regex.mem_derive.mp matched, List.cons_prefix_cons.mpr ⟨rfl, front⟩, rfl⟩

private theorem lengths_nil : length ∈ lengths regex [] ↔ length = 0 ∧ regex.nullable := by
  constructor
  · rintro ⟨word, matched, front, rfl⟩
    obtain rfl := List.prefix_nil.mp front
    exact ⟨rfl, Regex.nullable_iff.mpr matched⟩
  · rintro ⟨rfl, nullable⟩
    exact zero_mem_lengths.mpr nullable

private theorem longest_spec : (∀ length, longest regex text = some length →
    IsGreatest (lengths regex text) length) ∧ (longest regex text = none → lengths regex text = ∅) := by
  induction text generalizing regex with
  | nil =>
    rw [longest]
    split
    · next nullable =>
      refine ⟨?_, nofun⟩
      rintro _ ⟨⟩
      exact ⟨zero_mem_lengths.mpr nullable, fun other member => (lengths_nil.mp member).1.le⟩
    · next stuck =>
      exact ⟨nofun, fun _ => Set.eq_empty_of_forall_notMem fun other member => stuck (lengths_nil.mp member).2⟩
  | cons a text ih =>
    obtain ⟨found, missing⟩ := @ih (regex.derive a)
    rw [longest]
    split
    · next never =>
      refine ⟨nofun, fun _ => Set.eq_empty_of_forall_notMem ?_⟩
      rintro other ⟨word, matched, -⟩
      exact Regex.notMem_of_isNever never matched
    · split
      · next length longer =>
        obtain ⟨among, bound⟩ := found length longer
        refine ⟨?_, nofun⟩
        rintro _ ⟨⟩
        refine ⟨succ_mem_lengths.mpr among, fun other member => ?_⟩
        cases other with
        | zero => omega
        | succ other => exact Nat.succ_le_succ (bound (succ_mem_lengths.mp member))
      · next none_longer =>
        have zero (other : ℕ) (member : other ∈ lengths regex (a :: text)) : other = 0 := by
          cases other with
          | zero => rfl
          | succ other =>
            rw [succ_mem_lengths, missing none_longer] at member
            exact absurd member (Set.notMem_empty _)
        split
        · next nullable =>
          refine ⟨?_, nofun⟩
          rintro _ ⟨⟩
          exact ⟨zero_mem_lengths.mpr nullable, fun other member => (zero other member).le⟩
        · next stuck =>
          refine ⟨nofun, fun _ => Set.eq_empty_of_forall_notMem fun other member => stuck ?_⟩
          rw [zero other member] at member
          exact zero_mem_lengths.mp member

theorem longest_eq_some : longest regex text = some length ↔ IsGreatest (lengths regex text) length := by
  refine ⟨longest_spec.1 length, fun greatest => ?_⟩
  cases outcome : longest regex text with
  | none => exact absurd greatest.1 (longest_spec.2 outcome ▸ Set.notMem_empty _)
  | some other => rw [(longest_spec.1 other outcome).unique greatest]

theorem longest_eq_none : longest regex text = none ↔ lengths regex text = ∅ := by
  refine ⟨longest_spec.2, fun empty => ?_⟩
  cases outcome : longest regex text with
  | none => rfl
  | some other => exact absurd (longest_spec.1 other outcome).1 (empty ▸ Set.notMem_empty _)

theorem munch_eq_none : munch rules text = none ↔ ∀ rule ∈ rules, lengths rule.1 text = ∅ := by
  induction rules with
  | nil => simp [munch]
  | cons rule rules ih =>
    rw [List.forall_mem_cons, ← ih, ← longest_eq_none, munch]
    split
    · next missing => simp [missing]
    · next found _ => simp [found]
    · next found _ =>
      rw [found]
      split <;> simp

/-- The word of the winner is matched by its rule. -/
theorem Wins.exists_mem (wins : Wins text action length rules) :
    ∃ regex, (regex, action) ∈ rules ∧ length ∈ lengths regex text := by
  induction wins with
  | here greatest => exact ⟨_, List.mem_cons_self, greatest.1⟩
  | later _ _ ih =>
    obtain ⟨regex, member, matched⟩ := ih
    exact ⟨regex, List.mem_cons_of_mem _ member, matched⟩

/-- No rule matches a longer word than the winner. -/
theorem Wins.le (wins : Wins text action length rules) {rule : Regex α × κ} (member : rule ∈ rules) :
    length ∈ upperBounds (lengths rule.1 text) := by
  induction wins with
  | here greatest bound =>
    rcases List.mem_cons.mp member with rfl | member
    · exact greatest.2
    · exact bound rule member
  | later shorter _ ih =>
    rcases List.mem_cons.mp member with rfl | member
    · exact fun other matched => (shorter other matched).le
    · exact ih member

/-- A winner among the later rules matches a word that no earlier one does. -/
theorem Wins.of_append {before after : List (Regex α × κ)} (wins : Wins text action length (before ++ after)) :
    Wins text action length before ∨
      Wins text action length after ∧ ∀ rule ∈ before, length ∉ lengths rule.1 text := by
  induction before with
  | nil => exact .inr ⟨wins, nofun⟩
  | cons rule before ih =>
    rcases wins with ⟨greatest, bound⟩ | ⟨shorter, wins⟩
    · exact .inl (.here greatest fun rule member => bound rule (List.mem_append_left _ member))
    · refine (ih wins).imp (.later shorter) fun ⟨wins, others⟩ => ⟨wins, ?_⟩
      exact List.forall_mem_cons.mpr ⟨fun same => lt_irrefl _ (shorter length same), others⟩

theorem le_of_mem_lengths (member : length ∈ lengths regex text) : length ≤ text.length := by
  obtain ⟨word, -, front, rfl⟩ := member
  exact front.length_le

theorem mem_lengths_iff (bound : length ≤ text.length) :
    length ∈ lengths regex text ↔ text.take length ∈ regex.language := by
  constructor
  · rintro ⟨word, matched, front, rfl⟩
    rwa [← List.prefix_iff_eq_take.mp front]
  · exact fun matched => ⟨_, matched, List.take_prefix .., List.length_take_of_le bound⟩

/-- Maximal munch finds the winner. -/
theorem munch_eq_some : munch rules text = some (action, length) ↔ Wins text action length rules := by
  induction rules generalizing action length with
  | nil => exact ⟨nofun, nofun⟩
  | cons rule rules ih =>
    obtain ⟨regex, own⟩ := rule
    rw [munch]
    cases first : longest regex text with
    | none =>
      have empty := longest_eq_none.mp first
      constructor
      · intro later
        exact .later (fun other member => absurd (empty ▸ member) (Set.notMem_empty _)) (ih.mp later)
      · rintro (⟨greatest, -⟩ | ⟨-, wins⟩)
        · exact absurd (empty ▸ greatest.1) (Set.notMem_empty _)
        · exact ih.mpr wins
    | some front =>
      have greatest := longest_eq_some.mp first
      cases second : munch rules text with
      | none =>
        constructor
        · rintro ⟨⟩
          refine .here greatest fun rule member other matched => ?_
          exact absurd (munch_eq_none.mp second rule member ▸ matched) (Set.notMem_empty _)
        · rintro (⟨same, -⟩ | ⟨-, wins⟩)
          · rw [greatest.unique same]
          · cases second.symm.trans (ih.mpr wins)
      | some winner =>
        obtain ⟨later, other⟩ := winner
        have wins := ih.mp second
        simp only
        split
        · next longer =>
          constructor
          · rintro ⟨⟩
            exact .later (fun shorter matched => (greatest.2 matched).trans_lt longer) wins
          · rintro (⟨same, bound⟩ | ⟨-, wins⟩)
            · obtain ⟨regex', member, matched⟩ := wins.exists_mem
              have := bound _ member matched
              rw [greatest.unique same] at longer
              omega
            · exact second.symm.trans (ih.mpr wins)
        · next longest =>
          constructor
          · rintro ⟨⟩
            refine .here greatest fun rule member shorter matched => ?_
            have := wins.le member matched
            omega
          · rintro (⟨same, -⟩ | ⟨shorter, wins⟩)
            · rw [greatest.unique same]
            · cases second.symm.trans (ih.mpr wins)
              exact absurd (shorter front greatest.1) longest

/-- The first rule that matches a word wins if no rule matches a longer one. -/
theorem munch_append {before after : List (Regex α × κ)} {word rest : List α}
    (matched : word ∈ regex.language) (earlier : ∀ rule ∈ before, word ∉ rule.1.language)
    (maximal : ∀ rule ∈ before ++ (regex, action) :: after, ∀ a more, a :: more <+: rest →
      word ++ a :: more ∉ rule.1.language) :
    munch (before ++ (regex, action) :: after) (word ++ rest) = some (action, word.length) := by
  rw [munch_eq_some]
  have le {rule : Regex α × κ} (member : rule ∈ before ++ (regex, action) :: after) :
      word.length ∈ upperBounds (lengths rule.1 (word ++ rest)) := by
    rintro _ ⟨other, matched, front, rfl⟩
    by_contra longer
    obtain ⟨more, rfl⟩ := List.prefix_of_prefix_length_le (List.prefix_append word rest) front (by omega)
    cases more with
    | nil => simp at longer
    | cons a more => exact maximal rule member a more ((List.prefix_append_right_inj word).mp front) matched
  have self : word.length ∈ lengths regex (word ++ rest) := ⟨word, matched, List.prefix_append .., rfl⟩
  induction before with
  | nil =>
    exact .here ⟨self, le List.mem_cons_self⟩ fun rule member => le (List.mem_cons_of_mem _ member)
  | cons rule before ih =>
    obtain ⟨rejected, earlier⟩ := List.forall_mem_cons.mp earlier
    refine .later (fun other member => ?_) (ih earlier
      (fun rule member => maximal rule (List.mem_cons_of_mem _ member))
      (fun member => le (List.mem_cons_of_mem _ member)))
    refine Nat.lt_of_le_of_ne (le List.mem_cons_self member) ?_
    rintro rfl
    rw [mem_lengths_iff (by simp), List.take_left] at member
    exact rejected member

end Munch
