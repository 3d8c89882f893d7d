import Mathlib.Computability.Language

/-! # Regular expressions over classes of symbols

Expressions are built from classes of symbols, so that a class such as "anything but a quote" is one
expression over any alphabet. A word is matched by taking derivatives, which are kept small: an
expression that can match nothing more is `never`.
-/

/-- A regular expression. -/
inductive Regex (α : Type) where
  | never
  | nil
  | one (member : α → Bool)
  | alt (first second : Regex α)
  | seq (first second : Regex α)
  | star (repeated : Regex α)

namespace Regex

variable {α : Type}

/-- The words an expression stands for. -/
def language : Regex α → Language α
  | never => 0
  | nil => 1
  | one member => {word | ∃ a, member a ∧ word = [a]}
  | alt first second => first.language + second.language
  | seq first second => first.language * second.language
  | star repeated => KStar.kstar repeated.language

/-- The empty word is among the words. -/
def nullable : Regex α → Bool
  | never | one _ => false
  | nil | star _ => true
  | alt first second => first.nullable || second.nullable
  | seq first second => first.nullable && second.nullable

/-- Alternatives, without those that never match. -/
def either : Regex α → Regex α → Regex α
  | never, second => second
  | first, never => first
  | first, second => alt first second

/-- One expression after the other, unless that never matches. -/
def followedBy : Regex α → Regex α → Regex α
  | never, _ => never
  | nil, second => second
  | first, second => seq first second

/-- What is left to match after a symbol. -/
def derive (a : α) : Regex α → Regex α
  | never | nil => never
  | one member => if member a then nil else never
  | alt first second => either (first.derive a) (second.derive a)
  | seq first second =>
    if first.nullable then either (followedBy (first.derive a) second) (second.derive a)
    else followedBy (first.derive a) second
  | star repeated => followedBy (repeated.derive a) (star repeated)

/-- A whole word is matched. -/
def accepts (regex : Regex α) : List α → Bool
  | [] => regex.nullable
  | a :: word => (regex.derive a).accepts word

/-- What is left to match after a word. -/
def after (regex : Regex α) (word : List α) : Regex α := word.foldl (fun left a => left.derive a) regex

/-- A given word. -/
def literal [DecidableEq α] : List α → Regex α
  | [] => nil
  | a :: word => seq (one fun b => b = a) (literal word)

/-- One or more times. -/
def plus (repeated : Regex α) : Regex α := seq repeated (star repeated)

/-- Once or not at all. -/
def optional (regex : Regex α) : Regex α := alt nil regex

section Language

variable {regex first second repeated : Regex α} {member : α → Bool} {a : α} {word : List α}

theorem mem_one : word ∈ (one member).language ↔ ∃ a, member a ∧ word = [a] := Iff.rfl

theorem mem_alt : word ∈ (alt first second).language ↔ word ∈ first.language ∨ word ∈ second.language :=
  Iff.rfl

theorem mem_seq : word ∈ (seq first second).language ↔
    ∃ front ∈ first.language, ∃ back ∈ second.language, front ++ back = word :=
  Language.mem_mul

theorem cons_mem_one : a :: word ∈ (one member).language ↔ member a ∧ word = [] := by
  rw [mem_one]
  constructor
  · rintro ⟨b, holds, same⟩
    obtain ⟨rfl, rfl⟩ := List.cons.inj same
    exact ⟨holds, rfl⟩
  · rintro ⟨holds, rfl⟩
    exact ⟨a, holds, rfl⟩

theorem cons_mem_seq : a :: word ∈ (seq first second).language ↔
    (∃ front, a :: front ∈ first.language ∧ ∃ back ∈ second.language, front ++ back = word) ∨
      ([] ∈ first.language ∧ a :: word ∈ second.language) := by
  rw [mem_seq]
  constructor
  · rintro ⟨_ | ⟨b, front⟩, matched, back, rest, joined⟩
    · exact .inr ⟨matched, joined ▸ rest⟩
    · obtain ⟨rfl, rfl⟩ := List.cons.inj joined
      exact .inl ⟨front, matched, back, rest, rfl⟩
  · rintro (⟨front, matched, back, rest, rfl⟩ | ⟨nothing, rest⟩)
    · exact ⟨a :: front, matched, back, rest, rfl⟩
    · exact ⟨[], nothing, a :: word, rest, rfl⟩

theorem cons_mem_star : a :: word ∈ (star repeated).language ↔
    ∃ front, a :: front ∈ repeated.language ∧ ∃ back ∈ (star repeated).language, front ++ back = word := by
  rw [language, Language.mem_kstar_iff_exists_nonempty]
  constructor
  · rintro ⟨_ | ⟨_ | ⟨b, front⟩, words⟩, joined, all⟩
    · simp at joined
    · exact absurd rfl (all [] List.mem_cons_self).2
    · rw [List.flatten_cons, List.cons_append] at joined
      obtain ⟨rfl, rfl⟩ := List.cons.inj joined
      refine ⟨front, (all _ List.mem_cons_self).1, words.flatten, ?_, rfl⟩
      exact Language.join_mem_kstar fun other member => (all other (List.mem_cons_of_mem _ member)).1
  · rintro ⟨front, matched, back, rest, rfl⟩
    obtain ⟨words, rfl, all⟩ := Language.mem_kstar_iff_exists_nonempty.mp rest
    refine ⟨(a :: front) :: words, rfl, fun other member => ?_⟩
    rcases List.mem_cons.mp member with rfl | later
    · exact ⟨matched, List.cons_ne_nil _ _⟩
    · exact all other later

theorem cons_mem_one_seq :
    a :: word ∈ (seq (one member) second).language ↔ member a ∧ word ∈ second.language := by
  simp [cons_mem_seq, mem_one]

theorem nil_notMem_one_seq : [] ∉ (seq (one member) second).language := by
  simp [mem_seq, mem_one]

theorem nil_mem_star : [] ∈ (star repeated).language := Language.nil_mem_kstar _

theorem nullable_iff : regex.nullable ↔ [] ∈ regex.language := by
  induction regex with
  | never => simp [nullable, language]
  | nil => simp [nullable, language]
  | one member => simp [nullable, mem_one]
  | alt first second left right => rw [nullable, Bool.or_eq_true, left, right, mem_alt]
  | seq first second left right =>
    rw [nullable, Bool.and_eq_true, left, right, mem_seq]
    constructor
    · rintro ⟨front, back⟩
      exact ⟨[], front, [], back, rfl⟩
    · rintro ⟨front, matched, back, rest, joined⟩
      obtain ⟨rfl, rfl⟩ := List.append_eq_nil_iff.mp joined
      exact ⟨matched, rest⟩
  | star repeated => exact iff_of_true rfl nil_mem_star

private theorem language_either : (either first second).language = first.language + second.language := by
  unfold either
  split
  · rw [language, zero_add]
  · rw [language, add_zero]
  · rfl

private theorem language_followedBy :
    (followedBy first second).language = first.language * second.language := by
  unfold followedBy
  split
  · rw [language, zero_mul]
  · rw [language, one_mul]
  · rfl

/-- The derivative stands for what may follow the symbol. -/
theorem mem_derive : word ∈ (regex.derive a).language ↔ a :: word ∈ regex.language := by
  induction regex generalizing word with
  | never => exact Iff.rfl
  | nil => simp [derive, language, Language.mem_one]
  | one member =>
    rw [cons_mem_one, derive]
    split <;> simp [language, Language.mem_one, *]
  | alt first second left right =>
    rw [derive, language_either, Language.mem_add, left, right, mem_alt]
  | seq first second left right =>
    rw [cons_mem_seq, derive, ← nullable_iff]
    have front : word ∈ (followedBy (first.derive a) second).language ↔
        ∃ front, a :: front ∈ first.language ∧ ∃ back ∈ second.language, front ++ back = word := by
      rw [language_followedBy, Language.mem_mul]
      simp only [left]
    split
    · next skips => rw [language_either, Language.mem_add, front, right, iff_true_intro skips, true_and]
    · next stays => rw [front, iff_false_intro stays, false_and, or_false]
  | star repeated ih =>
    rw [cons_mem_star, derive, language_followedBy, Language.mem_mul]
    simp only [ih]

/-- Matching decides the language. -/
theorem accepts_iff : regex.accepts word ↔ word ∈ regex.language := by
  induction word generalizing regex with
  | nil => exact nullable_iff
  | cons a word ih => rw [accepts, ih, mem_derive]

theorem mem_after {more : List α} : more ∈ (regex.after word).language ↔ word ++ more ∈ regex.language := by
  induction word generalizing regex with
  | nil => exact Iff.rfl
  | cons a word ih => exact ih.trans mem_derive

theorem mem_literal [DecidableEq α] {text : List α} :
    word ∈ (literal text).language ↔ word = text := by
  induction text generalizing word with
  | nil => exact Language.mem_one _
  | cons b text ih =>
    cases word with
    | nil => simp [literal, mem_seq, mem_one]
    | cons a word =>
      have tails : (a = b ∧ text = word) ↔ (a = b ∧ word = text) := and_congr_right fun _ => eq_comm
      simpa [literal, cons_mem_seq, mem_one, ih] using tails

theorem mem_star_one : word ∈ (star (one member)).language ↔ ∀ a ∈ word, member a := by
  induction word with
  | nil => simp [nil_mem_star]
  | cons a word ih => simp [cons_mem_star, cons_mem_one, ih]

theorem mem_plus_one : word ∈ (plus (one member)).language ↔ word ≠ [] ∧ ∀ a ∈ word, member a := by
  cases word with
  | nil => simp [plus, mem_seq, mem_one]
  | cons a word => simp [plus, cons_mem_seq, mem_star_one, mem_one]

theorem mem_optional : word ∈ (optional regex).language ↔ word = [] ∨ word ∈ regex.language := Iff.rfl

end Language

section Positions

/-- The expression is the one without words. -/
def isNever : Regex α → Bool
  | never => true
  | _ => false

/-- The expression has at most the empty word, and this can be seen from it. -/
def isDone : Regex α → Bool
  | never | nil => true
  | _ => false

/-- No word has the symbol. -/
def avoids (a : α) : Regex α → Bool
  | never | nil => true
  | one member => !member a
  | alt first second | seq first second => first.avoids a && second.avoids a
  | star repeated => repeated.avoids a

/-- No word has the symbol behind another one. -/
def stops (a : α) : Regex α → Bool
  | never | nil | one _ => true
  | alt first second => first.stops a && second.stops a
  | seq first second => first.stops a && second.avoids a
  | star repeated => repeated.avoids a

variable {regex : Regex α} {a : α} {word front back : List α}

theorem length_pos_of_mem (stuck : regex.nullable = false) (matched : word ∈ regex.language) :
    0 < word.length := by
  refine List.length_pos_iff.mpr fun empty => ?_
  rw [empty, ← nullable_iff, stuck] at matched
  cases matched

theorem notMem_of_isNever (never : regex.isNever) : word ∉ regex.language := by
  cases regex with
  | never => exact Language.notMem_zero _
  | _ => cases never

/-- A word that the expression is done with has no longer one. -/
theorem append_notMem_of_isDone (done : (regex.after word).isDone) {more : List α} (longer : more ≠ []) :
    word ++ more ∉ regex.language := by
  rw [← mem_after]
  cases left : regex.after word with
  | never => exact Language.notMem_zero _
  | nil => exact fun matched => longer ((Language.mem_one _).mp matched)
  | _ => simp [left, isDone] at done

/-- A word starts with a symbol that the expression can take. -/
theorem notMem_of_derive (never : (regex.derive a).isNever) : a :: word ∉ regex.language :=
  fun matched => notMem_of_isNever never (mem_derive.mpr matched)

theorem notMem_of_avoids (avoids : regex.avoids a) (matched : word ∈ regex.language) : a ∉ word := by
  induction regex generalizing word with
  | never => exact absurd matched (Language.notMem_zero _)
  | nil =>
    rw [(Language.mem_one _).mp matched]
    exact List.not_mem_nil
  | one member =>
    obtain ⟨b, holds, rfl⟩ := mem_one.mp matched
    intro same
    rw [List.mem_singleton.mp same, Regex.avoids, holds] at avoids
    cases avoids
  | alt first second left right =>
    obtain ⟨before, after⟩ := Bool.and_eq_true_iff.mp avoids
    exact matched.elim (left before) (right after)
  | seq first second left right =>
    obtain ⟨before, after⟩ := Bool.and_eq_true_iff.mp avoids
    obtain ⟨front, begins, back, ends, rfl⟩ := mem_seq.mp matched
    exact fun member => (List.mem_append.mp member).elim (left before begins) (right after ends)
  | star repeated ih =>
    obtain ⟨words, rfl, all⟩ := Language.mem_kstar.mp matched
    intro member
    obtain ⟨part, among, member⟩ := List.mem_flatten.mp member
    exact ih avoids (all part among) member

/-- Every word has a symbol of a kind. -/
def Needs (kind : α → Prop) (regex : Regex α) : Prop := ∀ word ∈ regex.language, ∃ a ∈ word, kind a

section Needs

variable {kind : α → Prop} {first second : Regex α}

theorem needs_one {member : α → Bool} (all : ∀ a, member a → kind a) : (one member).Needs kind := by
  intro word matched
  obtain ⟨a, holds, rfl⟩ := mem_one.mp matched
  exact ⟨a, List.mem_singleton_self a, all a holds⟩

theorem Needs.seq_left (needs : first.Needs kind) : (seq first second).Needs kind := by
  intro word matched
  obtain ⟨front, begins, back, -, rfl⟩ := mem_seq.mp matched
  obtain ⟨a, among, holds⟩ := needs front begins
  exact ⟨a, List.mem_append_left _ among, holds⟩

theorem needs_literal [DecidableEq α] {text : List α} (holds : kind a) :
    (literal (a :: text)).Needs kind :=
  .seq_left (needs_one fun _ same => of_decide_eq_true same ▸ holds)

theorem Needs.seq_right (needs : second.Needs kind) : (seq first second).Needs kind := by
  intro word matched
  obtain ⟨front, -, back, ends, rfl⟩ := mem_seq.mp matched
  obtain ⟨a, among, holds⟩ := needs back ends
  exact ⟨a, List.mem_append_right _ among, holds⟩

theorem Needs.alt (left : first.Needs kind) (right : second.Needs kind) : (alt first second).Needs kind :=
  fun word matched => matched.elim (left word) (right word)

end Needs

/-- Where a word has a symbol that stops the expression, the symbol comes first. -/
theorem eq_nil_of_stops (stops : regex.stops a) (matched : front ++ a :: back ∈ regex.language) :
    front = [] := by
  induction regex generalizing front back with
  | never => exact absurd matched (Language.notMem_zero _)
  | nil => simpa using (Language.mem_one _).mp matched
  | one member =>
    obtain ⟨b, -, same⟩ := mem_one.mp matched
    have lengths := congrArg List.length same
    rw [List.length_append, List.length_cons, List.length_singleton] at lengths
    exact List.eq_nil_of_length_eq_zero (by omega)
  | alt first second left right =>
    obtain ⟨before, after⟩ := Bool.and_eq_true_iff.mp stops
    exact matched.elim (left before) (right after)
  | seq first second left =>
    obtain ⟨before, after⟩ := Bool.and_eq_true_iff.mp stops
    obtain ⟨word, begins, other, ends, joined⟩ := mem_seq.mp matched
    have absent : a ∉ other := notMem_of_avoids after ends
    obtain ⟨middle, rfl, rfl⟩ | ⟨middle, rfl, split⟩ := List.append_eq_append_iff.mp joined
    · exact absurd (List.mem_append_right _ List.mem_cons_self) absent
    · cases middle with
      | nil =>
        rw [List.nil_append] at split
        exact absurd (split ▸ List.mem_cons_self) absent
      | cons b middle =>
        obtain ⟨rfl, -⟩ := List.cons.inj split
        exact left before begins
  | star repeated =>
    have avoids : (star repeated).avoids a := stops
    exact absurd (List.mem_append_right _ List.mem_cons_self) (notMem_of_avoids avoids matched)

end Positions

end Regex
