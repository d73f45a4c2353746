import Mathlib.Data.List.Infix

/-!
# Patterns with wildcards

The patterns of `LIKE`: a letter stands for itself, one wildcard for any letter, another for any text. A
text matches a sequence of two patterns where it splits into a match of each.

* `matches_append`: the pieces of a pattern one after another.
* `matches_lits`, `matches_prefix_iff`, `matches_infix_iff`: patterns of letters, and wildcards around
  them.
* `Matches.letters_in`: the letters of a pattern stand in every text that it matches.
* `matches_fill`: a text for every pattern.
-/

namespace Lib

namespace Like

variable {α : Type}

/-- A piece of a pattern. -/
inductive Piece (α : Type) where
  | lit (a : α)
  | one
  | many
deriving DecidableEq

/-- The text matches the pattern. -/
def Matches : List (Piece α) → List α → Prop
  | [], text => text = []
  | .lit a :: pattern, text => ∃ rest, text = a :: rest ∧ Matches pattern rest
  | .one :: pattern, text => ∃ b rest, text = b :: rest ∧ Matches pattern rest
  | .many :: pattern, text => ∃ front rest, text = front ++ rest ∧ Matches pattern rest

/-- `Matches` as a test. -/
def test [DecidableEq α] : List (Piece α) → List α → Bool
  | [], text => text.isEmpty
  | .lit a :: pattern, b :: text => a = b && test pattern text
  | .one :: pattern, _ :: text => test pattern text
  | .many :: pattern, text => text.tails.any (test pattern)
  | _ :: _, [] => false

theorem test_iff [DecidableEq α] {pattern : List (Piece α)} {text : List α} :
    test pattern text = true ↔ Matches pattern text := by
  induction pattern generalizing text with
  | nil => simp [test, Matches]
  | cons piece pattern ih =>
    cases piece with
    | lit a =>
      cases text with
      | nil => simp [test, Matches]
      | cons b text =>
        rw [test, Bool.and_eq_true, decide_eq_true_eq, ih, Matches]
        constructor
        · rintro ⟨rfl, h⟩
          exact ⟨text, rfl, h⟩
        · rintro ⟨rest, heq, h⟩
          obtain ⟨rfl, rfl⟩ := List.cons.inj heq
          exact ⟨rfl, h⟩
    | one =>
      cases text with
      | nil => simp [test, Matches]
      | cons b text =>
        rw [test, ih, Matches]
        constructor
        · exact fun h => ⟨b, text, rfl, h⟩
        · rintro ⟨_, rest, heq, h⟩
          obtain ⟨rfl, rfl⟩ := List.cons.inj heq
          exact h
    | many =>
      have htest : test (.many :: pattern) text = text.tails.any (test pattern) := by
        cases text <;> rw [test]
      rw [htest, List.any_eq_true, Matches]
      constructor
      · rintro ⟨rest, hrest, h⟩
        obtain ⟨front, rfl⟩ := (List.mem_tails _ _).mp hrest
        exact ⟨front, rest, rfl, ih.mp h⟩
      · rintro ⟨front, rest, rfl, h⟩
        exact ⟨rest, (List.mem_tails _ _).mpr ⟨front, rfl⟩, ih.mpr h⟩

instance [DecidableEq α] (pattern : List (Piece α)) (text : List α) : Decidable (Matches pattern text) :=
  decidable_of_iff _ test_iff

variable {p q : List (Piece α)} {letters text : List α}

/-- A text matches two patterns in sequence where it splits into a match of each. -/
theorem matches_append : Matches (p ++ q) text ↔
    ∃ front rest, text = front ++ rest ∧ Matches p front ∧ Matches q rest := by
  induction p generalizing text with
  | nil =>
    constructor
    · exact fun h => ⟨[], text, rfl, rfl, h⟩
    · rintro ⟨front, rest, rfl, rfl, h⟩
      exact h
  | cons piece p ih =>
    cases piece with
    | lit a =>
      constructor
      · rintro ⟨rest, rfl, h⟩
        obtain ⟨front, rest, rfl, hfront, hrest⟩ := ih.mp h
        exact ⟨a :: front, rest, rfl, ⟨front, rfl, hfront⟩, hrest⟩
      · rintro ⟨_, rest, rfl, ⟨front, rfl, hfront⟩, hrest⟩
        exact ⟨front ++ rest, rfl, ih.mpr ⟨front, rest, rfl, hfront, hrest⟩⟩
    | one =>
      constructor
      · rintro ⟨b, rest, rfl, h⟩
        obtain ⟨front, rest, rfl, hfront, hrest⟩ := ih.mp h
        exact ⟨b :: front, rest, rfl, ⟨b, front, rfl, hfront⟩, hrest⟩
      · rintro ⟨_, rest, rfl, ⟨b, front, rfl, hfront⟩, hrest⟩
        exact ⟨b, front ++ rest, rfl, ih.mpr ⟨front, rest, rfl, hfront, hrest⟩⟩
    | many =>
      constructor
      · rintro ⟨skipped, rest, rfl, h⟩
        obtain ⟨front, rest, rfl, hfront, hrest⟩ := ih.mp h
        exact ⟨skipped ++ front, rest, (List.append_assoc _ _ _).symm, ⟨skipped, front, rfl, hfront⟩,
          hrest⟩
      · rintro ⟨_, rest, rfl, ⟨skipped, front, rfl, hfront⟩, hrest⟩
        exact ⟨skipped, front ++ rest, List.append_assoc _ _ _,
          ih.mpr ⟨front, rest, rfl, hfront, hrest⟩⟩

/-- Letters match themselves. -/
@[simp] theorem matches_lits : Matches (letters.map .lit) text ↔ text = letters := by
  induction letters generalizing text with
  | nil => rfl
  | cons a letters ih =>
    constructor
    · rintro ⟨rest, rfl, h⟩
      rw [ih.mp h]
    · rintro rfl
      exact ⟨letters, rfl, ih.mpr rfl⟩

theorem matches_many (text : List α) : Matches [.many] text :=
  ⟨text, [], (List.append_nil text).symm, rfl⟩

/-- Letters and then anything. -/
theorem matches_prefix_iff : Matches (letters.map .lit ++ [.many]) text ↔ letters <+: text := by
  rw [matches_append]
  constructor
  · rintro ⟨front, rest, rfl, hfront, -⟩
    rw [matches_lits.mp hfront]
    exact List.prefix_append letters rest
  · rintro ⟨rest, rfl⟩
    exact ⟨letters, rest, rfl, matches_lits.mpr rfl, matches_many rest⟩

/-- Letters somewhere. -/
theorem matches_infix_iff :
    Matches (.many :: (letters.map .lit ++ [.many])) text ↔ letters <:+: text := by
  constructor
  · rintro ⟨front, rest, rfl, h⟩
    exact (matches_prefix_iff.mp h).isInfix.trans (List.suffix_append front rest).isInfix
  · rintro ⟨front, rest, rfl⟩
    exact ⟨front, letters ++ rest, List.append_assoc _ _ _,
      matches_prefix_iff.mpr (List.prefix_append letters rest)⟩

/-- The letters of a pattern stand in what it matches. -/
theorem Matches.letters_in (h : Matches p text) (hletters : letters.map .lit <:+: p) : letters <:+: text := by
  obtain ⟨front, rest, rfl⟩ := hletters
  obtain ⟨_, _, rfl, hfront, -⟩ := matches_append.mp h
  obtain ⟨a, b, rfl, -, hb⟩ := matches_append.mp hfront
  rw [matches_lits.mp hb]
  exact ⟨a, _, rfl⟩

/-- The pattern with a letter for each wildcard. -/
def fill (c : α) (pattern : List (Piece α)) : List α :=
  pattern.map fun piece => match piece with
    | .lit a => a
    | .one => c
    | .many => c

/-- A pattern matches the text that has a letter for each of its wildcards. -/
theorem matches_fill (c : α) (pattern : List (Piece α)) : Matches pattern (fill c pattern) := by
  induction pattern with
  | nil => rfl
  | cons piece pattern ih =>
    cases piece with
    | lit a => exact ⟨fill c pattern, rfl, ih⟩
    | one => exact ⟨c, fill c pattern, rfl, ih⟩
    | many => exact ⟨[c], fill c pattern, rfl, ih⟩

-- A pattern is read through the lemmas, never by running it.
attribute [irreducible] Matches

end Like

end Lib
