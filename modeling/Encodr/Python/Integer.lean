import Mathlib.Data.List.Basic
import Encodr.Python.Text

/-!
# Integers of texts

The built-in `int` of a text: white space around it, a sign, decimal digits of any script with single
underscores between them, and at most 4300 digits.

* `int_toString`: the decimal form of an integer is read back.
* `int_eq_none`: a text that begins with something else is no integer.
-/

namespace Python

/-- The white space that `int` skips. -/
def isIntSpace (c : Char) : Bool :=
  isSpace c && !(28 ≤ c.toNat && c.toNat ≤ 31)

/-- The code points of the digits zero. Those of one to nine follow each. -/
def decimalZeros : List Nat := [
  0x30, 0x660, 0x6F0, 0x7C0, 0x966, 0x9E6, 0xA66, 0xAE6, 0xB66, 0xBE6, 0xC66, 0xCE6, 0xD66, 0xDE6,
  0xE50, 0xED0, 0xF20, 0x1040, 0x1090, 0x17E0, 0x1810, 0x1946, 0x19D0, 0x1A80, 0x1A90, 0x1B50,
  0x1BB0, 0x1C40, 0x1C50, 0xA620, 0xA8D0, 0xA900, 0xA9D0, 0xA9F0, 0xAA50, 0xABF0, 0xFF10, 0x104A0,
  0x10D30, 0x11066, 0x110F0, 0x11136, 0x111D0, 0x112F0, 0x11450, 0x114D0, 0x11650, 0x116C0, 0x11730,
  0x118E0, 0x11950, 0x11C50, 0x11D50, 0x11DA0, 0x16A60, 0x16AC0, 0x16B50, 0x1D7CE, 0x1D7D8, 0x1D7E2,
  0x1D7EC, 0x1D7F6, 0x1E140, 0x1E2F0, 0x1E950, 0x1FBF0]

/-- The value of a decimal digit, as `unicodedata.decimal` has it. -/
def decimal (c : Char) : Option Nat :=
  (decimalZeros.find? fun first => first ≤ c.toNat && c.toNat < first + 10).map (c.toNat - ·)

/-- Digits, with single underscores between them. -/
def decimals : List Char → Option (List Nat)
  | [] => none
  | [c] => (decimal c).map ([·])
  | c :: '_' :: cs => do return (← decimal c) :: (← decimals cs)
  | c :: c' :: cs => do return (← decimal c) :: (← decimals (c' :: cs))

/-- `sys.int_info.default_max_str_digits`. -/
def maxStrDigits : Nat := 4300

/-- The number that digits denote, unless they are too many. -/
def natOfDigits (text : List Char) : Option Nat := do
  let digits ← decimals text
  if digits.length ≤ maxStrDigits then some (digits.foldl (fun n d => 10 * n + d) 0) else none

/-- `int` of a text without white space around it. -/
def signedOfDigits : List Char → Option Int
  | '-' :: text => (natOfDigits text).map fun n : Nat => -(n : Int)
  | '+' :: text => (natOfDigits text).map Int.ofNat
  | text => (natOfDigits text).map Int.ofNat

/-- `int(text)`, `none` for its `ValueError`. -/
def int (text : String) : Option Int :=
  signedOfDigits (((text.toList.dropWhile isIntSpace).reverse.dropWhile isIntSpace).reverse)

example : int " -1_024\n" = some (-1024) ∧ int "N/A" = none ∧ int "1.0" = none := by decide +kernel

/-! ## Decimal forms -/

/-- An ASCII digit has the value that `Nat.ofDigitChars` gives it. -/
theorem decimal_of_isDigit {c : Char} (h : c.isDigit = true) : decimal c = some (c.toNat - '0'.toNat) := by
  obtain ⟨hlow, hhigh⟩ : 48 ≤ c.toNat ∧ c.toNat ≤ 57 := Char.isDigit_iff_toNat.mp h
  have hfind : decimalZeros.find? (fun first => first ≤ c.toNat && c.toNat < first + 10) = some 0x30 := by
    rw [decimalZeros, List.find?_cons_of_pos]
    simp only [Bool.and_eq_true, decide_eq_true_eq]
    omega
  rw [decimal, hfind]
  rfl

theorem decimals_of_isDigit {cs : List Char} (hne : cs ≠ []) (h : ∀ c ∈ cs, c.isDigit = true) :
    decimals cs = some (cs.map fun c => c.toNat - '0'.toNat) := by
  induction cs using decimals.induct with
  | case1 => exact absurd rfl hne
  | case2 c => simp [decimals, decimal_of_isDigit (h c (by simp))]
  | case3 c cs ih => exact absurd (h '_' (by simp)) (by decide)
  | case4 c c' cs hc' ih =>
    rw [decimals, decimal_of_isDigit (h c (by simp)),
      ih (List.cons_ne_nil c' cs) fun d hd => h d (List.mem_cons_of_mem c hd)]
    · rfl
    · exact hc'

theorem natOfDigits_toDigits {n : Nat} (h : (Nat.toDigits 10 n).length ≤ maxStrDigits) :
    natOfDigits (Nat.toDigits 10 n) = some n := by
  have hdigit : ∀ c ∈ Nat.toDigits 10 n, c.isDigit = true :=
    fun c hc => Nat.isDigit_of_mem_toDigits (by decide) (by decide) hc
  have hvalue : ((Nat.toDigits 10 n).map fun c => c.toNat - '0'.toNat).foldl (fun n d => 10 * n + d) 0 = n := by
    rw [List.foldl_map, ← Nat.ofDigitChars_eq_foldl, Nat.ofDigitChars_ten_toDigits]
  rw [natOfDigits, decimals_of_isDigit Nat.toDigits_ne_nil hdigit]
  simp only [bind, Option.bind_some, List.length_map, if_pos h, hvalue]

theorem isIntSpace_of_isDigit {c : Char} (h : c.isDigit = true) : isIntSpace c = false := by
  obtain ⟨hlow, hhigh⟩ : 48 ≤ c.toNat ∧ c.toNat ≤ 57 := Char.isDigit_iff_toNat.mp h
  rw [isIntSpace, isSpace]
  simp only [Bool.and_eq_false_imp, Bool.or_eq_true, Bool.and_eq_true, decide_eq_true_eq, beq_iff_eq]
  omega

/-- A text without white space is not shortened. -/
theorem int_of_noSpace {text : String} (h : ∀ c ∈ text.toList, isIntSpace c = false) :
    int text = signedOfDigits text.toList := by
  have hkeep : ∀ cs : List Char, (∀ c ∈ cs, isIntSpace c = false) → cs.dropWhile isIntSpace = cs := by
    intro cs hcs
    cases cs with
    | nil => rfl
    | cons c cs => exact List.dropWhile_cons_of_neg (by simp [hcs c (by simp)])
  rw [int, hkeep _ h, hkeep _ fun c hc => h c (List.mem_reverse.mp hc), List.reverse_reverse]

/-- The sign is read where the text begins with one. -/
theorem signedOfDigits_of_isDigit {c : Char} {cs : List Char} (h : c.isDigit = true) :
    signedOfDigits (c :: cs) = (natOfDigits (c :: cs)).map Int.ofNat := by
  have hminus : c ≠ '-' := by rintro rfl; exact absurd h (by decide)
  have hplus : c ≠ '+' := by rintro rfl; exact absurd h (by decide)
  unfold signedOfDigits
  split
  · next heq => exact absurd (List.cons.inj heq).1 hminus
  · next heq => exact absurd (List.cons.inj heq).1 hplus
  · rfl

/-- The decimal form of an integer is read back. -/
theorem int_toString {n : Int} (h : (Nat.toDigits 10 n.natAbs).length ≤ maxStrDigits) :
    int (toString n) = some n := by
  have hdigit : ∀ m : Nat, ∀ c ∈ Nat.toDigits 10 m, c.isDigit = true :=
    fun m c hc => Nat.isDigit_of_mem_toDigits (by decide) (by decide) hc
  rw [Int.toString_eq_repr, Int.repr_eq_if]
  split
  · next hpos =>
    obtain ⟨m, rfl⟩ := Int.eq_ofNat_of_zero_le hpos
    rw [Int.natAbs_natCast] at h
    rw [int_of_noSpace, Int.toNat_natCast, Nat.toList_repr]
    · obtain ⟨c, cs, hcs⟩ := List.exists_cons_of_ne_nil (Nat.toDigits_ne_nil (n := m) (b := 10))
      rw [hcs, signedOfDigits_of_isDigit (hdigit m c (by simp [hcs])), ← hcs,
        natOfDigits_toDigits h]
      rfl
    · intro c hc
      rw [Int.toNat_natCast, Nat.toList_repr] at hc
      exact isIntSpace_of_isDigit (hdigit m c hc)
  · next hneg =>
    have habs : ((-n).toNat : Int) = -n := Int.toNat_of_nonneg (by omega)
    have hsame : n.natAbs = (-n).toNat := by omega
    rw [hsame] at h
    rw [int_of_noSpace, String.toList_append, Nat.toList_repr]
    · show (natOfDigits (Nat.toDigits 10 (-n).toNat)).map (fun m : Nat => -(m : Int)) = some n
      rw [natOfDigits_toDigits h, Option.map_some, habs, Int.neg_neg]
    · intro c hc
      rw [String.toList_append, Nat.toList_repr] at hc
      rcases List.mem_append.mp hc with hc | hc
      · rw [List.mem_singleton.mp hc]
        decide
      · exact isIntSpace_of_isDigit (hdigit _ c hc)

/-! ## Other texts -/

theorem decimals_cons_none {c : Char} {cs : List Char} (h : decimal c = none) : decimals (c :: cs) = none := by
  unfold decimals
  split
  · rfl
  · next heq => rw [← (List.cons.inj heq).1, h]; rfl
  · next heq => rw [← (List.cons.inj heq).1, h]; rfl
  · next heq => rw [← (List.cons.inj heq).1, h]; rfl

/-- A text that begins with no white space, no sign and no digit is no integer. -/
theorem int_eq_none {text : String} {c : Char} {cs : List Char} (h : text.toList = c :: cs)
    (hspace : isIntSpace c = false) (hminus : c ≠ '-') (hplus : c ≠ '+') (hdecimal : decimal c = none) :
    int text = none := by
  have hkeep : ∃ rest,
      ((text.toList.dropWhile isIntSpace).reverse.dropWhile isIntSpace).reverse = c :: rest := by
    rw [h, List.dropWhile_cons_of_neg (by simp [hspace]), List.reverse_cons, List.dropWhile_append]
    split
    · exact ⟨[], by simp [hspace]⟩
    · exact ⟨_, by rw [List.reverse_append, List.reverse_singleton, List.singleton_append]⟩
  obtain ⟨rest, hrest⟩ := hkeep
  rw [int, hrest]
  unfold signedOfDigits
  split
  · next heq => exact absurd (List.cons.inj heq).1 hminus
  · next heq => exact absurd (List.cons.inj heq).1 hplus
  · rw [natOfDigits, decimals_cons_none hdecimal]
    rfl

end Python
