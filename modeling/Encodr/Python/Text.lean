import Mathlib.Data.List.Infix

/-!
# Text and dictionaries

The string methods of the source (`str.strip`, `str.lower`, `in`, `str.split`) and its
dictionaries with text keys.

`lower` maps the ASCII letters and the Kelvin sign, which are the characters whose lower case is
one ASCII letter. Compared with an ASCII text, its result is that of `str.lower`.

* `Dict.get?_set_self`: an entry set is read back.
-/

namespace Python

/-! ## Text -/

/-- The characters `str.strip` removes at both ends. -/
def isSpace (c : Char) : Bool :=
  let n := c.toNat
  (9 ≤ n && n ≤ 13) || (28 ≤ n && n ≤ 32) || n == 0x85 || n == 0xA0 || n == 0x1680 ||
    (0x2000 ≤ n && n ≤ 0x200A) || n == 0x2028 || n == 0x2029 || n == 0x202F || n == 0x205F ||
    n == 0x3000

/-- `str.strip`. -/
def strip (s : String) : String :=
  String.ofList (((s.toList.dropWhile isSpace).reverse.dropWhile isSpace).reverse)

/-- `str.lower` of one character. -/
def lowerChar (c : Char) : Char :=
  if c = '\u212A' then 'k' else c.toLower

/-- `str.lower`. -/
def lower (s : String) : String :=
  String.ofList (s.toList.map lowerChar)

/-- `needle in text`. -/
def inText (needle text : String) : Bool :=
  decide (needle.toList <:+: text.toList)

/-- `text.startswith(start)`. -/
def startsWith (text start : String) : Bool :=
  decide (start.toList <+: text.toList)

/-- `text.endswith(stop)`. -/
def endsWith (text stop : String) : Bool :=
  decide (stop.toList <:+ text.toList)

/-- The text without the slashes at its end. -/
def rstripSlash (text : List Char) : List Char :=
  (text.reverse.dropWhile (· = '/')).reverse

/-- The text with slashes for backslashes. -/
def slashed (text : String) : String :=
  String.ofList (text.toList.map fun c => if c = '\\' then '/' else c)

/-- `value or default`. -/
def textOr (value : Option String) (default : String) : String :=
  match value with
  | none => default
  | some text => if text = "" then default else text

/-- `text.split(sep)` with one separator character. -/
def split (sep : Char) (text : String) : List String :=
  (text.toList.splitOn sep).map String.ofList

example : lower (strip "  Delete_After_Success\n") = "delete_after_success" := by decide

/-- Nothing but the character itself is lowered to a character before the small letters. -/
theorem lowerChar_eq_of_lt {c d : Char} (hd : d.val.toNat < 97) (h : lowerChar c = d) : c = d := by
  unfold lowerChar at h
  split at h
  · subst h
    exact absurd hd (by decide)
  · unfold Char.toLower at h
    split at h
    · next hupper =>
      have hval := congrArg (fun c : Char => c.val.toNat) h
      have hlow : 65 ≤ c.val.toNat := UInt32.le_iff_toNat_le.mp hupper.1
      have hhigh : c.val.toNat ≤ 90 := UInt32.le_iff_toNat_le.mp hupper.2
      have hdiff : ('a'.val - 'A'.val).toNat = 32 := rfl
      simp only [UInt32.toNat_add, hdiff] at hval
      omega
    · exact h

theorem toList_lower (s : String) : (lower s).toList = s.toList.map lowerChar := by
  rw [lower, String.toList_ofList]

theorem lowerChar_eq_dot {c : Char} : lowerChar c = '.' ↔ c = '.' :=
  ⟨fun h => lowerChar_eq_of_lt (by decide) h, fun h => by rw [h]; decide⟩

/-! ## Dictionaries -/

/-- The values of the dictionaries the source builds. -/
inductive Value where
  | null
  | bool (b : Bool)
  | int (i : Int)
  | str (s : String)
  | ints (xs : List Int)
deriving DecidableEq, Repr

/-- A number, or `None`. -/
def Value.ofNat? : Option Nat → Value
  | none => .null
  | some n => .int n

/-- A text, or `None`. -/
def Value.ofStr? : Option String → Value
  | none => .null
  | some s => .str s

/-- A truth value, or `None`. -/
def Value.ofBool? : Option Bool → Value
  | none => .null
  | some b => .bool b

/-- A dictionary, in insertion order. -/
abbrev Dict := List (String × Value)

namespace Dict

/-- `d.get(k)`. -/
def get? (d : Dict) (k : String) : Option Value :=
  List.lookup k d

/-- `d[k] = v`: an existing key keeps its place. -/
def set : Dict → String → Value → Dict
  | [], k, v => [(k, v)]
  | (k', v') :: d, k, v => if k' = k then (k, v) :: d else (k', v') :: set d k v

/-- `{**d, **e}`, and `d.update(e)`. -/
def update (d e : Dict) : Dict :=
  e.foldl (fun acc kv => acc.set kv.1 kv.2) d

@[simp] theorem get?_set_self (d : Dict) (k : String) (v : Value) : (d.set k v).get? k = some v := by
  induction d with
  | nil => simp [set, get?]
  | cons kv d ih =>
    obtain ⟨k', v'⟩ := kv
    by_cases h : k' = k
    · simp [set, h, get?]
    · have h' : (k == k') = false := by simpa using Ne.symm h
      simpa [set, h, get?, List.lookup_cons, h'] using ih

end Dict

end Python
