import Encodr.Python.Integer
import Encodr.Python.Json

/-!
# Values of JSON documents

What the source asks of the values that `json.loads` makes: their printed form, their truth value, and
the entries of a dictionary. An integer has at most 4300 digits, since `json.loads` raises on a longer
one. The floats are a parameter, and so are the quotes that `repr` puts around a text.

* `Json.isIntText`, `int_text`: the values that `int(str(value))` reads.
-/

namespace Python

/-- An integer that `json.loads` makes. -/
structure LoadedInt where
  value : Int
  bound : (Nat.toDigits 10 value.natAbs).length ≤ maxStrDigits

/-- A number that `json.loads` makes. -/
inductive Number (φ : Type) where
  | int (n : LoadedInt)
  | float (x : φ)

/-- The floats `φ` with the built-in functions on them, and `repr` of a text. -/
structure Builtins (φ : Type) where
  float : String → Option φ
  isZero : φ → Bool
  div : φ → φ → φ
  reprFloat : φ → String
  reprText : String → String
  /-- A printed float has a point, an exponent or letters. -/
  int_reprFloat : ∀ x, int (reprFloat x) = none

/-- A dictionary with text keys. -/
abbrev Fields (ν : Type) := List (String × Json ν)

namespace Fields

variable {ν : Type}

/-- `fields.get(key, default)`. -/
def getD (fields : Fields ν) (key : String) (default : Json ν) : Json ν :=
  match fields.find? fun entry => entry.1 = key with
  | some entry => entry.2
  | none => default

/-- `fields.get(key)`. -/
def get (fields : Fields ν) (key : String) : Json ν :=
  fields.getD key .null

end Fields

namespace Json

variable {φ : Type} (b : Builtins φ)

mutual

/-- `repr(value)`. -/
def repr : Json (Number φ) → String
  | .null => "None"
  | .bool true => "True"
  | .bool false => "False"
  | .number (.int n) => toString n.value
  | .number (.float x) => b.reprFloat x
  | .str s => b.reprText s
  | .list items => "[" ++ ", ".intercalate (reprItems items) ++ "]"
  | .object entries => "\x7b" ++ ", ".intercalate (reprEntries entries) ++ "\x7d"

/-- `repr` of the items of a list. -/
def reprItems : List (Json (Number φ)) → List String
  | [] => []
  | item :: items => repr item :: reprItems items

/-- `repr` of the entries of a dictionary. -/
def reprEntries : List (String × Json (Number φ)) → List String
  | [] => []
  | (key, value) :: entries => (b.reprText key ++ ": " ++ repr value) :: reprEntries entries

end

/-- `str(value)`. -/
def text : Json (Number φ) → String
  | .str s => s
  | value => repr b value

/-- `bool(value)`. -/
def truthy : Json (Number φ) → Bool
  | .null => false
  | .bool value => value
  | .number (.int n) => n.value != 0
  | .number (.float x) => !b.isZero x
  | .str s => s != ""
  | .list items => !items.isEmpty
  | .object entries => !entries.isEmpty

/-- The dictionary that a value is. -/
def asFields : Json (Number φ) → Option (Fields (Number φ))
  | .object entries => some entries
  | _ => none

/-- The list that a value is. -/
def asList : Json (Number φ) → Option (List (Json (Number φ)))
  | .list items => some items
  | _ => none

/-- An integer, or a text that `int` reads. -/
def isIntText : Json (Number φ) → Bool
  | .number (.int _) => true
  | .str s => (int s).isSome
  | _ => false

/-- A printed list or dictionary is no integer. -/
theorem int_bracket {c : Char} (hc : c = '[' ∨ c = '\x7b') (rest : String) :
    int (String.ofList [c] ++ rest) = none := by
  have hother : isIntSpace c = false ∧ c ≠ '-' ∧ c ≠ '+' ∧ decimal c = none := by
    rcases hc with rfl | rfl
    · decide +kernel
    · decide +kernel
  obtain ⟨hspace, hminus, hplus, hdecimal⟩ := hother
  have htext : (String.ofList [c] ++ rest).toList = c :: rest.toList := by
    rw [String.toList_append, String.toList_ofList, List.singleton_append]
  exact int_eq_none htext hspace hminus hplus hdecimal

/-- Of all values, `int(str(value))` reads the integers and the texts of integers. -/
theorem int_text (value : Json (Number φ)) : (int (value.text b)).isSome = value.isIntText := by
  have hwords : int "None" = none ∧ int "True" = none ∧ int "False" = none := by decide +kernel
  obtain ⟨hnone, htrue, hfalse⟩ := hwords
  cases value with
  | null => exact congrArg Option.isSome hnone
  | bool value =>
    cases value with
    | true => exact congrArg Option.isSome htrue
    | false => exact congrArg Option.isSome hfalse
  | number n =>
    cases n with
    | int n => exact congrArg Option.isSome (int_toString n.bound)
    | float x => exact congrArg Option.isSome (b.int_reprFloat x)
  | str s => rfl
  | list items =>
    have htext : text b (.list items) =
        String.ofList ['['] ++ (", ".intercalate (reprItems b items) ++ "]") := String.append_assoc
    rw [htext, int_bracket (.inl rfl)]
    rfl
  | object entries =>
    have htext : text b (.object entries) =
        String.ofList ['\x7b'] ++ (", ".intercalate (reprEntries b entries) ++ "\x7d") :=
      String.append_assoc
    rw [htext, int_bracket (.inr rfl)]
    rfl

end Json

end Python
