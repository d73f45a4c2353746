import Mathlib.Data.List.Basic

/-!
# JSON values

The values that `json.loads` makes: `None`, truth values, numbers, strings, lists and dictionaries with
string keys. What the numbers are is a parameter.

* `Json.inductionOn`: induction over the items of lists and the values of objects.
* `Json.leaves`: what stands at the ends of a value, each with its nearest key.
* `Json.shape`: the lists, objects and keys of a value.
-/

namespace Python

/-- A JSON value. -/
inductive Json (ν : Type) where
  | null
  | bool (b : Bool)
  | number (n : ν)
  | str (s : String)
  | list (items : List (Json ν))
  | object (entries : List (String × Json ν))

namespace Json

variable {ν : Type}

/-- A value that is neither a list nor an object. -/
def isLeaf : Json ν → Bool
  | .list _ => false
  | .object _ => false
  | _ => true

/-- Induction over the items of lists and the values of objects. -/
theorem inductionOn {P : Json ν → Prop} (leaf : ∀ v, v.isLeaf = true → P v)
    (list : ∀ items, (∀ item ∈ items, P item) → P (.list items))
    (object : ∀ entries, (∀ entry ∈ entries, P entry.2) → P (.object entries)) (v : Json ν) : P v :=
  @Json.rec ν P (fun items => ∀ item ∈ items, P item) (fun entries => ∀ entry ∈ entries, P entry.2)
    (fun entry => P entry.2)
    (leaf _ rfl) (fun _ => leaf _ rfl) (fun _ => leaf _ rfl) (fun _ => leaf _ rfl)
    list object
    (fun _ h => by cases h)
    (fun _ _ hhead htail => List.forall_mem_cons.mpr ⟨hhead, htail⟩)
    (fun _ h => by cases h)
    (fun _ _ hhead htail => List.forall_mem_cons.mpr ⟨hhead, htail⟩)
    (fun _ _ h => h) v

mutual

/-- What stands at the ends of a value, each with the nearest enclosing key; lists have no keys. -/
def leaves (key : Option String) : Json ν → List (Option String × Json ν)
  | .list items => leavesOfItems key items
  | .object entries => leavesOfEntries entries
  | leaf => [(key, leaf)]

/-- The ends of the items of a list. -/
def leavesOfItems (key : Option String) : List (Json ν) → List (Option String × Json ν)
  | [] => []
  | item :: items => leaves key item ++ leavesOfItems key items

/-- The ends of the values of an object. -/
def leavesOfEntries : List (String × Json ν) → List (Option String × Json ν)
  | [] => []
  | (key, value) :: entries => leaves (some key) value ++ leavesOfEntries entries

end

mutual

/-- The value with `None` at its ends. -/
def shape : Json ν → Json ν
  | .list items => .list (shapeOfItems items)
  | .object entries => .object (shapeOfEntries entries)
  | _ => .null

/-- The shapes of the items of a list. -/
def shapeOfItems : List (Json ν) → List (Json ν)
  | [] => []
  | item :: items => shape item :: shapeOfItems items

/-- The shapes of the values of an object, with their keys. -/
def shapeOfEntries : List (String × Json ν) → List (String × Json ν)
  | [] => []
  | (key, value) :: entries => (key, shape value) :: shapeOfEntries entries

end

theorem leaves_of_isLeaf {v : Json ν} (h : v.isLeaf = true) (key : Option String) :
    v.leaves key = [(key, v)] := by
  cases v with
  | list items => cases h
  | object entries => cases h
  | _ => rfl

theorem shape_of_isLeaf {v : Json ν} (h : v.isLeaf = true) : v.shape = .null := by
  cases v with
  | list items => cases h
  | object entries => cases h
  | _ => rfl

end Json

end Python
