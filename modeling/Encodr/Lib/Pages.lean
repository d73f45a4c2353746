import Mathlib.Data.List.Basic

/-!
# Pages of a list

`page` is what a query with an offset and a limit returns of its rows.

* `page_append`: what is read before a place, and what is read from there.
* `flatMap_pages`: consecutive pages of one size give the list back.
-/

namespace Lib

variable {α : Type*}

/-- At most `limit` elements. -/
def limited (limit : Option Nat) (xs : List α) : List α :=
  match limit with
  | none => xs
  | some n => xs.take n

/-- The elements after the first `offset`, at most `limit` of them. -/
def page (offset : Nat) (limit : Option Nat) (xs : List α) : List α :=
  limited limit (xs.drop offset)

@[simp] theorem limited_none (xs : List α) : limited none xs = xs := rfl

@[simp] theorem limited_some (n : Nat) (xs : List α) : limited (some n) xs = xs.take n := rfl

theorem limited_of_length_le {limit : Option Nat} {xs : List α} (h : ∀ n ∈ limit, xs.length ≤ n) :
    limited limit xs = xs := by
  cases limit with
  | none => rfl
  | some n => exact List.take_of_length_le (h n rfl)

/-- Two consecutive pages make one. -/
theorem page_append (offset m n : Nat) (xs : List α) :
    page offset (some m) xs ++ page (offset + m) (some n) xs = page offset (some (m + n)) xs := by
  simp only [page, limited_some]
  rw [List.take_add, List.drop_drop]

/-- The first pages of one size are the start of the list. -/
theorem flatMap_pages_eq_take (size n : Nat) (xs : List α) :
    (List.range n).flatMap (fun i => page (i * size) (some size) xs) = xs.take (n * size) := by
  induction n with
  | zero => simp
  | succ n ih =>
    have hlast := page_append 0 (n * size) size xs
    rw [Nat.zero_add] at hlast
    rw [List.range_succ, List.flatMap_append, ih, List.flatMap_singleton, Nat.succ_mul]
    exact hlast

/-- As many pages as the list needs give it back. -/
theorem flatMap_pages {size n : Nat} {xs : List α} (h : xs.length ≤ n * size) :
    (List.range n).flatMap (fun i => page (i * size) (some size) xs) = xs := by
  rw [flatMap_pages_eq_take, List.take_of_length_le h]

end Lib
