import Encodr.Python.PathText

/-!
# Ancestors of a path

A path lies under another by whole components; its text then starts with the text of the other and a
slash, unless the other is a root directory, whose text ends with a slash itself.

* `PosixPath.IsAncestor`: one path is another or lies above it.
* `eq_or_startsWith_iff`, `startsWith_asPosix_slash_iff`: ancestors in terms of texts.
-/

namespace Encodr

open Python

/-- `folder` is `path` or lies above it, by whole components. The root is a component. -/
def PosixPath.IsAncestor (folder path : PosixPath) : Prop :=
  folder.root = path.root ∧ folder.parts <+: path.parts

instance (folder path : PosixPath) : Decidable (PosixPath.IsAncestor folder path) :=
  inferInstanceAs (Decidable (_ ∧ _))

section Ancestry

variable {p q : PosixPath}

theorem asPosix_injective (h : p.asPosix = q.asPosix) : p = q := by
  rw [← PosixPath.parse_asPosix p, h, PosixPath.parse_asPosix]

theorem toList_getLast?_asPosix (h : p.parts ≠ []) : p.asPosix.toList.getLast? ≠ some '/' := by
  have hne : (joined p.parts).toList ≠ [] := by simpa using joined_ne_empty p.parts_ok h
  rw [PosixPath.asPosix_eq (.inr h), String.toList_append, List.getLast?_append_of_ne_nil _ hne]
  exact joined_getLast p.parts_ok

/-- The components of two texts, where neither has an empty part. -/
theorem components_prefix_iff (hp : p.parts ≠ []) (hq : q.parts ≠ []) :
    q.root.components ++ q.parts <+: p.root.components ++ p.parts ↔ PosixPath.IsAncestor q p := by
  have hpart : ∀ r : PosixPath, ∀ s rest, r.parts = s :: rest → s ≠ "" := fun r s rest h =>
    (r.parts_ok s (h ▸ List.mem_cons_self)).1
  unfold PosixPath.IsAncestor
  obtain ⟨a, as, ha⟩ := List.exists_cons_of_ne_nil hp
  obtain ⟨b, bs, hb⟩ := List.exists_cons_of_ne_nil hq
  have hane := hpart p a as ha
  have hbne := hpart q b bs hb
  rw [ha, hb]
  cases p.root with
  | relative =>
    cases q.root with
    | relative => simp [Root.components]
    | slash => simp [Root.components, hane.symm]
    | doubleSlash => simp [Root.components, hane.symm]
  | slash =>
    cases q.root with
    | relative => simp [Root.components, hbne]
    | slash => simp [Root.components]
    | doubleSlash => simp [Root.components, hane.symm]
  | doubleSlash =>
    cases q.root with
    | relative => simp [Root.components, hbne]
    | slash => simp [Root.components, hbne]
    | doubleSlash => simp [Root.components]

theorem asPosix_ne_slash (hq : q.parts ≠ []) : q.asPosix ≠ "/" := by
  intro h
  have hlast := toList_getLast?_asPosix hq
  rw [h] at hlast
  exact hlast rfl

/-- A text is that of a path or starts with it and a slash where the path is an ancestor. -/
theorem eq_or_startsWith_iff (hp : p.parts ≠ []) (hq : q.parts ≠ []) :
    (p.asPosix = q.asPosix ∨ startsWith p.asPosix (q.asPosix ++ "/") = true) ↔
      PosixPath.IsAncestor q p := by
  rw [startsWith_slash_iff, ← components_prefix_iff hp hq, ← PosixPath.split_asPosix hp,
    ← PosixPath.split_asPosix hq]
  constructor
  · rintro (heq | ⟨rest, -, hsplit⟩)
    · rw [heq]
    · exact ⟨rest, hsplit.symm⟩
  · rintro ⟨rest, hsplit⟩
    by_cases hrest : rest = []
    · left
      rw [hrest, List.append_nil] at hsplit
      rw [← joined_split p.asPosix, ← hsplit, joined_split]
    · exact .inr ⟨rest, hrest, hsplit.symm⟩

/-- A path without components has no text but dots and slashes. -/
theorem not_mem_split_of_nil (hp : p.parts = []) {s : String} (hs : ValidPart s) :
    s ∉ split '/' p.asPosix := by
  intro hmem
  cases hr : p.root with
  | relative =>
    have hdot : split '/' "." = ["."] := by decide
    rw [PosixPath.asPosix_dot hr hp, hdot] at hmem
    exact hs.2.1 (List.mem_singleton.mp hmem)
  | slash =>
    have hslash : split '/' "/" = ["", ""] := by decide
    have htext : p.asPosix = "/" := by
      rw [PosixPath.asPosix_eq (.inl (by rw [hr]; decide)), hr, hp, joined_nil]
      rfl
    rw [htext, hslash] at hmem
    exact hs.1 (by simpa using hmem)
  | doubleSlash =>
    have hslash : split '/' "//" = ["", "", ""] := by decide
    have htext : p.asPosix = "//" := by
      rw [PosixPath.asPosix_eq (.inl (by rw [hr]; decide)), hr, hp, joined_nil]
      rfl
    rw [htext, hslash] at hmem
    exact hs.1 (by simpa using hmem)

/-- A text starts with that of a path with components and a slash where it is the text of a path below. -/
theorem startsWith_asPosix_slash_iff (hq : q.parts ≠ []) :
    startsWith p.asPosix (q.asPosix ++ "/") = true ↔ PosixPath.IsAncestor q p ∧ p ≠ q := by
  by_cases hp : p.parts = []
  · constructor
    · intro hstarts
      obtain ⟨rest, -, hsplit⟩ := startsWith_slash_iff.mp hstarts
      obtain ⟨s, names, hs⟩ := List.exists_cons_of_ne_nil hq
      have hmem : s ∈ split '/' p.asPosix := by
        rw [hsplit, PosixPath.split_asPosix hq, hs]
        simp
      exact absurd hmem (not_mem_split_of_nil hp (q.parts_ok s (by rw [hs]; exact List.mem_cons_self)))
    · rintro ⟨⟨-, hparts⟩, -⟩
      rw [hp] at hparts
      exact absurd (List.prefix_nil.mp hparts) hq
  · constructor
    · intro hstarts
      refine ⟨(eq_or_startsWith_iff hp hq).mp (.inr hstarts), fun heq => ?_⟩
      rw [heq, startsWith, decide_eq_true_eq] at hstarts
      have hle := hstarts.length_le
      rw [String.toList_append, List.length_append] at hle
      have hone : "/".toList.length = 1 := rfl
      omega
    · rintro ⟨hanc, hne⟩
      exact ((eq_or_startsWith_iff hp hq).mpr hanc).resolve_left fun h => hne (asPosix_injective h)

end Ancestry

end Encodr
