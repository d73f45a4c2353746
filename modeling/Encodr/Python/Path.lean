import Mathlib.Data.List.DropRight

/-!
# Pure POSIX paths

`PosixPath` is the `PurePosixPath` of `pathlib`: a root and the parts below it. Its parts carry
their well-formedness, so a path with an empty, `.` or multi-component part cannot be built.

* `stem_append_suffix`, `exists_of_suffixOf_ne`: the stem and the suffix of a name make the name.
* `withName_ok`, `withSuffix_ok`: the path a successful `with_name` or `with_suffix` returns.
* `name_ne`: paths with different names are different.
-/

namespace Python

/-- A part of a path: nonempty, not `.`, without a separator. -/
def ValidPart (s : String) : Prop :=
  s ≠ "" ∧ s ≠ "." ∧ '/' ∉ s.toList

instance (s : String) : Decidable (ValidPart s) :=
  inferInstanceAs (Decidable (_ ∧ _ ∧ _))

/-- The root of a path: none, `/`, or `//`. -/
inductive Root where
  | relative
  | slash
  | doubleSlash
deriving DecidableEq, Repr

/-- A pure POSIX path. -/
structure PosixPath where
  root : Root
  parts : List String
  parts_ok : ∀ s ∈ parts, ValidPart s
deriving DecidableEq

/-- The `ValueError`s of `with_name` and `with_suffix`. -/
inductive ValueError where
  | emptyName (path : PosixPath)
  | invalidName (name : String)
  | invalidSuffix (suffix : String)
deriving DecidableEq

/-! ## Stem and suffix of a name -/

/-- A name up to its last dot, the dot included. -/
def uptoDot (name : String) : List Char :=
  name.toList.rdropWhile (· ≠ '.')

/-- What follows the last dot of a name. -/
def afterDot (name : String) : List Char :=
  name.toList.rtakeWhile (· ≠ '.')

/-- The last dot of a name starts a suffix: it is neither the first nor the last character. -/
def hasSuffix (name : String) : Bool :=
  1 < (uptoDot name).length && !(afterDot name).isEmpty

/-- `PurePath.stem` of a name. -/
def stemOf (name : String) : String :=
  if hasSuffix name then String.ofList (uptoDot name).dropLast else name

/-- `PurePath.suffix` of a name. -/
def suffixOf (name : String) : String :=
  if hasSuffix name then String.ofList ('.' :: afterDot name) else ""

/-- The stem and the suffix of a name make the name. -/
theorem stem_append_suffix (name : String) : stemOf name ++ suffixOf name = name := by
  unfold stemOf suffixOf
  by_cases h : hasSuffix name
  · have hne : uptoDot name ≠ [] := by
      intro h0
      simp [hasSuffix, h0] at h
    have hdot : (uptoDot name).getLast hne = '.' := by
      have := List.rdropWhile_last_not (fun c : Char => decide (c ≠ '.')) name.toList hne
      simpa [uptoDot] using this
    have hup : (uptoDot name).dropLast ++ ['.'] = uptoDot name := by
      rw [← hdot]
      exact List.dropLast_append_getLast hne
    have hall : uptoDot name ++ afterDot name = name.toList := List.rdropWhile_append_rtakeWhile
    simp only [h, if_true, ← String.toList_inj, String.toList_append, String.toList_ofList]
    rw [← hall, ← hup]
    simp
  · simp [h]

section Suffix

variable {name : String} {stem ext : List Char}

theorem uptoDot_eq (hdot : '.' ∉ ext) : uptoDot (String.ofList (stem ++ '.' :: ext)) = stem ++ ['.'] := by
  have hext : ∀ c ∈ ext.reverse, decide (c ≠ '.') = true := fun c hc =>
    decide_eq_true fun heq => hdot (heq ▸ List.mem_reverse.mp hc)
  rw [uptoDot, String.toList_ofList, List.rdropWhile, List.reverse_append, List.reverse_cons,
    List.append_assoc, List.dropWhile_append_of_pos hext]
  simp

theorem afterDot_eq (hdot : '.' ∉ ext) : afterDot (String.ofList (stem ++ '.' :: ext)) = ext := by
  have hext : ∀ c ∈ ext.reverse, decide (c ≠ '.') = true := fun c hc =>
    decide_eq_true fun heq => hdot (heq ▸ List.mem_reverse.mp hc)
  rw [afterDot, String.toList_ofList, List.rtakeWhile, List.reverse_append, List.reverse_cons,
    List.append_assoc, List.takeWhile_append_of_pos hext]
  simp

theorem hasSuffix_eq (hstem : stem ≠ []) (hext : ext ≠ []) (hdot : '.' ∉ ext) :
    hasSuffix (String.ofList (stem ++ '.' :: ext)) = true := by
  have hpos := List.length_pos_iff.mpr hstem
  rw [hasSuffix, uptoDot_eq hdot, afterDot_eq hdot, List.length_append]
  simpa [hext] using hpos

theorem stemOf_eq (hstem : stem ≠ []) (hext : ext ≠ []) (hdot : '.' ∉ ext) :
    stemOf (String.ofList (stem ++ '.' :: ext)) = String.ofList stem := by
  rw [stemOf, hasSuffix_eq hstem hext hdot, if_pos rfl, uptoDot_eq hdot, List.dropLast_concat]

theorem suffixOf_eq (hstem : stem ≠ []) (hext : ext ≠ []) (hdot : '.' ∉ ext) :
    suffixOf (String.ofList (stem ++ '.' :: ext)) = String.ofList ('.' :: ext) := by
  rw [suffixOf, hasSuffix_eq hstem hext hdot, if_pos rfl, afterDot_eq hdot]

/-- A name with a suffix: the suffix has one dot, and something stands before it. -/
theorem exists_of_suffixOf_ne (h : suffixOf name ≠ "") :
    ∃ stem ext, stem ≠ [] ∧ ext ≠ [] ∧ '.' ∉ ext ∧ name = String.ofList (stem ++ '.' :: ext) := by
  have hsuffix : hasSuffix name = true := by
    by_contra hnone
    rw [suffixOf, if_neg hnone] at h
    exact h rfl
  have hparts := hsuffix
  rw [hasSuffix, Bool.and_eq_true, decide_eq_true_eq, Bool.not_eq_true', List.isEmpty_eq_false_iff] at hparts
  have hne : uptoDot name ≠ [] := fun hnil => by
    have hlength := hparts.1
    rw [hnil] at hlength
    exact absurd hlength (by decide)
  have hlast : (uptoDot name).getLast hne = '.' := by
    have hnot := List.rdropWhile_last_not (fun c : Char => decide (c ≠ '.')) name.toList hne
    simpa [uptoDot] using hnot
  have hall : uptoDot name ++ afterDot name = name.toList := List.rdropWhile_append_rtakeWhile
  have hupto : (uptoDot name).dropLast ++ ['.'] = uptoDot name := by
    rw [← hlast]
    exact List.dropLast_append_getLast hne
  refine ⟨(uptoDot name).dropLast, afterDot name, fun hnil => ?_, hparts.2, fun hmem => ?_, ?_⟩
  · have hlength := hparts.1
    rw [← hupto, hnil] at hlength
    exact absurd hlength (by decide)
  · have hnot := List.mem_rtakeWhile_imp hmem
    exact absurd rfl (of_decide_eq_true hnot)
  · rw [← String.toList_inj, String.toList_ofList, ← hall]
    conv_lhs => rw [← hupto]
    simp

end Suffix

theorem validPart_of_length {s : String} (hlength : 2 ≤ s.toList.length) (h : '/' ∉ s.toList) : ValidPart s := by
  refine ⟨fun heq => ?_, fun heq => ?_, h⟩
  · rw [heq] at hlength
    exact absurd hlength (by decide)
  · rw [heq] at hlength
    exact absurd hlength (by decide)

namespace PosixPath

/-! ## Names and texts -/

/-- `PurePath.name`: the last part, empty for a root. -/
def name (p : PosixPath) : String :=
  p.parts.getLast?.getD ""

/-- `PurePath.stem`. -/
def stem (p : PosixPath) : String :=
  stemOf p.name

/-- `PurePath.suffix`. -/
def suffix (p : PosixPath) : String :=
  suffixOf p.name

/-- `PurePath.as_posix`, which is also `str` of a POSIX path. -/
def asPosix (p : PosixPath) : String :=
  let body := "/".intercalate p.parts
  match p.root with
  | .relative => if p.parts = [] then "." else body
  | .slash => "/" ++ body
  | .doubleSlash => "//" ++ body

/-- `p` with its last part replaced. -/
def withLast (p : PosixPath) (s : String) (h : ValidPart s) : PosixPath where
  root := p.root
  parts := p.parts.dropLast ++ [s]
  parts_ok := by
    intro t ht
    rcases List.mem_append.mp ht with ht | ht
    · exact p.parts_ok t (List.dropLast_subset _ ht)
    · rw [List.mem_singleton.mp ht]
      exact h

@[simp] theorem name_withLast (p : PosixPath) (s : String) (h : ValidPart s) :
    (p.withLast s h).name = s := by
  simp [name, withLast]

/-- The parts of the directory of a path. -/
def directory (p : PosixPath) : List String :=
  p.parts.dropLast

@[simp] theorem directory_withLast (p : PosixPath) (s : String) (h : ValidPart s) :
    (p.withLast s h).directory = p.directory := by
  simp [directory, withLast]

theorem name_ne {p q : PosixPath} (h : p.name ≠ q.name) : p ≠ q :=
  fun hpq => h (hpq ▸ rfl)

/-- The root that a text starts with: two slashes make their own root, more than two make one. -/
def rootOf : List Char → Root
  | '/' :: '/' :: '/' :: _ => .slash
  | '/' :: '/' :: _ => .doubleSlash
  | '/' :: _ => .slash
  | _ => .relative

/-- The components of a text that are parts of a path. -/
def validParts (components : List String) : List String :=
  components.filter (ValidPart ·)

/-- `PurePosixPath(text)`. -/
def parse (text : String) : PosixPath where
  root := rootOf text.toList
  parts := validParts ((text.toList.splitOn '/').map String.ofList)
  parts_ok := fun _ hs => of_decide_eq_true (List.mem_filter.mp hs).2

/-- `PurePath.joinpath` with relative components. -/
def joinpath (p : PosixPath) (components : List String) : PosixPath where
  root := p.root
  parts := p.parts ++ validParts components
  parts_ok := by
    intro s hs
    rcases List.mem_append.mp hs with hs | hs
    · exact p.parts_ok s hs
    · exact of_decide_eq_true (List.mem_filter.mp hs).2

/-! ## resolve without links -/

/-- The components with `..` taken away together with what stands before it; `done` are those before,
the last one first. -/
def resolveDots (done : List String) : List String → List String
  | [] => done.reverse
  | c :: cs => if c = ".." then resolveDots done.tail cs else resolveDots (c :: done) cs

theorem mem_resolveDots {done cs : List String} {s : String} (h : s ∈ resolveDots done cs) :
    s ∈ done ∨ s ∈ cs := by
  induction cs generalizing done with
  | nil => exact .inl (List.mem_reverse.mp h)
  | cons c cs ih =>
    unfold resolveDots at h
    split at h
    · rcases ih h with hs | hs
      · exact .inl (List.mem_of_mem_tail hs)
      · exact .inr (List.mem_cons_of_mem _ hs)
    · rcases ih h with hs | hs
      · rcases List.mem_cons.mp hs with rfl | hs
        · exact .inr List.mem_cons_self
        · exact .inl hs
      · exact .inr (List.mem_cons_of_mem _ hs)

/-- No `..` is left. -/
theorem dots_not_mem_resolveDots {done cs : List String} (h : ".." ∉ done) :
    ".." ∉ resolveDots done cs := by
  induction cs generalizing done with
  | nil => simpa [resolveDots] using h
  | cons c cs ih =>
    unfold resolveDots
    split
    · exact ih fun hmem => h (List.mem_of_mem_tail hmem)
    · next hne =>
      refine ih fun hmem => ?_
      rcases List.mem_cons.mp hmem with heq | hmem
      · exact hne heq.symm
      · exact h hmem

theorem resolveDots_of_not_mem {done cs : List String} (h : ".." ∉ cs) :
    resolveDots done cs = done.reverse ++ cs := by
  induction cs generalizing done with
  | nil => simp [resolveDots]
  | cons c cs ih =>
    rw [List.mem_cons, not_or] at h
    rw [resolveDots, if_neg (Ne.symm h.1), ih h.2]
    simp

/-- `Path.resolve` of a file system without links; `cwd` is the working directory. -/
def resolved (cwd p : PosixPath) : PosixPath where
  root := .slash
  parts := resolveDots [] (if p.root = .relative then cwd.parts ++ p.parts else p.parts)
  parts_ok := by
    intro s hs
    rcases mem_resolveDots hs with hs | hs
    · cases hs
    · split at hs
      · rcases List.mem_append.mp hs with hs | hs
        · exact cwd.parts_ok s hs
        · exact p.parts_ok s hs
      · exact p.parts_ok s hs

/-! ## with_name and with_suffix -/

/-- `PurePath.with_name`. -/
def withName (p : PosixPath) (s : String) : Except ValueError PosixPath :=
  if p.name = "" then .error (.emptyName p)
  else if h : ValidPart s then .ok (p.withLast s h)
  else .error (.invalidName s)

/-- `PurePath.with_suffix`. -/
def withSuffix (p : PosixPath) (s : String) : Except ValueError PosixPath :=
  if '/' ∈ s.toList then .error (.invalidSuffix s)
  else if (s ≠ "" ∧ s.toList.head? ≠ some '.') ∨ s = "." then .error (.invalidSuffix s)
  else if p.name = "" then .error (.emptyName p)
  else if h : ValidPart (p.stem ++ s) then .ok (p.withLast (p.stem ++ s) h)
  else .error (.invalidName (p.stem ++ s))

/-- A successful `with_name` gives a path with that name. -/
theorem withName_ok {p q : PosixPath} {s : String} (h : p.withName s = .ok q) :
    p.name ≠ "" ∧ ∃ hs, q = p.withLast s hs := by
  unfold withName at h
  split at h
  · cases h
  · split at h
    · exact ⟨‹_›, ‹_›, (Except.ok.inj h).symm⟩
    · cases h

/-- A successful `with_suffix` gives the stem with that suffix. -/
theorem withSuffix_ok {p q : PosixPath} {s : String} (h : p.withSuffix s = .ok q) :
    p.name ≠ "" ∧ ∃ hs, q = p.withLast (p.stem ++ s) hs := by
  unfold withSuffix at h
  split at h
  · cases h
  · split at h
    · cases h
    · split at h
      · cases h
      · split at h
        · exact ⟨‹_›, ‹_›, (Except.ok.inj h).symm⟩
        · cases h

end PosixPath

end Python
