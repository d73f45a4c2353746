import Encodr.Api.PathMappings
import Encodr.Python.Ancestry

/-!
# The suffix of a worker path

`_worker_path_suffix` normalises a worker path and a worker root, folds the case of both where one of
them is a Windows path, and cuts the path at the length of the folded root. The paths here are what the
normal texts say: a root and components.

* `asPosix_workerPath`: the normal text is the text of the normal path.
* `LowersPaths.folded`: folding the text of a path folds its components.
* `filter_split_drop_iff`: where a text can be cut to leave the components below a path.
* `workerPathSuffix_exact`: when the suffix is the rest of the components.
-/

namespace Encodr

open Python Lib

/-! ## Normal paths -/

/-- A worker path after normalisation. -/
def workerPath (windowsStyle : Bool) (text : String) : PosixPath where
  root := PosixPath.rootOf (separated windowsStyle text).toList
  parts := componentsOf (separated windowsStyle text)
  parts_ok := fun _ hs => validPart_componentsOf hs

theorem startOf_eq (text : String) : startOf text = (PosixPath.rootOf text.toList).text := by
  unfold startOf
  cases PosixPath.rootOf text.toList
  · rfl
  · rfl
  · rfl

theorem asPosix_workerPath (windowsStyle : Bool) (text : String) :
    (workerPath windowsStyle text).asPosix = normaliseWorkerPathText windowsStyle text := by
  have hnormal : normalText (separated windowsStyle text) =
      (workerPath windowsStyle text).root.text ++ joined (workerPath windowsStyle text).parts := by
    rw [normalText, startOf_eq]
    rfl
  rw [normaliseWorkerPathText_eq, hnormal]
  by_cases hdot : (workerPath windowsStyle text).root = .relative ∧
      (workerPath windowsStyle text).parts = []
  · rw [PosixPath.asPosix_dot hdot.1 hdot.2, hdot.1, hdot.2, if_pos (by simp [Root.text])]
  · rw [not_and_or] at hdot
    rw [if_neg, PosixPath.asPosix_eq hdot]
    intro hempty
    obtain ⟨hroot, hparts⟩ := String.append_eq_empty_iff.mp hempty
    rcases hdot with hdot | hdot
    · cases hr : (workerPath windowsStyle text).root with
      | relative => exact hdot hr
      | slash => simp [hr, Root.text] at hroot
      | doubleSlash => simp [hr, Root.text] at hroot
    · exact joined_ne_empty (workerPath windowsStyle text).parts_ok hdot hparts

/-- The components of `path`, as `f` compares them, start with those of `root`. -/
def Begins (f : String → String) (root path : PosixPath) : Prop :=
  root.root = path.root ∧ root.parts.map f <+: path.parts.map f

instance (f : String → String) (root path : PosixPath) : Decidable (Begins f root path) :=
  inferInstanceAs (Decidable (_ ∧ _))

/-! ## Folded paths -/

/-- What `str.lower` is documented to do with the texts of paths: it also leaves `.` alone, and makes it
of no other text. -/
structure LowersPaths (toLower : String → String) : Prop extends LowersText toLower where
  dot : ∀ a, toLower a = "." ↔ a = "."

theorem lowersPaths_id : LowersPaths id :=
  { lowersText_id with dot := fun _ => Iff.rfl }

section Folded

variable {f : String → String} {path root : PosixPath}

theorem LowersPaths.validPart (hf : LowersPaths f) {s : String} (h : ValidPart s) : ValidPart (f s) :=
  ⟨fun h0 => h.1 ((hf.empty s).mp h0), fun h0 => h.2.1 ((hf.dot s).mp h0), hf.noSlash s h.2.2⟩

/-- The path with folded components. -/
def LowersPaths.foldPath (hf : LowersPaths f) (p : PosixPath) : PosixPath where
  root := p.root
  parts := p.parts.map f
  parts_ok := by
    intro s hs
    obtain ⟨t, ht, rfl⟩ := List.mem_map.mp hs
    exact hf.validPart (p.parts_ok t ht)

@[simp] theorem foldPath_root (hf : LowersPaths f) (p : PosixPath) : (hf.foldPath p).root = p.root := rfl

@[simp] theorem foldPath_parts (hf : LowersPaths f) (p : PosixPath) :
    (hf.foldPath p).parts = p.parts.map f := rfl

theorem foldPath_eq_iff (hf : LowersPaths f) : hf.foldPath path = hf.foldPath root ↔
    path.root = root.root ∧ path.parts.map f = root.parts.map f :=
  ⟨fun h => ⟨by rw [← foldPath_root hf path, h, foldPath_root], by
      rw [← foldPath_parts hf path, h, foldPath_parts]⟩,
    fun h => PosixPath.ext_parts h.1 h.2⟩

theorem LowersPaths.joined (hf : LowersPaths f) {parts : List String} (hne : parts ≠ []) :
    f (joined parts) = joined (parts.map f) := by
  induction parts with
  | nil => exact absurd rfl hne
  | cons s parts ih =>
    have hsingle : ∀ t : String, Python.joined [t] = t := fun t => String.intercalate_singleton
    by_cases hnil : parts = []
    · rw [hnil, List.map_singleton, hsingle, hsingle]
    · have hmap : parts.map f ≠ [] := by simpa using hnil
      have hcons := joined_append (List.cons_ne_nil s []) hnil
      have hcons' := joined_append (List.cons_ne_nil (f s) []) hmap
      rw [List.singleton_append, hsingle] at hcons hcons'
      rw [List.map_cons, hcons, hcons', hf.slash, ih hnil]

/-- Folding the text of a path folds its components. -/
theorem LowersPaths.folded (hf : LowersPaths f) (p : PosixPath) :
    f p.asPosix = (hf.foldPath p).asPosix := by
  have hempty : f "" = "" := (hf.empty "").mpr rfl
  have hone : f "/" = "/" := by
    have hslash := hf.slash "" ""
    rw [hempty] at hslash
    exact hslash
  have htwo : f "//" = "//" := by
    have hslash := hf.slash "/" ""
    rw [hempty, hone] at hslash
    exact hslash
  have hroot : (hf.foldPath p).root = p.root := rfl
  have hparts : (hf.foldPath p).parts = p.parts.map f := rfl
  by_cases hnil : p.parts = []
  · have hnil' : (hf.foldPath p).parts = [] := by rw [hparts, hnil, List.map_nil]
    cases hr : p.root with
    | relative =>
      rw [PosixPath.asPosix_dot hr hnil, PosixPath.asPosix_dot (hroot.trans hr) hnil']
      exact (hf.dot ".").mpr rfl
    | slash =>
      rw [PosixPath.asPosix_eq (.inl (by rw [hr]; decide)),
        PosixPath.asPosix_eq (.inl (by rw [hroot, hr]; decide)), hroot, hr, hnil, hnil', joined_nil]
      exact hone
    | doubleSlash =>
      rw [PosixPath.asPosix_eq (.inl (by rw [hr]; decide)),
        PosixPath.asPosix_eq (.inl (by rw [hroot, hr]; decide)), hroot, hr, hnil, hnil', joined_nil]
      exact htwo
  · have hnil' : (hf.foldPath p).parts ≠ [] := by
      rw [hparts]
      simpa using hnil
    rw [PosixPath.asPosix_eq (.inr hnil), PosixPath.asPosix_eq (.inr hnil'), hroot, hparts,
      ← hf.joined hnil]
    cases p.root with
    | relative => rw [Root.text, String.empty_append, String.empty_append]
    | slash =>
      have hslash := hf.slash "" (Python.joined p.parts)
      rw [hempty, String.empty_append] at hslash
      exact hslash
    | doubleSlash =>
      have hslash := hf.slash "/" (Python.joined p.parts)
      rw [hone] at hslash
      exact hslash

theorem LowersPaths.begins_iff (hf : LowersPaths f) : Begins f root path ↔
    (hf.foldPath root).root = (hf.foldPath path).root ∧
      (hf.foldPath root).parts <+: (hf.foldPath path).parts :=
  Iff.rfl

end Folded

/-! ## Texts below a path -/

theorem flatten_splitOn (sep : Char) (xs : List Char) :
    (xs.splitOn sep).flatten = xs.filter (· ≠ sep) := by
  induction xs with
  | nil => simp
  | cons x xs ih =>
    rw [List.splitOn_cons_eq_if_modifyHead]
    by_cases hx : x = sep
    · rw [if_pos (by simpa using hx), List.flatten_cons, List.nil_append, ih,
        List.filter_cons_of_neg (by simpa using hx)]
    · rw [if_neg (by simpa using hx), List.filter_cons_of_pos (by simpa using hx), ← ih]
      cases hsplit : xs.splitOn sep with
      | nil => exact absurd hsplit (List.splitOn_ne_nil sep xs)
      | cons head pieces => simp

/-- The names between the slashes of a text. -/
def namesOf (text : List Char) : List String :=
  (split '/' (String.ofList text)).filter (· ≠ "")

/-- The names have the characters of the text other than slashes. -/
theorem flatMap_namesOf (text : List Char) :
    (namesOf text).flatMap String.toList = text.filter (· ≠ '/') := by
  have hfilter : ∀ names : List String,
      (names.filter (· ≠ "")).flatMap String.toList = names.flatMap String.toList := by
    intro names
    induction names with
    | nil => rfl
    | cons s names ih =>
      by_cases hs : s = ""
      · rw [List.filter_cons_of_neg (by simpa using hs), List.flatMap_cons, ih, hs]
        rfl
      · rw [List.filter_cons_of_pos (by simpa using hs), List.flatMap_cons, List.flatMap_cons, ih]
  rw [namesOf, hfilter, split, List.flatMap_map, String.toList_ofList, ← flatten_splitOn,
    List.flatMap_def]
  congr 1
  exact List.map_id'' (fun l => String.toList_ofList) _

theorem namesOf_below {rest : List String} (text : List Char) (h : ∀ s ∈ rest, ValidPart s)
    (hne : rest ≠ []) : namesOf (text ++ '/' :: (joined rest).toList) = namesOf text ++ rest := by
  have htext : String.ofList (text ++ '/' :: (joined rest).toList) =
      String.ofList text ++ "/" ++ joined rest := by
    rw [← String.toList_inj]
    simp
  have hrest : rest.filter (· ≠ "") = rest :=
    List.filter_eq_self.mpr fun s hs => by simpa using (h s hs).1
  rw [namesOf, htext, split_append_slash, split_joined h hne, List.filter_append, hrest]
  rfl

theorem namesOf_joined {rest : List String} (h : ∀ s ∈ rest, ValidPart s) (hne : rest ≠ []) :
    namesOf (joined rest).toList = rest := by
  rw [namesOf, String.ofList_toList, split_joined h hne]
  exact List.filter_eq_self.mpr fun s hs => by simpa using (h s hs).1

/-- A text leaves the components below a path when it is cut right before or after the slash, and
nowhere else. -/
theorem namesOf_drop_iff {own : List Char} {rest : List String} (hown : own.getLast? ≠ some '/')
    (h : ∀ s ∈ rest, ValidPart s) (hne : rest ≠ []) (k : Nat) :
    namesOf ((own ++ '/' :: (joined rest).toList).drop k) = rest ↔
      k = own.length ∨ k = own.length + 1 := by
  rcases Nat.lt_trichotomy k own.length with hk | hk | hk
  · -- The end of the last component of the path is left over.
    rw [List.drop_append_of_le_length hk.le, namesOf_below _ h hne]
    refine ⟨fun heq => ?_, fun hk' => by omega⟩
    have hnil : namesOf (own.drop k) = [] := List.append_left_eq_self.mp heq
    have hletters := flatMap_namesOf (own.drop k)
    rw [hnil, List.flatMap_nil] at hletters
    have hdrop : own.drop k ≠ [] := by simpa using hk
    have hlast := List.getLast_mem hdrop
    have hslash : (own.drop k).getLast hdrop = '/' := by
      by_contra hc
      have hmem : (own.drop k).getLast hdrop ∈ (own.drop k).filter (· ≠ '/') :=
        List.mem_filter.mpr ⟨hlast, decide_eq_true hc⟩
      rw [← hletters] at hmem
      cases hmem
    have hgetLast : own.getLast? = some '/' := by
      rw [← hslash, ← List.getLast?_eq_some_getLast hdrop, List.getLast?_drop, if_neg (by omega)]
    exact absurd hgetLast hown
  · refine ⟨fun _ => .inl hk, fun _ => ?_⟩
    have hnil : namesOf [] = [] := by decide
    have hbelow := namesOf_below [] h hne
    rw [hk, List.drop_left]
    rwa [hnil] at hbelow
  · -- The first characters of the rest are lost.
    obtain ⟨j, rfl⟩ : ∃ j, k = own.length + 1 + j := ⟨k - own.length - 1, by omega⟩
    have hdrop : (own ++ '/' :: (joined rest).toList).drop (own.length + 1 + j) =
        (joined rest).toList.drop j := by
      rw [Nat.add_assoc, ← List.drop_drop, List.drop_left, Nat.add_comm, List.drop_succ_cons]
    rw [hdrop]
    cases j with
    | zero => exact ⟨fun _ => .inr rfl, fun _ => namesOf_joined h hne⟩
    | succ j =>
      refine ⟨fun heq => ?_, fun hk' => by omega⟩
      have hletters := flatMap_namesOf ((joined rest).toList.drop (j + 1))
      have hall := flatMap_namesOf (joined rest).toList
      rw [heq] at hletters
      rw [namesOf_joined h hne, hletters] at hall
      cases htext : (joined rest).toList with
      | nil => exact absurd (by simpa using htext) (joined_ne_empty h hne)
      | cons c tail =>
        have hc : c ≠ '/' := fun hc => joined_head h (by rw [htext, hc]; rfl)
        rw [htext, List.drop_succ_cons, List.filter_cons_of_pos (by simpa using hc)] at hall
        have hle := ((List.drop_sublist j tail).filter fun c => c ≠ '/').length_le
        rw [hall, List.length_cons] at hle
        omega

/-! ## The suffix -/

/-- The first `n` components of a path. -/
def leading (p : PosixPath) (n : Nat) : PosixPath where
  root := p.root
  parts := p.parts.take n
  parts_ok := fun s hs => p.parts_ok s (List.mem_of_mem_take hs)

/-- What a worker path has below a worker root. -/
def componentsBelow (f : String → String) (root path : PosixPath) : Option (List String) :=
  if Begins f root path then some (path.parts.drop root.parts.length) else none

/-- The paths that `_worker_path_suffix` cuts where the root ends: only `.` lies under the directory `.`,
a path under a root directory has the slashes of that root, and folding makes the leading components of
the path longer by one character at most. -/
structure CutsAtRoot (f : String → String) (root path : PosixPath) : Prop where
  current : root.root = .relative → root.parts = [] → path.root = .relative → path.parts = []
  slashes : root.root ≠ .relative → root.parts = [] → path.root ≠ .relative → path.root = root.root
  length : root.parts ≠ [] → Begins f root path → root.parts.length < path.parts.length →
    (f (leading path root.parts.length).asPosix).length = (leading path root.parts.length).asPosix.length ∨
    (f (leading path root.parts.length).asPosix).length =
      (leading path root.parts.length).asPosix.length + 1

section Suffix

variable {f : String → String} {path root : PosixPath}

theorem comparedSuffix_asPosix (hf : LowersPaths f) (path root : PosixPath) :
    comparedSuffix f path.asPosix root.asPosix =
      if hf.foldPath path = hf.foldPath root then some []
      else if startsWith (hf.foldPath path).asPosix
          (String.ofList (rstripSlash (hf.foldPath root).asPosix.toList) ++ "/") = true then
        some (namesOf (path.asPosix.toList.drop (rstripSlash (hf.foldPath root).asPosix.toList).length))
      else none := by
  rw [comparedSuffix, hf.folded, hf.folded]
  by_cases heq : hf.foldPath path = hf.foldPath root
  · rw [if_pos heq, if_pos (congrArg PosixPath.asPosix heq)]
  · rw [if_neg heq, if_neg fun h => heq (asPosix_injective h)]
    have hiff : (rstripSlash (hf.foldPath root).asPosix.toList ++ ['/']).isPrefixOf
          (hf.foldPath path).asPosix.toList = true ↔
        startsWith (hf.foldPath path).asPosix
          (String.ofList (rstripSlash (hf.foldPath root).asPosix.toList) ++ "/") = true := by
      rw [List.isPrefixOf_iff_prefix, startsWith, decide_eq_true_eq, String.toList_append,
        String.toList_ofList]
      rfl
    by_cases hstarts : startsWith (hf.foldPath path).asPosix
        (String.ofList (rstripSlash (hf.foldPath root).asPosix.toList) ++ "/") = true
    · rw [if_pos hstarts, if_pos (hiff.mpr hstarts)]
      rfl
    · rw [if_neg hstarts, if_neg fun h => hstarts (hiff.mp h)]

theorem dot_not_mem_split {p : PosixPath} (h : p.root ≠ .relative ∨ p.parts ≠ []) :
    "." ∉ split '/' p.asPosix := by
  by_cases hp : p.parts = []
  · have hroot := h.resolve_right (not_not.mpr hp)
    rw [PosixPath.asPosix_eq (.inl hroot), hp, joined_nil, String.append_empty]
    cases hr : p.root with
    | relative => exact absurd hr hroot
    | slash => decide
    | doubleSlash => decide
  · rw [PosixPath.split_asPosix hp, List.mem_append, not_or]
    refine ⟨?_, fun hmem => (p.parts_ok _ hmem).2.1 rfl⟩
    cases p.root with
    | relative => decide
    | slash => decide
    | doubleSlash => decide

/-- Only the directory `.` itself is found under the directory `.`. -/
theorem comparedSuffix_current (hf : LowersPaths f) (hroot : root.root = .relative)
    (hparts : root.parts = []) : comparedSuffix f path.asPosix root.asPosix =
      if path.root = .relative ∧ path.parts = [] then some [] else none := by
  have hfold : (hf.foldPath root).asPosix = "." :=
    PosixPath.asPosix_dot hroot (congrArg (List.map f) hparts)
  have hstrip : String.ofList (rstripSlash ".".toList) ++ "/" = "." ++ "/" := by decide
  rw [comparedSuffix_asPosix hf, hfold, hstrip]
  by_cases hpath : path.root = .relative ∧ path.parts = []
  · rw [if_pos hpath, if_pos]
    refine PosixPath.ext_parts (hpath.1.trans hroot.symm) ?_
    show path.parts.map f = root.parts.map f
    rw [hpath.2, hparts]
  · have hnamed : (hf.foldPath path).root ≠ .relative ∨ (hf.foldPath path).parts ≠ [] := by
      rcases not_and_or.mp hpath with h | h
      · exact .inl h
      · exact .inr fun h0 => h (List.map_eq_nil_iff.mp h0)
    have hnot := dot_not_mem_split hnamed
    rw [if_neg hpath, if_neg, if_neg]
    · intro hstarts
      obtain ⟨rest, -, hsplit⟩ := startsWith_slash_iff.mp hstarts
      have hdot : split '/' "." = ["."] := by decide
      rw [hsplit, hdot] at hnot
      exact hnot List.mem_cons_self
    · intro heq
      have hdot : split '/' "." = ["."] := by decide
      rw [heq, hfold, hdot] at hnot
      exact hnot List.mem_cons_self

theorem namesOf_asPosix (hroot : path.root ≠ .relative) : namesOf path.asPosix.toList = path.parts := by
  by_cases hparts : path.parts = []
  · rw [PosixPath.asPosix_eq (.inl hroot), hparts, joined_nil, String.append_empty]
    cases hr : path.root with
    | relative => exact absurd hr hroot
    | slash => decide
    | doubleSlash => decide
  · have hfilter : path.parts.filter (· ≠ "") = path.parts :=
      List.filter_eq_self.mpr fun s hs => by simpa using (path.parts_ok s hs).1
    rw [namesOf, String.ofList_toList, PosixPath.split_asPosix hparts, List.filter_append, hfilter]
    cases path.root with
    | relative => rfl
    | slash => rfl
    | doubleSlash => rfl

/-- Every rooted path is found under a root directory. -/
theorem comparedSuffix_rootDirectory (hf : LowersPaths f) (hroot : root.root ≠ .relative)
    (hparts : root.parts = []) : comparedSuffix f path.asPosix root.asPosix =
      if path.root ≠ .relative then some path.parts else none := by
  have hfold : (hf.foldPath root).asPosix = root.root.text := by
    have hnil : (hf.foldPath root).parts = [] := congrArg (List.map f) hparts
    rw [PosixPath.asPosix_eq (.inl (foldPath_root hf root ▸ hroot)), hnil, joined_nil,
      String.append_empty, foldPath_root]
  have hstrip : rstripSlash root.root.text.toList = [] := by
    cases root.root with
    | relative => decide
    | slash => decide
    | doubleSlash => decide
  have hstarts : startsWith (hf.foldPath path).asPosix (String.ofList [] ++ "/") = true ↔
      path.root ≠ .relative := by
    have hslash : (String.ofList [] ++ "/").toList = ['/'] := by decide
    rw [startsWith, decide_eq_true_eq, hslash]
    constructor
    · rintro ⟨tail, htail⟩ hrel
      by_cases hnil : (hf.foldPath path).parts = []
      · rw [PosixPath.asPosix_dot ((foldPath_root hf path).trans hrel) hnil] at htail
        exact absurd (List.cons.inj htail).1 (by decide)
      · refine joined_head (hf.foldPath path).parts_ok ?_
        have htext : (hf.foldPath path).asPosix = joined (hf.foldPath path).parts := by
          rw [PosixPath.asPosix_eq (.inr hnil), foldPath_root, hrel, Root.text, String.empty_append]
        rw [← htext, ← htail]
        rfl
    · intro habs
      rw [PosixPath.asPosix_eq (.inl (foldPath_root hf path ▸ habs)), foldPath_root]
      cases hr : path.root with
      | relative => exact absurd hr habs
      | slash => exact ⟨_, by rw [Root.text, String.toList_append]; rfl⟩
      | doubleSlash => exact ⟨_, by rw [Root.text, String.toList_append]; rfl⟩
  rw [comparedSuffix_asPosix hf, hfold, hstrip, List.length_nil, List.drop_zero]
  by_cases heq : hf.foldPath path = hf.foldPath root
  · obtain ⟨hr, hp⟩ := (foldPath_eq_iff hf).mp heq
    have hpath : path.root ≠ .relative := by rwa [hr]
    have hnil : path.parts = [] := by
      rw [hparts, List.map_nil] at hp
      exact List.map_eq_nil_iff.mp hp
    rw [if_pos heq, if_pos hpath, hnil]
  · rw [if_neg heq]
    by_cases hpath : path.root ≠ .relative
    · rw [if_pos (hstarts.mpr hpath), if_pos hpath, namesOf_asPosix hpath]
    · rw [if_neg fun h => hpath (hstarts.mp h), if_neg hpath]

/-- Below a root with components, the path is cut at the length of the folded root. -/
theorem comparedSuffix_named (hf : LowersPaths f) (hparts : root.parts ≠ []) :
    comparedSuffix f path.asPosix root.asPosix = componentsBelow f root path ↔
      (Begins f root path → root.parts.length < path.parts.length →
        (f (leading path root.parts.length).asPosix).length =
          (leading path root.parts.length).asPosix.length ∨
        (f (leading path root.parts.length).asPosix).length =
          (leading path root.parts.length).asPosix.length + 1) := by
  have hfolded : (hf.foldPath root).parts ≠ [] := fun h0 => hparts (List.map_eq_nil_iff.mp h0)
  rw [comparedSuffix_asPosix hf, componentsBelow, rstripSlash_eq (toList_getLast?_asPosix hfolded),
    String.ofList_toList, String.length_toList]
  have hstarts : startsWith (hf.foldPath path).asPosix ((hf.foldPath root).asPosix ++ "/") = true ↔
      Begins f root path ∧ hf.foldPath path ≠ hf.foldPath root :=
    startsWith_asPosix_slash_iff hfolded
  by_cases hbegins : Begins f root path
  · obtain ⟨hroot, hprefix'⟩ := hbegins
    have hlength : root.parts.length ≤ path.parts.length := by
      simpa using hprefix'.length_le
    have htake : (path.parts.take root.parts.length).map f = root.parts.map f := by
      rw [List.map_take, List.prefix_iff_eq_take.mp hprefix', List.length_map]
    by_cases heq : hf.foldPath path = hf.foldPath root
    · have hle : path.parts.length = root.parts.length := by
        simpa using congrArg List.length ((foldPath_eq_iff hf).mp heq).2
      rw [if_pos heq, if_pos ⟨hroot, hprefix'⟩, List.drop_eq_nil_of_le hle.le]
      exact ⟨fun _ _ hlt => absurd hlt (by omega), fun _ => rfl⟩
    · have hlt : root.parts.length < path.parts.length := by
        refine Nat.lt_of_le_of_ne hlength fun hle => heq (PosixPath.ext_parts hroot.symm ?_)
        rw [hle, List.take_length] at htake
        exact htake
      have hne : path.parts.drop root.parts.length ≠ [] := by simpa using hlt
      have hown : (leading path root.parts.length).parts ≠ [] := by
        intro h0
        rw [← List.map_eq_nil_iff (f := f)] at h0
        exact hfolded (htake.symm.trans h0)
      have hsame : hf.foldPath (leading path root.parts.length) = hf.foldPath root :=
        PosixPath.ext_parts hroot.symm htake
      have htext : path.asPosix.toList = (leading path root.parts.length).asPosix.toList ++
          '/' :: (joined (path.parts.drop root.parts.length)).toList := by
        have hpath : path.parts ≠ [] := fun h0 => by simp [h0] at hlt
        have hjoined : joined path.parts = joined (leading path root.parts.length).parts ++ "/" ++
            joined (path.parts.drop root.parts.length) := by
          rw [← joined_append hown hne]
          exact congrArg joined (List.take_append_drop root.parts.length path.parts).symm
        have hroot' : (leading path root.parts.length).root = path.root := rfl
        rw [PosixPath.asPosix_eq (.inr hpath), PosixPath.asPosix_eq (.inr hown), hjoined, hroot']
        simp only [String.toList_append, List.append_assoc]
        rfl
      rw [if_neg heq, if_pos (hstarts.mpr ⟨⟨hroot, hprefix'⟩, heq⟩), if_pos ⟨hroot, hprefix'⟩,
        Option.some.injEq, htext,
        namesOf_drop_iff (toList_getLast?_asPosix hown)
          (fun s hs => path.parts_ok s (List.mem_of_mem_drop hs)) hne, hf.folded, hsame,
        String.length_toList]
      exact ⟨fun h _ _ => h, fun h => h ⟨hroot, hprefix'⟩ hlt⟩
  · have hne : hf.foldPath path ≠ hf.foldPath root := by
      intro heq
      obtain ⟨hr, hp⟩ := (foldPath_eq_iff hf).mp heq
      exact hbegins ⟨hr.symm, by rw [hp]⟩
    rw [if_neg hne, if_neg fun h => hbegins (hstarts.mp h).1, if_neg hbegins]
    exact ⟨fun _ h => absurd h hbegins, fun _ => rfl⟩

/-- The suffix of a path is what its components have below those of the root exactly when the path is
cut where the root ends. -/
theorem comparedSuffix_exact (hf : LowersPaths f) :
    comparedSuffix f path.asPosix root.asPosix = componentsBelow f root path ↔
      CutsAtRoot f root path := by
  by_cases hparts : root.parts = []
  · have hbegins : Begins f root path ↔ root.root = path.root := by
      rw [Begins, hparts, List.map_nil]
      exact and_iff_left List.nil_prefix
    by_cases hroot : root.root = .relative
    · rw [comparedSuffix_current hf hroot hparts, componentsBelow, hparts, List.length_nil, List.drop_zero]
      constructor
      · intro h
        refine ⟨fun _ _ hpath => ?_, fun hne => absurd hroot hne, fun hne => absurd hparts hne⟩
        by_contra hne
        rw [if_neg fun hc => hne hc.2, if_pos (hbegins.mpr (hroot.trans hpath.symm))] at h
        cases h
      · rintro ⟨hcurrent, -, -⟩
        by_cases hpath : path.root = .relative
        · rw [if_pos ⟨hpath, hcurrent hroot hparts hpath⟩, if_pos (hbegins.mpr (hroot.trans hpath.symm)),
            hcurrent hroot hparts hpath]
        · rw [if_neg fun hc => hpath hc.1, if_neg fun hb => hpath ((hbegins.mp hb).symm.trans hroot)]
    · rw [comparedSuffix_rootDirectory hf hroot hparts, componentsBelow, hparts, List.length_nil,
        List.drop_zero]
      constructor
      · intro h
        refine ⟨fun hrel => absurd hrel hroot, fun _ _ hpath => ?_, fun hne => absurd hparts hne⟩
        by_contra hne
        rw [if_pos hpath, if_neg fun hb => hne (hbegins.mp hb).symm] at h
        cases h
      · rintro ⟨-, hslashes, -⟩
        by_cases hpath : path.root ≠ .relative
        · rw [if_pos hpath, if_pos (hbegins.mpr (hslashes hroot hparts hpath).symm)]
        · rw [if_neg hpath, if_neg fun hb => hpath fun hrel => hroot ((hbegins.mp hb).trans hrel)]
  · rw [comparedSuffix_named hf hparts]
    constructor
    · exact fun h => ⟨fun _ h0 => absurd h0 hparts, fun _ h0 => absurd h0 hparts, fun _ => h⟩
    · exact fun h => h.length hparts

end Suffix

/-- `_worker_path_suffix` gives a value where the normal components of the path start with those of the
root, and the value is the rest of them, exactly when it cuts the path where the root ends. -/
theorem workerPathSuffix_exact {toLower : String → String} (hlower : LowersPaths toLower)
    (pathText rootText : String) :
    let windows := windowsStyle pathText rootText
    let root := workerPath windows rootText
    let path := workerPath windows pathText
    let compared := comparedText toLower pathText rootText
    workerPathSuffix pathText rootText toLower = componentsBelow compared root path ↔
      CutsAtRoot compared root path := by
  intro windows root path compared
  have hcompared : LowersPaths compared := by
    show LowersPaths (if windows then toLower else id)
    by_cases hw : windows = true
    · rw [if_pos hw]
      exact hlower
    · rw [if_neg hw]
      exact lowersPaths_id
  rw [workerPathSuffix_eq, ← asPosix_workerPath, ← asPosix_workerPath]
  exact comparedSuffix_exact hcompared

theorem lowersPaths_lower : LowersPaths lower :=
  { lowersText_lower with
    dot := by
      intro a
      constructor
      · intro h
        have hmap : a.toList.map lowerChar = ['.'] := by
          have hlist := congrArg String.toList h
          rwa [lower, String.toList_ofList] at hlist
        obtain ⟨c, hc, hdot⟩ := List.map_eq_singleton_iff.mp hmap
        rw [← String.toList_inj, hc, lowerChar_eq_of_lt (by decide) hdot]
        rfl
      · rintro rfl
        decide }

/-- A Windows path under a Windows root of another case. -/
theorem workerPathSuffix_exact_windows :
    LowersPaths lower ∧ workerPathSuffix "c:/media\\Films\\.\\Film.mkv" "C:\\Media\\" =
      componentsBelow lower (workerPath true "C:\\Media\\")
        (workerPath true "c:/media\\Films\\.\\Film.mkv") :=
  ⟨lowersPaths_lower, (workerPathSuffix_exact lowersPaths_lower "c:/media\\Films\\.\\Film.mkv"
    "C:\\Media\\").mpr ⟨by decide +kernel, by decide +kernel, by decide +kernel⟩⟩

/-- `str.lower` with the one character whose lower case is two characters, the capital I with a dot. -/
def lowerDotted (text : String) : String :=
  String.ofList (text.toList.flatMap fun c => if c = '\u0130' then ['i', '\u0307'] else [lowerChar c])

theorem lowersPaths_lowerDotted : LowersPaths lowerDotted where
  slash a b := by
    rw [← String.toList_inj]
    have hslash : (if '/' = '\u0130' then ['i', '\u0307'] else [lowerChar '/']) = ['/'] := by decide
    simp only [lowerDotted, String.toList_ofList, String.toList_append, List.flatMap_append]
    congr 2
  empty a := by
    rw [← String.toList_inj, lowerDotted, String.toList_ofList, String.toList_empty,
      List.flatMap_eq_nil_iff, ← String.toList_inj, String.toList_empty, List.eq_nil_iff_forall_not_mem]
    refine forall₂_congr fun c _ => ?_
    by_cases hc : c = '\u0130'
    · rw [if_pos hc]
      simp
    · rw [if_neg hc]
      simp
  noSlash a ha := by
    rw [lowerDotted, String.toList_ofList, List.mem_flatMap]
    rintro ⟨c, hc, hlower⟩
    by_cases hdotted : c = '\u0130'
    · rw [if_pos hdotted] at hlower
      exact absurd hlower (by decide)
    · rw [if_neg hdotted, List.mem_singleton] at hlower
      exact ha (lowerChar_eq_of_lt (by decide) hlower.symm ▸ hc)
  dot a := by
    constructor
    · intro h
      have hlist : (a.toList.flatMap fun c => if c = '\u0130' then ['i', '\u0307'] else [lowerChar c]) =
          ['.'] := by
        have hlist := congrArg String.toList h
        rwa [lowerDotted, String.toList_ofList] at hlist
      cases ha : a.toList with
      | nil =>
        rw [ha] at hlist
        cases hlist
      | cons c cs =>
        rw [ha, List.flatMap_cons] at hlist
        by_cases hc : c = '\u0130'
        · rw [if_pos hc] at hlist
          exact absurd (List.cons.inj hlist).1 (by decide)
        · rw [if_neg hc] at hlist
          obtain ⟨hdot, htail⟩ := List.cons.inj hlist
          have hcs : cs = [] := by
            rw [List.eq_nil_iff_forall_not_mem]
            intro d hd
            have hd' := List.flatMap_eq_nil_iff.mp htail d hd
            by_cases hdd : d = '\u0130'
            · rw [if_pos hdd] at hd'
              cases hd'
            · rw [if_neg hdd] at hd'
              cases hd'
          rw [← String.toList_inj, ha, hcs, lowerChar_eq_of_lt (by decide) hdot]
          rfl
    · rintro rfl
      decide

/-- The folded root has two characters more than the root, and so the path is cut two characters after
the root ends: the file's name has lost its first letter. -/
theorem workerPathSuffix_dotted :
    LowersPaths lowerDotted ∧
    workerPathSuffix "C:\\\u0130\u0130\\film.mkv" "C:\\\u0130\u0130" lowerDotted = some ["ilm.mkv"] ∧
    componentsBelow lowerDotted (workerPath true "C:\\\u0130\u0130")
      (workerPath true "C:\\\u0130\u0130\\film.mkv") = some ["film.mkv"] :=
  ⟨lowersPaths_lowerDotted, by decide +kernel, by decide +kernel⟩

end Encodr
