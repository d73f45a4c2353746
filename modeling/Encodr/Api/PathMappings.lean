import Encodr.Api.PathSafety
import Encodr.Python.PathText

/-!
# Path mappings

A worker sees the directories of the server under other names. `remap_server_path` translates a path
of the server for a worker, `remap_worker_path_to_server_path` translates a path of the worker back.
Both take the mappings in the order of their server roots, the longest first.

* `remapServerPath`, `Translates`, `remapServerPath_eq`: the mapping that translates a path.
* `workerPathSuffix_joinpath`: what a worker path has below the worker root it was made from.
* `remapWorkerText_remapServerPath`: when a translated path is translated back.
-/

namespace Encodr

open Python Lib

/-! ## To the worker -/

/-- `source == prefix or source.startswith(f"{prefix}/")`. -/
def isUnder (source root : PosixPath) : Bool :=
  source.asPosix = root.asPosix || startsWith source.asPosix (root.asPosix ++ "/")

/-- `mapping_for_server_path`. -/
def mappingForServerPath (os : PathOs) (serverPath : PosixPath) (mappings : List PathMapping) :
    Option PathMapping :=
  let source := os.resolve (os.expanduser serverPath)
  (normalisePathMappings os mappings).find? fun m => isUnder source m.serverPath

/-- `remap_server_path`. -/
def remapServerPath (os : PathOs) (serverPath : PosixPath) (mappings : List PathMapping) :
    Option PosixPath := do
  let source := os.resolve (os.expanduser serverPath)
  let m ← mappingForServerPath os source mappings
  let suffix := (source.asPosix.toList.drop m.serverPath.asPosix.length).dropWhile (· = '/')
  let workerBase := os.expanduser m.workerPath
  if suffix = [] then
    return workerBase
  return workerBase.joinpath (split '/' (String.ofList suffix))

/-! ## File systems without links -/

/-- What `Path.expanduser` is documented to do: it only changes relative paths, and leaves what it
returns. -/
structure ExpandsUser (expanduser : PosixPath → PosixPath) : Prop where
  rooted : ∀ p, p.root = .slash → expanduser p = p
  again : ∀ p, expanduser (expanduser p) = expanduser p

theorem expandsUser_id : ExpandsUser id :=
  ⟨fun _ _ => rfl, fun _ => rfl⟩

/-- A system without links. -/
def lexicalOs (cwd : PosixPath) (expanduser : PosixPath → PosixPath) : PathOs :=
  ⟨expanduser, PosixPath.resolved cwd⟩

@[simp] theorem lexicalOs_resolve (cwd : PosixPath) (expanduser : PosixPath → PosixPath) (p : PosixPath) :
    (lexicalOs cwd expanduser).resolve p = PosixPath.resolved cwd p := rfl

@[simp] theorem lexicalOs_expanduser (cwd : PosixPath) (expanduser : PosixPath → PosixPath)
    (p : PosixPath) : (lexicalOs cwd expanduser).expanduser p = expanduser p := rfl

namespace PosixPath

theorem resolved_noDots (cwd p : PosixPath) : ".." ∉ (Python.PosixPath.resolved cwd p).parts :=
  Python.PosixPath.dots_not_mem_resolveDots (by simp)

end PosixPath

/-- A rooted path without `..` is resolved. -/
theorem resolved_of_noDots {cwd p : PosixPath} (hp : p.root = .slash) (h : ".." ∉ p.parts) :
    PosixPath.resolved cwd p = p := by
  refine PosixPath.ext_slash rfl hp ?_
  show PosixPath.resolveDots [] (if p.root = .relative then cwd.parts ++ p.parts else p.parts) = p.parts
  rw [hp, if_neg (by decide), PosixPath.resolveDots_of_not_mem h]
  rfl

/-! ## The mapping of a path -/

theorem isUnder_iff {source root : PosixPath} (hs : source.root = .slash) (hr : root.root = .slash) :
    isUnder source root = true ↔ source = root ∨
      root.parts ≠ [] ∧ ∃ rest, rest ≠ [] ∧ source.parts = root.parts ++ rest := by
  rw [isUnder, Bool.or_eq_true, decide_eq_true_eq, PosixPath.startsWith_asPosix_iff hs hr]
  constructor
  · exact Or.imp_left (PosixPath.asPosix_inj hs hr)
  · exact Or.imp_left (congrArg PosixPath.asPosix)

/-- A path below a root, as its parts. -/
theorem exists_rest {source root : PosixPath} (hs : source.root = .slash) (hr : root.root = .slash)
    (h : isUnder source root = true) : ∃ rest, source.parts = root.parts ++ rest := by
  rcases (isUnder_iff hs hr).mp h with rfl | ⟨-, rest, -, hparts⟩
  · exact ⟨[], by simp⟩
  · exact ⟨rest, hparts⟩

/-- `m` translates the path: it is the first mapping whose server root the path lies under, `earlier`
are those before it, and `rest` is what the path has below the root. -/
structure Translates (os : PathOs) (mappings : List PathMapping) (path : PosixPath)
    (earlier : List PathMapping) (m : PathMapping) (rest : List String) : Prop where
  order : ∃ later, normalisePathMappings os mappings = earlier ++ m :: later
  first : ∀ j ∈ earlier, isUnder path j.serverPath = false
  under : isUnder path m.serverPath = true
  parts : path.parts = m.serverPath.parts ++ rest

section Forward

variable {cwd : PosixPath} {expanduser : PosixPath → PosixPath} {mappings : List PathMapping}
  {path : PosixPath} {earlier : List PathMapping} {m : PathMapping} {rest : List String}

/-- The server roots are resolved, and the worker roots expanded. -/
theorem mem_normalisePathMappings (h : m ∈ normalisePathMappings (lexicalOs cwd expanduser) mappings) :
    ∃ m₀ ∈ mappings, m = ⟨PosixPath.resolved cwd (expanduser m₀.serverPath), expanduser m₀.workerPath⟩ := by
  rw [normalisePathMappings, List.mem_insertionSort, List.mem_map] at h
  obtain ⟨m₀, hm₀, rfl⟩ := h
  exact ⟨m₀, hm₀, rfl⟩

theorem Translates.mem
    (h : Translates (lexicalOs cwd expanduser) mappings path earlier m rest) :
    m ∈ normalisePathMappings (lexicalOs cwd expanduser) mappings := by
  obtain ⟨later, horder⟩ := h.order
  rw [horder]
  exact List.mem_append_right _ List.mem_cons_self

theorem exists_translates
    (h : mappingForServerPath (lexicalOs cwd expanduser) path mappings = some m) :
    ∃ earlier rest, Translates (lexicalOs cwd expanduser) mappings
      (PosixPath.resolved cwd (expanduser path)) earlier m rest := by
  obtain ⟨hunder, earlier, later, horder, hfirst⟩ := List.find?_eq_some_iff_append.mp h
  have hm : m ∈ normalisePathMappings (lexicalOs cwd expanduser) mappings := by
    rw [horder]
    exact List.mem_append_right _ List.mem_cons_self
  obtain ⟨m₀, -, rfl⟩ := mem_normalisePathMappings hm
  obtain ⟨rest, hparts⟩ := exists_rest rfl rfl hunder
  refine ⟨earlier, rest, ⟨later, horder⟩, fun j hj => ?_, hunder, hparts⟩
  simpa only [Bool.not_eq_true, Bool.not_eq_eq_eq_not, Bool.not_true, lexicalOs_resolve,
    lexicalOs_expanduser] using hfirst j hj

/-- What a path has below a root are parts. -/
theorem Translates.validParts {os : PathOs} (h : Translates os mappings path earlier m rest) :
    ∀ s ∈ rest, ValidPart s :=
  fun s hs => path.parts_ok s (h.parts ▸ List.mem_append_right _ hs)

theorem joinpath_nil (p : PosixPath) : p.joinpath [] = p := by
  obtain ⟨root, parts, hparts⟩ := p
  simp [PosixPath.joinpath, PosixPath.validParts]

/-- A path is translated by its mapping. -/
theorem remapServerPath_eq (hexpand : ExpandsUser expanduser)
    (h : Translates (lexicalOs cwd expanduser) mappings (PosixPath.resolved cwd (expanduser path)) earlier
      m rest) :
    remapServerPath (lexicalOs cwd expanduser) path mappings = some (m.workerPath.joinpath rest) := by
  obtain ⟨m₀, -, hm⟩ := mem_normalisePathMappings h.mem
  have hserver : m.serverPath.root = .slash := by rw [hm]; rfl
  have hworker : expanduser m.workerPath = m.workerPath := by rw [hm]; exact hexpand.again _
  have hsource : PosixPath.resolved cwd (expanduser (PosixPath.resolved cwd (expanduser path))) =
      PosixPath.resolved cwd (expanduser path) := by
    rw [hexpand.rooted _ rfl]
    exact resolved_of_noDots rfl (PosixPath.resolved_noDots _ _)
  obtain ⟨later, horder⟩ := h.order
  have hfind : mappingForServerPath (lexicalOs cwd expanduser) (PosixPath.resolved cwd (expanduser path))
      mappings = some m := by
    show (normalisePathMappings _ mappings).find? (fun m => isUnder (PosixPath.resolved cwd
      (expanduser (PosixPath.resolved cwd (expanduser path)))) m.serverPath) = some m
    rw [hsource]
    exact List.find?_eq_some_iff_append.mpr
      ⟨h.under, earlier, later, horder, fun j hj => by simpa using h.first j hj⟩
  have hsuffix := PosixPath.dropWhile_drop_asPosix rfl hserver h.parts
  show (mappingForServerPath (lexicalOs cwd expanduser) (PosixPath.resolved cwd (expanduser path))
    mappings).bind _ = _
  rw [hfind, Option.bind_some]
  show (if List.dropWhile _ _ = [] then pure (expanduser m.workerPath) else
    pure ((expanduser m.workerPath).joinpath (split '/' (String.ofList (List.dropWhile _ _))))) = _
  simp only [lexicalOs_resolve, lexicalOs_expanduser, hsuffix, hworker]
  by_cases hrest : rest = []
  · rw [hrest, joinpath_nil]
    rfl
  · have hne : (joined rest).toList ≠ [] := by
      simpa using joined_ne_empty h.validParts hrest
    rw [if_neg hne, String.ofList_toList, split_joined h.validParts hrest]
    rfl

end Forward

/-! ## Normal texts -/

/-- The slashes that a normal text starts with. -/
def startOf (text : String) : String :=
  match PosixPath.rootOf text.toList with
  | .relative => ""
  | .slash => "/"
  | .doubleSlash => "//"

/-- The components of a normal text. -/
def componentsOf (text : String) : List String :=
  (normalComponents (startOf text ≠ "") [] (split '/' text)).reverse

/-- The text of a normal path, empty where `normpath` says `.`. -/
def normalText (text : String) : String :=
  startOf text ++ joined (componentsOf text)

/-- The text that `normpath` gets. -/
def separated (windowsStyle : Bool) (text : String) : String :=
  if windowsStyle then windowsText text else slashed text

theorem normaliseWorkerPathText_eq (windowsStyle : Bool) (text : String) :
    normaliseWorkerPathText windowsStyle text =
      if normalText (separated windowsStyle text) = "" then "."
      else normalText (separated windowsStyle text) :=
  rfl

theorem normaliseWorkerPathText_of_ne {windowsStyle : Bool} {text : String}
    (h : normalText (separated windowsStyle text) ≠ "") :
    normaliseWorkerPathText windowsStyle text = normalText (separated windowsStyle text) := by
  rw [normaliseWorkerPathText_eq, if_neg h]

section Texts

variable {a b : String} {parts : List String} {c : Char}

/-- A text is rooted where it starts with a slash. -/
theorem startOf_ne_empty_iff : startOf a ≠ "" ↔ a.toList.head? = some '/' := by
  unfold startOf
  match a.toList with
  | [] => simp [PosixPath.rootOf]
  | [u] =>
    by_cases hu : u = '/'
    · simp [PosixPath.rootOf, hu]
    · simp [PosixPath.rootOf, hu]
  | [u, v] =>
    by_cases hu : u = '/'
    · by_cases hv : v = '/'
      · simp [PosixPath.rootOf, hu, hv]
      · simp [PosixPath.rootOf, hu, hv]
    · simp [PosixPath.rootOf, hu]
  | u :: v :: w :: _ =>
    by_cases hu : u = '/'
    · by_cases hv : v = '/'
      · by_cases hw : w = '/'
        · simp [PosixPath.rootOf, hu, hv, hw]
        · simp [PosixPath.rootOf, hu, hv, hw]
      · simp [PosixPath.rootOf, hu, hv]
    · simp [PosixPath.rootOf, hu]

theorem startOf_append_ne (ha : a ≠ "") : startOf (a ++ b) ≠ "" ↔ startOf a ≠ "" := by
  have hne : a.toList ≠ [] := by simpa using ha
  rw [startOf_ne_empty_iff, startOf_ne_empty_iff, String.toList_append,
    List.head?_append_of_ne_nil _ hne]

/-- Once there is another character, the root is decided. -/
theorem rootOf_append {xs ys : List Char} (h : ∃ x ∈ xs, x ≠ '/') :
    PosixPath.rootOf (xs ++ ys) = PosixPath.rootOf xs := by
  obtain ⟨x, hx, hne⟩ := h
  match xs, hx with
  | [u], hx =>
    obtain rfl := List.mem_singleton.mp hx
    simp [PosixPath.rootOf, hne]
  | [u, v], hx =>
    by_cases hu : u = '/'
    · have hv : v ≠ '/' := by
        rcases List.mem_cons.mp hx with rfl | hx
        · exact absurd hu hne
        · rwa [← List.mem_singleton.mp hx]
      simp [PosixPath.rootOf, hu, hv]
    · simp [PosixPath.rootOf, hu]
  | u :: v :: w :: _, _ =>
    by_cases hu : u = '/'
    · by_cases hv : v = '/'
      · by_cases hw : w = '/'
        · simp [PosixPath.rootOf, hu, hv, hw]
        · simp [PosixPath.rootOf, hu, hv, hw]
      · simp [PosixPath.rootOf, hu, hv]
    · simp [PosixPath.rootOf, hu]

/-! ### Components -/

/-- One component: `normpath` leaves it out, adds it, or takes the last one away. -/
def takeComponent (rooted : Bool) (done : List String) (c : String) : List String :=
  if c = "" ∨ c = "." then done
  else if c ≠ ".." then c :: done
  else match done with
    | [] => if rooted then [] else [".."]
    | d :: rest => if d = ".." then ".." :: d :: rest else rest

theorem normalComponents_eq (rooted : Bool) (done cs : List String) :
    normalComponents rooted done cs = cs.foldl (takeComponent rooted) done := by
  induction cs generalizing done with
  | nil => rfl
  | cons c cs ih =>
    rw [List.foldl_cons, ← ih]
    conv_lhs => unfold normalComponents
    unfold takeComponent
    split
    · rfl
    · split
      · rfl
      · split
        · rfl
        · rfl

theorem takeComponent_of_part {rooted : Bool} {done : List String} {s : String} (h : ValidPart s)
    (hdots : s ≠ "..") : takeComponent rooted done s = s :: done := by
  unfold takeComponent
  rw [if_neg (not_or.mpr ⟨h.1, h.2.1⟩), if_pos hdots]

/-- Parts other than `..` are components. -/
theorem foldl_takeComponent_of_parts (rooted : Bool) (done : List String) (h : ∀ s ∈ parts, ValidPart s)
    (hdots : ".." ∉ parts) : parts.foldl (takeComponent rooted) done = parts.reverse ++ done := by
  induction parts generalizing done with
  | nil => rfl
  | cons s parts ih =>
    rw [List.mem_cons, not_or] at hdots
    rw [List.foldl_cons, takeComponent_of_part (h s List.mem_cons_self) (Ne.symm hdots.1),
      ih _ (fun t ht => h t (List.mem_cons_of_mem _ ht)) hdots.2]
    simp

theorem validPart_takeComponent {rooted : Bool} {done : List String} {s t : String}
    (hdone : ∀ t ∈ done, ValidPart t) (hs : '/' ∉ s.toList) (ht : t ∈ takeComponent rooted done s) :
    ValidPart t := by
  have hdots : ValidPart ".." := by decide
  unfold takeComponent at ht
  split at ht
  · exact hdone t ht
  · next hc =>
    rw [not_or] at hc
    split at ht
    · rcases List.mem_cons.mp ht with rfl | ht
      · exact ⟨hc.1, hc.2, hs⟩
      · exact hdone t ht
    · split at ht
      · split at ht
        · cases ht
        · rwa [List.mem_singleton.mp ht]
      · split at ht
        · rcases List.mem_cons.mp ht with rfl | ht
          · exact hdots
          · exact hdone t ht
        · exact hdone t (List.mem_cons_of_mem _ ht)

theorem validPart_foldl_takeComponent {rooted : Bool} {done cs : List String} {s : String}
    (hdone : ∀ t ∈ done, ValidPart t) (hcs : ∀ t ∈ cs, '/' ∉ t.toList)
    (hs : s ∈ cs.foldl (takeComponent rooted) done) : ValidPart s := by
  induction cs generalizing done with
  | nil => exact hdone s hs
  | cons c cs ih =>
    exact ih (fun t ht => validPart_takeComponent hdone (hcs c List.mem_cons_self) ht)
      (fun t ht => hcs t (List.mem_cons_of_mem _ ht)) hs

theorem componentsOf_eq (text : String) : componentsOf text =
    ((split '/' text).foldl (takeComponent (startOf text ≠ "")) []).reverse := by
  rw [componentsOf, normalComponents_eq]

theorem validPart_componentsOf {s : String} (h : s ∈ componentsOf a) : ValidPart s := by
  rw [componentsOf_eq] at h
  exact validPart_foldl_takeComponent (by simp) (fun _ ht => not_mem_of_mem_split ht) (List.mem_reverse.mp h)

/-- The components of a text with parts below it. -/
theorem componentsOf_append (ha : a ≠ "") (h : ∀ s ∈ parts, ValidPart s) (hdots : ".." ∉ parts)
    (hne : parts ≠ []) : componentsOf (a ++ "/" ++ joined parts) = componentsOf a ++ parts := by
  have hrooted : decide (startOf (a ++ "/" ++ joined parts) ≠ "") = decide (startOf a ≠ "") := by
    rw [String.append_assoc]
    exact decide_eq_decide.mpr (startOf_append_ne ha)
  rw [componentsOf_eq, hrooted, split_append_slash, List.foldl_append, split_joined h hne,
    foldl_takeComponent_of_parts _ _ h hdots, List.reverse_append, List.reverse_reverse, componentsOf_eq]

theorem componentsOf_joined (h : ∀ s ∈ parts, ValidPart s) (hdots : ".." ∉ parts) (hne : parts ≠ []) :
    componentsOf (joined parts) = parts := by
  rw [componentsOf_eq, split_joined h hne, foldl_takeComponent_of_parts _ _ h hdots, List.append_nil,
    List.reverse_reverse]

/-- Slashes have nothing but empty texts between them. -/
theorem split_slashes (ha : ∀ c ∈ a.toList, c = '/') : ∀ s ∈ split '/' a, s = "" := by
  have hpieces : ∀ xs : List Char, (∀ x ∈ xs, x = '/') → ∀ piece ∈ xs.splitOn '/', piece = [] := by
    intro xs hxs
    induction xs with
    | nil => simp
    | cons x xs ih =>
      rw [List.splitOn_cons_eq_if_modifyHead, if_pos (by simpa using hxs x List.mem_cons_self)]
      intro piece hpiece
      rcases List.mem_cons.mp hpiece with rfl | hpiece
      · rfl
      · exact ih (fun y hy => hxs y (List.mem_cons_of_mem _ hy)) piece hpiece
  intro s hs
  obtain ⟨piece, hpiece, rfl⟩ := List.mem_map.mp hs
  rw [hpieces _ ha piece hpiece]

theorem foldl_takeComponent_of_empty (rooted : Bool) (done : List String) (h : ∀ s ∈ parts, s = "") :
    parts.foldl (takeComponent rooted) done = done := by
  induction parts with
  | nil => rfl
  | cons s parts ih =>
    have hs : takeComponent rooted done s = done := by
      unfold takeComponent
      rw [if_pos (.inl (h s List.mem_cons_self))]
    rw [List.foldl_cons, hs]
    exact ih fun t ht => h t (List.mem_cons_of_mem _ ht)

/-- A text of slashes alone has no components. -/
theorem componentsOf_slashes (ha : ∀ c ∈ a.toList, c = '/') : componentsOf a = [] := by
  rw [componentsOf_eq, foldl_takeComponent_of_empty _ _ (split_slashes ha), List.reverse_nil]

theorem componentsOf_slashes_append (ha : ∀ c ∈ a.toList, c = '/') (h : ∀ s ∈ parts, ValidPart s)
    (hdots : ".." ∉ parts) (hne : parts ≠ []) : componentsOf (a ++ "/" ++ joined parts) = parts := by
  rw [componentsOf_eq, split_append_slash, List.foldl_append, foldl_takeComponent_of_empty _ _
    (split_slashes ha), split_joined h hne, foldl_takeComponent_of_parts _ _ h hdots, List.append_nil,
    List.reverse_reverse]

theorem startOf_append (h : componentsOf a ≠ []) : startOf (a ++ b) = startOf a := by
  have hchar : ∃ x ∈ a.toList, x ≠ '/' := by
    by_contra hall
    exact h (componentsOf_slashes fun x hx => by_contra fun hne => hall ⟨x, hx, hne⟩)
  rw [startOf, startOf, String.toList_append, rootOf_append hchar]

end Texts

/-! ## Worker paths -/

theorem validParts_eq {parts : List String} (h : ∀ s ∈ parts, ValidPart s) :
    PosixPath.validParts parts = parts :=
  List.filter_eq_self.mpr fun s hs => decide_eq_true (h s hs)

/-- The text of a path below a path that has parts. -/
theorem asPosix_joinpath {root : PosixPath} {rest : List String} (h : ∀ s ∈ rest, ValidPart s)
    (hne : rest ≠ []) (hparts : root.parts ≠ []) :
    (root.joinpath rest).asPosix = root.asPosix ++ "/" ++ joined rest := by
  have hall : root.parts ++ rest ≠ [] := by simp [hne]
  have hjoin := joined_append hparts hne
  simp only [joined] at hjoin
  cases hroot : root.root with
  | relative => simp only [PosixPath.asPosix, PosixPath.joinpath, hroot, validParts_eq h, if_neg hall,
      if_neg hparts, joined, hjoin]
  | slash => simp only [PosixPath.asPosix, PosixPath.joinpath, hroot, validParts_eq h, joined, hjoin,
      String.append_assoc]
  | doubleSlash => simp only [PosixPath.asPosix, PosixPath.joinpath, hroot, validParts_eq h, joined,
      hjoin, String.append_assoc]

theorem asPosix_ne_empty {root : PosixPath} (h : root.parts ≠ []) : root.asPosix ≠ "" := by
  have hbody := joined_ne_empty root.parts_ok h
  cases hroot : root.root with
  | relative => simpa only [PosixPath.asPosix, hroot, if_neg h, joined] using hbody
  | slash => simp [PosixPath.asPosix, hroot]
  | doubleSlash => simp [PosixPath.asPosix, hroot]

/-- `rest` are the components that `text` has below those of `root`. -/
structure Below (text root : String) (rest : List String) : Prop where
  components : componentsOf text = componentsOf root ++ rest
  rooted : startOf text ≠ "" ↔ startOf root ≠ ""
  start : componentsOf root ≠ [] → startOf text = startOf root

/-- Below a path without parts. -/
theorem below_slashes {text root : String} {rest : List String} (hroot : componentsOf root = [])
    (hcomps : componentsOf text = rest) (hrooted : text.toList.head? = some '/' ↔
      root.toList.head? = some '/') : Below text root rest := by
  refine ⟨by rw [hroot, hcomps, List.nil_append], ?_, fun hne => absurd hroot hne⟩
  rw [startOf_ne_empty_iff, startOf_ne_empty_iff]
  exact hrooted

theorem slashed_ne_empty {text : String} (h : text ≠ "") : slashed text ≠ "" := by
  rw [Ne, ← String.toList_inj, toList_slashed, String.toList_empty, List.map_eq_nil_iff,
    ← String.toList_empty, String.toList_inj]
  exact h

theorem below_append {root : String} {rest : List String} (hroot : root ≠ "")
    (h : ∀ s ∈ rest, ValidPart s) (hdots : ".." ∉ rest) (hne : rest ≠ []) :
    Below (root ++ "/" ++ joined rest) root rest := by
  refine ⟨componentsOf_append hroot h hdots hne, ?_, fun hr => ?_⟩
  · rw [String.append_assoc]
    exact startOf_append_ne hroot
  · rw [String.append_assoc]
    exact startOf_append hr

theorem below_joinpath (root : PosixPath) {rest : List String} (h : ∀ s ∈ rest, ValidPart s)
    (hdots : ".." ∉ rest) (hback : ∀ s ∈ rest, '\\' ∉ s.toList) (hne : rest ≠ []) :
    Below (slashed (root.joinpath rest).asPosix) (slashed root.asPosix) rest := by
  have hjoined := slashed_joined hback
  have hslash : slashed "/" = "/" := by decide
  by_cases hparts : root.parts = []
  · cases hroot : root.root with
    | relative =>
      have htext : (root.joinpath rest).asPosix = joined rest := by
        simp only [PosixPath.asPosix, PosixPath.joinpath, hroot, hparts, validParts_eq h, List.nil_append,
          if_neg hne, joined]
      have hdot : root.asPosix = "." := by
        simp only [PosixPath.asPosix, hroot, hparts, if_true]
      have hslashed : slashed "." = "." := by decide
      rw [htext, hjoined, hdot, hslashed]
      refine below_slashes (by decide) (componentsOf_joined h hdots hne) ?_
      exact ⟨fun hhead => absurd hhead (joined_head h), fun hhead => absurd hhead (by decide)⟩
    | slash =>
      have htext : (root.joinpath rest).asPosix = "" ++ "/" ++ joined rest := by
        simp only [PosixPath.asPosix, PosixPath.joinpath, hroot, hparts, validParts_eq h, List.nil_append,
          joined, String.empty_append]
      have hroot' : root.asPosix = "/" := by
        simp only [PosixPath.asPosix, hroot, hparts, String.intercalate_nil, String.append_empty]
      have hstart : slashed ("" ++ "/") = "" ++ "/" := by decide
      rw [htext, slashed_append, hjoined, hroot', hslash, hstart]
      refine below_slashes (componentsOf_slashes (by simp))
        (componentsOf_slashes_append (by simp) h hdots hne) ?_
      simp
    | doubleSlash =>
      have htext : (root.joinpath rest).asPosix = "/" ++ "/" ++ joined rest := by
        simp only [PosixPath.asPosix, PosixPath.joinpath, hroot, hparts, validParts_eq h, List.nil_append,
          joined]
        rfl
      have hroot' : root.asPosix = "//" := by
        simp only [PosixPath.asPosix, hroot, hparts, String.intercalate_nil, String.append_empty]
      have hslashes : slashed "//" = "//" := by decide
      have hstart : slashed ("/" ++ "/") = "/" ++ "/" := by decide
      rw [htext, slashed_append, hjoined, hroot', hslashes, hstart]
      refine below_slashes (componentsOf_slashes (by simp))
        (componentsOf_slashes_append (by simp) h hdots hne) ?_
      simp
  · rw [asPosix_joinpath h hne hparts, slashed_append, slashed_append, hjoined, hslash]
    exact below_append (slashed_ne_empty (asPosix_ne_empty hparts)) h hdots hne

/-! ### Drives -/

/-- Nothing but `.` follows the drive of the text. -/
def DriveAlone (text : String) : Prop :=
  ∃ drive rest, relativeToDrive (slashed text).toList = some (drive, rest) ∧ rest ≠ [] ∧
    PosixPath.validParts (split '/' (String.ofList rest)) = []

theorem relativeToDrive_some {xs rest : List Char} {drive : Char}
    (h : relativeToDrive xs = some (drive, rest)) :
    xs = drive :: ':' :: rest ∧ drive ≠ '/' ∧ rest.head? ≠ some '/' := by
  unfold relativeToDrive at h
  split at h
  · split at h
    · cases h
    · next hc =>
      obtain ⟨rfl, rfl⟩ := Prod.mk.inj (Option.some.inj h)
      exact ⟨rfl, not_or.mp hc⟩
  · cases h

theorem relativeToDrive_of_head {xs : List Char} (h : xs.head? = some '/') : relativeToDrive xs = none := by
  cases hdrive : relativeToDrive xs with
  | none => rfl
  | some found =>
    obtain ⟨drive, rest⟩ := found
    obtain ⟨rfl, hne, -⟩ := relativeToDrive_some hdrive
    exact absurd (Option.some.inj h) hne

/-- A text with a slash and more after it: what was no text relative to a drive does not become one. -/
theorem relativeToDrive_append_of_none {xs ys : List Char} (h : relativeToDrive xs = none) :
    relativeToDrive (xs ++ '/' :: ys) = none := by
  cases hdrive : relativeToDrive (xs ++ '/' :: ys) with
  | none => rfl
  | some found =>
    obtain ⟨drive, rest⟩ := found
    obtain ⟨heq, hne, hhead⟩ := relativeToDrive_some hdrive
    match xs, heq with
    | [], heq => exact absurd (List.cons.inj heq).1.symm hne
    | [_], heq =>
      have hcolon := (List.cons.inj (List.cons.inj heq).2).1
      exact absurd hcolon (by decide)
    | [u, v], heq =>
      rw [← (List.cons.inj (List.cons.inj heq).2).2] at hhead
      exact absurd rfl hhead
    | u :: v :: w :: tail, heq =>
      simp only [List.cons_append, List.cons.injEq] at heq
      obtain ⟨rfl, rfl, rfl⟩ := heq
      rw [List.head?_cons] at hhead
      simp only [relativeToDrive, List.head?_cons, hne, hhead, or_self, if_false] at h
      cases h

theorem windowsText_of_none {text : String} (h : relativeToDrive (slashed text).toList = none) :
    windowsText text = slashed text := by
  rw [windowsText, h]

theorem windowsText_of_some {text : String} {drive : Char} {rest : List Char}
    (h : relativeToDrive (slashed text).toList = some (drive, rest)) :
    windowsText text = String.ofList [drive, ':'] ++
      joined (PosixPath.validParts (split '/' (String.ofList rest))) := by
  rw [windowsText, h]
  rfl

theorem slashed_head {text : String} (h : text.toList.head? = some '/') :
    (slashed text).toList.head? = some '/' := by
  rw [toList_slashed, List.head?_map, h]
  rfl

theorem windowsText_ne_empty {text : String} (h : text ≠ "") : windowsText text ≠ "" := by
  cases hdrive : relativeToDrive (slashed text).toList with
  | none =>
    rw [windowsText_of_none hdrive]
    exact slashed_ne_empty h
  | some found =>
    obtain ⟨drive, rest⟩ := found
    rw [windowsText_of_some hdrive]
    intro hempty
    exact absurd (String.append_eq_empty_iff.mp hempty).1 (by simp)

/-- The text of a drive is kept below it, unless nothing but `.` follows the drive. -/
theorem windowsText_append {text : String} {parts : List String} (h : ∀ s ∈ parts, ValidPart s)
    (hback : ∀ s ∈ parts, '\\' ∉ s.toList) (hne : parts ≠ []) (hdrive : ¬ DriveAlone text) :
    windowsText (text ++ "/" ++ joined parts) = windowsText text ++ "/" ++ joined parts := by
  have hslash : slashed "/" = "/" := by decide
  have hslashed : slashed (text ++ "/" ++ joined parts) = slashed text ++ "/" ++ joined parts := by
    rw [slashed_append, slashed_append, slashed_joined hback, hslash]
  have hlist : (slashed text ++ "/" ++ joined parts).toList =
      (slashed text).toList ++ '/' :: (joined parts).toList := by simp
  cases hfound : relativeToDrive (slashed text).toList with
  | none =>
    rw [windowsText_of_none hfound, windowsText_of_none ?_, hslashed]
    rw [hslashed, hlist]
    exact relativeToDrive_append_of_none hfound
  | some found =>
    obtain ⟨drive, rest⟩ := found
    obtain ⟨htext, hletter, hhead⟩ := relativeToDrive_some hfound
    rw [windowsText_of_some hfound]
    cases rest with
    | nil =>
      have hnone : relativeToDrive (slashed (text ++ "/" ++ joined parts)).toList = none := by
        rw [hslashed, hlist, htext]
        simp [relativeToDrive]
      have hdrive' : slashed text = String.ofList [drive, ':'] := by
        rw [← String.toList_inj, htext, String.toList_ofList]
      have hempty : joined (PosixPath.validParts (split '/' (String.ofList []))) = "" := by decide
      rw [windowsText_of_none hnone, hslashed, hdrive', hempty, String.append_empty]
    | cons c cs =>
      have hhead' : c ≠ '/' := fun hc => hhead (congrArg some hc)
      have hsome : relativeToDrive (slashed (text ++ "/" ++ joined parts)).toList =
          some (drive, c :: cs ++ '/' :: (joined parts).toList) := by
        rw [hslashed, hlist, htext]
        simp [relativeToDrive, hletter, hhead']
      have hrest : String.ofList (c :: cs ++ '/' :: (joined parts).toList) =
          String.ofList (c :: cs) ++ "/" ++ joined parts := by
        rw [← String.toList_inj]
        simp
      have hnames : PosixPath.validParts (split '/' (String.ofList (c :: cs))) ≠ [] :=
        fun h0 => hdrive ⟨drive, c :: cs, hfound, List.cons_ne_nil _ _, h0⟩
      rw [windowsText_of_some hsome, hrest, split_append_slash, split_joined h hne, PosixPath.validParts,
        List.filter_append, ← PosixPath.validParts, ← PosixPath.validParts, filter_validParts h,
        joined_append hnames hne]
      simp only [String.append_assoc]

/-- What a worker path has below its root is what it was made with. -/
theorem below_separated (windowsStyle : Bool) (root : PosixPath) {rest : List String}
    (h : ∀ s ∈ rest, ValidPart s) (hdots : ".." ∉ rest) (hback : ∀ s ∈ rest, '\\' ∉ s.toList)
    (hne : rest ≠ []) (hnamed : root.asPosix ≠ ".")
    (hdrive : windowsStyle = true → ¬ DriveAlone root.asPosix) :
    Below (separated windowsStyle (root.joinpath rest).asPosix) (separated windowsStyle root.asPosix)
      rest := by
  cases windowsStyle with
  | false => exact below_joinpath root h hdots hback hne
  | true =>
    simp only [separated, if_true]
    by_cases hroot : root.root = .relative
    · have hparts : root.parts ≠ [] := fun h0 => hnamed (PosixPath.asPosix_dot hroot h0)
      rw [asPosix_joinpath h hne hparts, windowsText_append h hback hne (hdrive rfl)]
      exact below_append (windowsText_ne_empty (asPosix_ne_empty hparts)) h hdots hne
    · have hrooted : ∀ p : PosixPath, p.root ≠ .relative → windowsText p.asPosix = slashed p.asPosix := by
        intro p hp
        refine windowsText_of_none (relativeToDrive_of_head (slashed_head ?_))
        rw [PosixPath.asPosix_eq (.inl hp)]
        cases hr : p.root with
        | relative => exact absurd hr hp
        | slash => simp [Root.text]
        | doubleSlash => simp [Root.text]
      rw [hrooted root hroot, hrooted (root.joinpath rest) hroot]
      exact below_joinpath root h hdots hback hne

/-! ## Comparing texts -/

/-- What `str.lower` is documented to do with separators: it works on the texts between slashes, and
neither makes a text empty nor a slash of another character. -/
structure LowersText (toLower : String → String) : Prop where
  slash : ∀ a b, toLower (a ++ "/" ++ b) = toLower a ++ "/" ++ toLower b
  empty : ∀ a, toLower a = "" ↔ a = ""
  noSlash : ∀ a, '/' ∉ a.toList → '/' ∉ (toLower a).toList

theorem lowersText_id : LowersText id :=
  ⟨fun _ _ => rfl, fun _ => Iff.rfl, fun _ h => h⟩

theorem lowersText_lower : LowersText lower where
  slash a b := by
    have hslash : lowerChar '/' = '/' := by decide
    rw [← String.toList_inj]
    simp [lower, hslash]
  empty a := by
    rw [← String.toList_inj, lower, String.toList_ofList, String.toList_empty, List.map_eq_nil_iff,
      ← String.toList_empty, String.toList_inj]
  noSlash a ha := by
    rw [lower, String.toList_ofList, List.mem_map]
    rintro ⟨c, hc, hlower⟩
    exact ha (lowerChar_eq_of_lt (by decide) hlower ▸ hc)

/-- The start and the components of a text end with a part. -/
theorem exists_last {parts : List String} (text : String) (h : ∀ s ∈ parts, ValidPart s)
    (hne : parts ≠ []) : ∃ s, ValidPart s ∧ (startOf text ++ joined parts = s ∨
      ∃ b, startOf text ++ joined parts = b ++ "/" ++ s) := by
  obtain ⟨init, s, rfl⟩ := (List.eq_nil_or_concat parts).resolve_left hne
  rw [List.concat_eq_append] at h ⊢
  refine ⟨s, h s (by simp), ?_⟩
  by_cases hinit : init = []
  · subst hinit
    rw [List.nil_append, joined, String.intercalate_singleton]
    unfold startOf
    split
    · exact .inl (String.empty_append)
    · exact .inr ⟨"", by rw [String.empty_append]⟩
    · exact .inr ⟨"/", rfl⟩
  · have hsingle : joined [s] = s := String.intercalate_singleton
    rw [joined_append hinit (List.cons_ne_nil s []), hsingle]
    exact .inr ⟨startOf text ++ joined init, by simp only [String.append_assoc]⟩

section Compared

variable {f : String → String} {text root : String} {rest parts : List String}

variable (text) in
theorem LowersText.last (hf : LowersText f) (h : ∀ s ∈ parts, ValidPart s) (hne : parts ≠ []) :
    ∃ init s, s ≠ [] ∧ '/' ∉ s ∧ (f (startOf text ++ joined parts)).toList = init ++ s := by
  obtain ⟨s, hs, hlast⟩ := exists_last text h hne
  have hs' : (f s).toList ≠ [] := by
    have hempty : f s ≠ "" := fun h0 => hs.1 ((hf.empty s).mp h0)
    simpa using hempty
  rcases hlast with hlast | ⟨b, hlast⟩
  · exact ⟨[], _, hs', hf.noSlash s hs.2.2, by rw [hlast, List.nil_append]⟩
  · exact ⟨(f b ++ "/").toList, _, hs', hf.noSlash s hs.2.2, by
      rw [hlast, hf.slash, String.toList_append]⟩

/-- The root of a text with components is compared as it is. -/
theorem rstripSlash_compared (hf : LowersText f) (h : ∀ s ∈ parts, ValidPart s) (hne : parts ≠ []) :
    rstripSlash (f (startOf text ++ joined parts)).toList = (f (startOf text ++ joined parts)).toList := by
  obtain ⟨init, s, hs, hslash, heq⟩ := hf.last text h hne
  refine List.rdropWhile_eq_self_iff.mpr fun hl => ?_
  simp only [heq, List.getLast_append_of_ne_nil _ hs]
  intro hlast
  exact hslash (of_decide_eq_true hlast ▸ List.getLast_mem hs)

theorem filter_split_joined (start : String) (hstart : ∀ c ∈ start.toList, c = '/')
    (h : ∀ s ∈ rest, ValidPart s) (hne : rest ≠ []) :
    (split '/' (start ++ "/" ++ joined rest)).filter (· ≠ "") = rest := by
  rw [split_append_slash, List.filter_append, split_joined h hne]
  have hempty : (split '/' start).filter (· ≠ "") = [] := by
    rw [List.filter_eq_nil_iff]
    intro s hs
    simp [split_slashes hstart s hs]
  have hrest : rest.filter (· ≠ "") = rest :=
    List.filter_eq_self.mpr fun s hs => by simpa using (h s hs).1
  rw [hempty, hrest, List.nil_append]

/-- What `_worker_path_suffix` gives, with `f` the texts as it compares them. -/
def comparedSuffix (f : String → String) (normalPath normalRoot : String) : Option (List String) :=
  let rootPrefix := rstripSlash (f normalRoot).toList
  if f normalPath = f normalRoot then some []
  else if (rootPrefix ++ ['/']).isPrefixOf (f normalPath).toList then
    some ((split '/' (String.ofList (normalPath.toList.drop rootPrefix.length))).filter (· ≠ ""))
  else none

/-- Below a root with components. -/
theorem comparedSuffix_of_components (hf : LowersText f) (hb : Below text root rest)
    (h : ∀ s ∈ rest, ValidPart s) (hne : rest ≠ []) (hroot : componentsOf root ≠ [])
    (hlength : (f (normalText root)).length = (normalText root).length ∨
      (f (normalText root)).length = (normalText root).length + 1) :
    comparedSuffix f (normalText text) (normalText root) = some rest := by
  have hpath : normalText text = normalText root ++ "/" ++ joined rest := by
    rw [normalText, hb.components, hb.start hroot, joined_append hroot hne, normalText]
    simp only [String.append_assoc]
  have hstrip : rstripSlash (f (normalText root)).toList = (f (normalText root)).toList :=
    rstripSlash_compared hf (fun s hs => validPart_componentsOf hs) hroot
  have hcompared : (f (normalText text)).toList =
      (f (normalText root)).toList ++ ['/'] ++ (f (joined rest)).toList := by
    rw [hpath, hf.slash, String.toList_append, String.toList_append]
    rfl
  have hdiffer : f (normalText text) ≠ f (normalText root) := by
    intro heq
    have hlen := congrArg List.length hcompared
    rw [heq] at hlen
    simp only [List.length_append, List.length_singleton] at hlen
    omega
  rw [comparedSuffix, if_neg hdiffer, if_pos (by
    rw [hstrip, List.isPrefixOf_iff_prefix, hcompared]
    exact List.prefix_append _ _), hstrip, String.length_toList]
  have hdrop : (normalText text).toList.drop (normalText root).length = ("" ++ "/" ++ joined rest).toList := by
    rw [hpath, String.append_assoc, String.toList_append, ← String.length_toList, List.drop_left,
      String.empty_append]
  rcases hlength with hlength | hlength
  · rw [hlength, hdrop, String.ofList_toList, filter_split_joined "" (by simp) h hne]
  · rw [hlength, ← List.drop_drop, hdrop]
    have htail : List.drop 1 ("" ++ "/" ++ joined rest).toList = (joined rest).toList := by simp
    rw [htail, String.ofList_toList, split_joined h hne]
    congr 1
    exact List.filter_eq_self.mpr fun s hs => by simpa using (h s hs).1

/-- Below a root of slashes alone. -/
theorem comparedSuffix_of_slashes (hf : LowersText f) (hb : Below text root rest)
    (h : ∀ s ∈ rest, ValidPart s) (hne : rest ≠ []) (hroot : componentsOf root = [])
    (hrooted : startOf root ≠ "") : comparedSuffix f (normalText text) (normalText root) = some rest := by
  have hcomps : componentsOf text = rest := by rw [hb.components, hroot, List.nil_append]
  have hpath : normalText text = startOf text ++ joined rest := by rw [normalText, hcomps]
  have hnormal : normalText root = startOf root := by
    rw [normalText, hroot, joined_nil, String.append_empty]
  have hempty : f "" = "" := (hf.empty "").mpr rfl
  have hone : f "/" = "/" := by
    have hslash := hf.slash "" ""
    rw [hempty] at hslash
    exact hslash
  have htwo : f "//" = "//" := by
    have hslash := hf.slash "/" ""
    rw [hempty, hone] at hslash
    exact hslash
  have hcases : ∀ t, startOf t ≠ "" → startOf t = "" ++ "/" ∨ startOf t = "/" ++ "/" := by
    intro t ht
    unfold startOf at ht ⊢
    split
    · simp_all
    · exact .inl rfl
    · exact .inr rfl
  have hslashes : ∀ c ∈ (f (normalText root)).toList, c = '/' := by
    rw [hnormal]
    rcases hcases root hrooted with hs | hs
    · rw [hs, String.empty_append, hone]
      simp
    · rw [hs]
      have hf' : f ("/" ++ "/") = "/" ++ "/" := htwo
      rw [hf']
      simp
  have hstrip : rstripSlash (f (normalText root)).toList = [] := by
    refine List.rdropWhile_eq_nil_iff.mpr fun c hc => ?_
    exact decide_eq_true (hslashes c hc)
  have hdiffer : f (normalText text) ≠ f (normalText root) := by
    intro heq
    obtain ⟨init, s, hs, hslash, hlast⟩ := hf.last text h hne
    rw [← hpath, heq] at hlast
    obtain ⟨c, hc⟩ := List.exists_mem_of_ne_nil s hs
    exact hslash (hslashes c (by rw [hlast]; exact List.mem_append_right _ hc) ▸ hc)
  obtain ⟨start, hstart, hslash, htext⟩ : ∃ start, (∀ c ∈ start.toList, c = '/') ∧ f start = start ∧
      normalText text = start ++ "/" ++ joined rest := by
    rcases hcases text (hb.rooted.mpr hrooted) with hs | hs
    · exact ⟨"", by simp, hempty, by rw [hpath, hs]⟩
    · exact ⟨"/", by simp, hone, by rw [hpath, hs]⟩
  rw [comparedSuffix, if_neg hdiffer, hstrip, if_pos (by
    rw [List.isPrefixOf_iff_prefix, htext, hf.slash, hslash]
    cases hlist : start.toList with
    | nil => exact ⟨(f (joined rest)).toList, by simp [hlist]⟩
    | cons c cs =>
      obtain rfl := hstart c (by rw [hlist]; exact List.mem_cons_self)
      exact ⟨cs ++ '/' :: (f (joined rest)).toList, by simp [hlist]⟩), List.length_nil, List.drop_zero,
    String.ofList_toList, htext, filter_split_joined start hstart h hne]

end Compared

/-- The two texts are compared as Windows paths. -/
def windowsStyle (pathText rootText : String) : Bool :=
  looksLikeWindowsPath pathText || looksLikeWindowsPath rootText

/-- The texts as `_worker_path_suffix` compares them. -/
def comparedText (toLower : String → String) (pathText rootText : String) : String → String :=
  if windowsStyle pathText rootText then toLower else id

theorem workerPathSuffix_eq (toLower : String → String) (pathText rootText : String) :
    workerPathSuffix pathText rootText toLower =
      comparedSuffix (comparedText toLower pathText rootText)
        (normaliseWorkerPathText (windowsStyle pathText rootText) pathText)
        (normaliseWorkerPathText (windowsStyle pathText rootText) rootText) := by
  unfold workerPathSuffix comparedSuffix comparedText windowsStyle
  by_cases hw : (looksLikeWindowsPath pathText || looksLikeWindowsPath rootText) = true
  · simp only [if_pos hw]
  · simp only [if_neg hw, id]

theorem lowersText_compared {toLower : String → String} (h : LowersText toLower)
    (pathText rootText : String) : LowersText (comparedText toLower pathText rootText) := by
  unfold comparedText
  split
  · exact h
  · exact lowersText_id

/-- A worker root as it is normalised beside a worker path made from it. -/
def normalRoot (root : PosixPath) (rest : List String) : String :=
  normaliseWorkerPathText (windowsStyle (root.joinpath rest).asPosix root.asPosix) root.asPosix

/-- What a worker path has below its worker root is found again: the root is not the directory `.` of the
system or of a drive, no name below it has a backslash, and lower case does not move the place where the
root ends. -/
structure Returns (toLower : String → String) (root : PosixPath) (rest : List String) : Prop where
  named : normalRoot root rest ≠ "."
  drive : windowsStyle (root.joinpath rest).asPosix root.asPosix = true → ¬ DriveAlone root.asPosix
  names : ∀ s ∈ rest, '\\' ∉ s.toList
  length : (comparedText toLower (root.joinpath rest).asPosix root.asPosix
      (normalRoot root rest)).length = (normalRoot root rest).length ∨
    (comparedText toLower (root.joinpath rest).asPosix root.asPosix
      (normalRoot root rest)).length = (normalRoot root rest).length + 1

theorem workerPathSuffix_self (toLower : String → String) (root : PosixPath) :
    workerPathSuffix root.asPosix root.asPosix toLower = some [] := by
  rw [workerPathSuffix_eq, comparedSuffix, if_pos rfl]

/-- The suffix of a worker path made from a worker root. -/
theorem workerPathSuffix_joinpath {toLower : String → String} (hlower : LowersText toLower)
    {root : PosixPath} {rest : List String} (h : ∀ s ∈ rest, ValidPart s) (hdots : ".." ∉ rest)
    (hne : rest ≠ []) (hr : Returns toLower root rest) :
    workerPathSuffix (root.joinpath rest).asPosix root.asPosix toLower = some rest := by
  have hdot : root.asPosix ≠ "." := by
    intro h0
    refine hr.named ?_
    rw [normalRoot, h0]
    cases windowsStyle (root.joinpath rest).asPosix "."
    · decide
    · decide
  have hb := below_separated (windowsStyle (root.joinpath rest).asPosix root.asPosix) root h hdots
    hr.names hne hdot hr.drive
  have hf := lowersText_compared hlower (root.joinpath rest).asPosix root.asPosix
  have hroot : normalText (separated (windowsStyle (root.joinpath rest).asPosix root.asPosix)
      root.asPosix) ≠ "" := by
    intro h0
    exact hr.named (by rw [normalRoot, normaliseWorkerPathText_eq, if_pos h0])
  have htext : normalText (separated (windowsStyle (root.joinpath rest).asPosix root.asPosix)
      (root.joinpath rest).asPosix) ≠ "" := by
    rw [normalText, hb.components]
    intro h0
    have hlast := (String.append_eq_empty_iff.mp h0).2
    have hparts : componentsOf (separated (windowsStyle (root.joinpath rest).asPosix root.asPosix)
        root.asPosix) ++ rest ≠ [] := by simp [hne]
    refine joined_ne_empty (fun s hs => ?_) hparts hlast
    rcases List.mem_append.mp hs with hs | hs
    · exact validPart_componentsOf hs
    · exact h s hs
  have hlength := hr.length
  rw [normalRoot, normaliseWorkerPathText_of_ne hroot] at hlength
  rw [workerPathSuffix_eq, normaliseWorkerPathText_of_ne hroot, normaliseWorkerPathText_of_ne htext]
  by_cases hcomps : componentsOf (separated (windowsStyle (root.joinpath rest).asPosix root.asPosix)
      root.asPosix) = []
  · refine comparedSuffix_of_slashes hf hb h hne hcomps fun hstart => hroot ?_
    rw [normalText, hcomps, joined_nil, hstart, String.append_empty]
  · exact comparedSuffix_of_components hf hb h hne hcomps hlength

/-! ## There and back -/

theorem joinpath_parts {p : PosixPath} {rest : List String} (h : ∀ s ∈ rest, ValidPart s) :
    (p.joinpath rest).parts = p.parts ++ rest :=
  congrArg (p.parts ++ ·) (validParts_eq h)

section Back

variable {cwd : PosixPath} {expanduser : PosixPath → PosixPath} {mappings : List PathMapping}
  {path : PosixPath} {earlier : List PathMapping} {m : PathMapping} {rest : List String}
  {toLower : String → String}

theorem Translates.path_eq (h : Translates (lexicalOs cwd expanduser) mappings
    (PosixPath.resolved cwd path) earlier m rest) :
    PosixPath.resolved cwd (m.serverPath.joinpath rest) = PosixPath.resolved cwd path := by
  obtain ⟨m₀, -, hm⟩ := mem_normalisePathMappings h.mem
  have hserver : m.serverPath.root = .slash := by rw [hm]; rfl
  have hparts : (m.serverPath.joinpath rest).parts = (PosixPath.resolved cwd path).parts := by
    rw [joinpath_parts h.validParts, h.parts]
  have heq : m.serverPath.joinpath rest = PosixPath.resolved cwd path :=
    PosixPath.ext_slash hserver rfl hparts
  rw [heq]
  exact resolved_of_noDots rfl (PosixPath.resolved_noDots _ _)

/-- A worker path that no earlier mapping covers comes back through the mapping it was made with. -/
theorem remapWorkerText_of_first (h : Translates (lexicalOs cwd expanduser) mappings
    (PosixPath.resolved cwd path) earlier m rest) {text : String}
    (hearlier : ∀ j ∈ earlier, workerPathSuffix text j.workerPath.asPosix toLower = none)
    (hown : workerPathSuffix text m.workerPath.asPosix toLower = some rest) :
    remapWorkerText (lexicalOs cwd expanduser) text mappings toLower = PosixPath.resolved cwd path := by
  obtain ⟨later, horder⟩ := h.order
  have hnone : earlier.findSome? (fun m => (workerPathSuffix text m.workerPath.asPosix toLower).map
      fun suffix => (lexicalOs cwd expanduser).resolve (m.serverPath.joinpath suffix)) = none := by
    refine List.findSome?_eq_none_iff.mpr fun j hj => ?_
    rw [hearlier j hj, Option.map_none]
  rw [remapWorkerText, horder, List.findSome?_append, hnone, Option.none_or, List.findSome?_cons, hown,
    Option.map_some, Option.getD_some]
  exact h.path_eq

/-- The mappings before the one that translates a path have server roots at least as long. -/
theorem Translates.length_le (h : Translates (lexicalOs cwd expanduser) mappings path earlier m rest)
    {j : PathMapping} (hj : j ∈ earlier) :
    m.serverPath.asPosix.length ≤ j.serverPath.asPosix.length := by
  obtain ⟨later, horder⟩ := h.order
  have hsorted := List.pairwise_insertionSort (fun a b : PathMapping =>
    b.serverPath.asPosix.length ≤ a.serverPath.asPosix.length) (mappings.map fun m => {
      serverPath := PosixPath.resolved cwd (expanduser m.serverPath)
      workerPath := expanduser m.workerPath : PathMapping })
  have hall : (earlier ++ m :: later).Pairwise fun a b : PathMapping =>
      b.serverPath.asPosix.length ≤ a.serverPath.asPosix.length := horder ▸ hsorted
  exact (List.pairwise_append.mp hall).2.2 j hj m List.mem_cons_self

/-- A mapping before the one that translates a path does not lead back to the path. -/
theorem Translates.resolved_ne (h : Translates (lexicalOs cwd expanduser) mappings
    (PosixPath.resolved cwd path) earlier m rest) {j : PathMapping} {suffix : List String}
    (hj : j ∈ earlier) (hdots : ".." ∉ suffix) :
    PosixPath.resolved cwd (j.serverPath.joinpath suffix) ≠ PosixPath.resolved cwd path := by
  have hroots : ∀ i ∈ normalisePathMappings (lexicalOs cwd expanduser) mappings,
      i.serverPath.root = .slash ∧ ".." ∉ i.serverPath.parts := by
    intro i hi
    obtain ⟨i₀, -, rfl⟩ := mem_normalisePathMappings hi
    exact ⟨rfl, PosixPath.resolved_noDots _ _⟩
  obtain ⟨later, horder⟩ := h.order
  obtain ⟨hserver, hnoDots⟩ := hroots j (by rw [horder]; exact List.mem_append_left _ hj)
  have hm := (hroots m h.mem).1
  have hjoin : ".." ∉ (j.serverPath.joinpath suffix).parts := by
    intro hmem
    rcases List.mem_append.mp hmem with hmem | hmem
    · exact hnoDots hmem
    · exact hdots (List.mem_filter.mp hmem).1
  rw [resolved_of_noDots (p := j.serverPath.joinpath suffix) hserver hjoin]
  intro heq
  have hparts : (PosixPath.resolved cwd path).parts =
      j.serverPath.parts ++ PosixPath.validParts suffix := by
    rw [← heq]
    rfl
  have hunder : isUnder (PosixPath.resolved cwd path) j.serverPath = true := by
    refine (isUnder_iff rfl hserver).mpr ?_
    by_cases hsuffix : PosixPath.validParts suffix = []
    · rw [hsuffix, List.append_nil] at hparts
      exact .inl (PosixPath.ext_slash rfl hserver hparts)
    · by_cases hempty : j.serverPath.parts = []
      · -- The root directory is last in the order, and a path is under it only when it is the root itself.
        have hlength := h.length_le hj
        rw [PosixPath.asPosix_of_slash hserver, PosixPath.asPosix_of_slash hm, hempty, joined_nil,
          String.length_append, String.length_append, String.length_empty] at hlength
        have hmempty : m.serverPath.parts = [] := by
          by_contra hne
          refine joined_ne_empty m.serverPath.parts_ok hne ?_
          rw [← String.length_eq_zero_iff]
          omega
        rcases (isUnder_iff rfl hm).mp h.under with hpath | ⟨hne, -⟩
        · refine .inl (hpath.trans (PosixPath.ext_slash hm hserver ?_))
          rw [hmempty, hempty]
        · exact absurd hmempty hne
      · exact .inr ⟨hempty, _, hsuffix, hparts⟩
  rw [h.first j hj] at hunder
  cases hunder

/-- A path of the server is translated for a worker by the longest server root that it lies under. Its
worker path comes back as the path when no mapping with a longer server root covers the worker path. When
such a mapping covers it, it comes back as another path, except where the names below the worker root go
up again. -/
theorem remapWorkerText_remapServerPath (hexpand : ExpandsUser expanduser) (hlower : LowersText toLower)
    (h : Translates (lexicalOs cwd expanduser) mappings (PosixPath.resolved cwd (expanduser path)) earlier
      m rest) :
    let os := lexicalOs cwd expanduser
    let source := os.resolve (os.expanduser path)
    let workerPath := (m.workerPath.joinpath rest).asPosix
    remapServerPath os path mappings = some (m.workerPath.joinpath rest) ∧
    ((∀ j ∈ earlier, workerPathSuffix workerPath j.workerPath.asPosix toLower = none) →
      (rest = [] ∨ Returns toLower m.workerPath rest) →
      remapWorkerText os workerPath mappings toLower = source) ∧
    (remapWorkerText os workerPath mappings toLower = source →
      ∀ before j after suffix, earlier = before ++ j :: after →
        (∀ i ∈ before, workerPathSuffix workerPath i.workerPath.asPosix toLower = none) →
        workerPathSuffix workerPath j.workerPath.asPosix toLower = some suffix → ".." ∈ suffix) := by
  refine ⟨remapServerPath_eq hexpand h, fun hearlier hrest => ?_, ?_⟩
  · refine remapWorkerText_of_first h hearlier ?_
    by_cases hnil : rest = []
    · rw [hnil, joinpath_nil]
      exact workerPathSuffix_self _ _
    · have hdots : ".." ∉ rest := fun hmem => PosixPath.resolved_noDots cwd (expanduser path)
        (h.parts ▸ List.mem_append_right _ hmem)
      exact workerPathSuffix_joinpath hlower h.validParts hdots hnil (hrest.resolve_left hnil)
  · intro hback before j after suffix hsplit hbefore hsuffix
    by_contra hdots
    obtain ⟨later, horder⟩ := h.order
    have hnone : before.findSome? (fun i => (workerPathSuffix (m.workerPath.joinpath rest).asPosix
        i.workerPath.asPosix toLower).map fun suffix =>
          (lexicalOs cwd expanduser).resolve (i.serverPath.joinpath suffix)) = none := by
      refine List.findSome?_eq_none_iff.mpr fun i hi => ?_
      rw [hbefore i hi, Option.map_none]
    rw [remapWorkerText, horder, hsplit, List.append_assoc, List.cons_append, List.findSome?_append, hnone,
      Option.none_or, List.findSome?_cons, hsuffix, Option.map_some, Option.getD_some] at hback
    exact h.resolved_ne (by rw [hsplit]; simp) hdots hback

end Back

/-- `/srv/media` is mapped to `/mnt/media`. -/
theorem remapWorkerText_remapServerPath_mapped :
    let os := lexicalOs (PosixPath.parse "/") id
    let mappings : List PathMapping := [⟨PosixPath.parse "/srv/media", PosixPath.parse "/mnt/media"⟩]
    let source := PosixPath.parse "/srv/media/Films/Film.mkv"
    remapServerPath os source mappings = some (PosixPath.parse "/mnt/media/Films/Film.mkv") ∧
      remapWorkerText os "/mnt/media/Films/Film.mkv" mappings = source := by
  have h : Translates (lexicalOs (PosixPath.parse "/") id)
      [⟨PosixPath.parse "/srv/media", PosixPath.parse "/mnt/media"⟩]
      (PosixPath.resolved (PosixPath.parse "/") (id (PosixPath.parse "/srv/media/Films/Film.mkv"))) []
      ⟨PosixPath.parse "/srv/media", PosixPath.parse "/mnt/media"⟩ ["Films", "Film.mkv"] :=
    ⟨⟨[], by decide +kernel⟩, by simp, by decide +kernel, by decide +kernel⟩
  obtain ⟨hforward, hback, -⟩ := remapWorkerText_remapServerPath expandsUser_id lowersText_lower h
  have hreturns : Returns lower (PosixPath.parse "/mnt/media") ["Films", "Film.mkv"] :=
    ⟨by decide +kernel, fun hw => absurd hw (by decide +kernel), by decide +kernel, by decide +kernel⟩
  refine ⟨hforward.trans (by decide +kernel), ?_⟩
  have hreturn := hback (by simp) (.inr hreturns)
  have htext : ((PosixPath.parse "/mnt/media").joinpath ["Films", "Film.mkv"]).asPosix =
      "/mnt/media/Films/Film.mkv" := by decide +kernel
  have hsource : (lexicalOs (PosixPath.parse "/") id).resolve ((lexicalOs (PosixPath.parse "/") id).expanduser
      (PosixPath.parse "/srv/media/Films/Film.mkv")) = PosixPath.parse "/srv/media/Films/Film.mkv" := by
    decide +kernel
  rw [htext, hsource] at hreturn
  exact hreturn

/-- The mappings of a worker that has one library below another: `/m` is mapped into the worker's place of
`/a/b`, at a directory of `/a/b` that is mapped elsewhere. -/
def nestedMappings : List PathMapping :=
  [⟨PosixPath.parse "/a/b/q", PosixPath.parse "/z"⟩, ⟨PosixPath.parse "/a/b", PosixPath.parse "/w"⟩,
    ⟨PosixPath.parse "/m", PosixPath.parse "/w/q"⟩]

theorem nestedMappings_translates {path w : PosixPath}
    (h : remapServerPath (lexicalOs (PosixPath.parse "/") id) path nestedMappings = some w) :
    let source := PosixPath.resolved (PosixPath.parse "/") path
    (∃ rest, source.parts = ["a", "b", "q"] ++ rest ∧ w.parts = ["z"] ++ rest) ∨
    (∃ rest, source.parts = ["a", "b"] ++ rest ∧ w.parts = ["w"] ++ rest ∧ rest.head? ≠ some "q") ∨
    ∃ rest, source.parts = ["m"] ++ rest ∧ w.parts = ["w", "q"] ++ rest := by
  obtain ⟨m, earlier, rest, ht, rfl⟩ : ∃ m earlier rest, Translates (lexicalOs (PosixPath.parse "/") id)
      nestedMappings (PosixPath.resolved (PosixPath.parse "/") path) earlier m rest ∧
        w = m.workerPath.joinpath rest := by
    cases hm : mappingForServerPath (lexicalOs (PosixPath.parse "/") id)
        (PosixPath.resolved (PosixPath.parse "/") path) nestedMappings with
    | none =>
      have hnone : remapServerPath (lexicalOs (PosixPath.parse "/") id) path nestedMappings = none := by
        show (mappingForServerPath _ (PosixPath.resolved _ path) _).bind _ = none
        rw [hm, Option.bind_none]
      rw [hnone] at h
      cases h
    | some m =>
      obtain ⟨earlier, rest, ht⟩ := exists_translates hm
      have hresolved : PosixPath.resolved (PosixPath.parse "/")
          (id (PosixPath.resolved (PosixPath.parse "/") path)) =
            PosixPath.resolved (PosixPath.parse "/") path :=
        resolved_of_noDots rfl (PosixPath.resolved_noDots _ _)
      rw [hresolved] at ht
      have heq := remapServerPath_eq expandsUser_id ht
      exact ⟨m, earlier, rest, ht, Option.some.inj (h.symm.trans heq)⟩
  intro source
  have hw := joinpath_parts (p := m.workerPath) ht.validParts
  obtain ⟨later, horder⟩ := ht.order
  have hnormal : normalisePathMappings (lexicalOs (PosixPath.parse "/") id) nestedMappings =
      nestedMappings := by decide +kernel
  rw [hnormal, nestedMappings] at horder
  match earlier, horder with
  | [], horder =>
    obtain ⟨rfl, -⟩ := List.cons.inj horder
    exact .inl ⟨rest, ht.parts, hw⟩
  | [x], horder =>
    obtain ⟨rfl, htail⟩ := List.cons.inj horder
    obtain ⟨rfl, -⟩ := List.cons.inj htail
    refine .inr (.inl ⟨rest, ht.parts, hw, fun hhead => ?_⟩)
    obtain ⟨r, rfl⟩ : ∃ r, rest = "q" :: r := by
      cases rest with
      | nil => cases hhead
      | cons s r => exact ⟨r, by rw [Option.some.inj hhead]⟩
    have hfirst := ht.first _ (List.mem_singleton_self _)
    have hunder : isUnder source (PosixPath.parse "/a/b/q") = true := by
      refine (isUnder_iff rfl rfl).mpr ?_
      by_cases hr : r = []
      · refine .inl (PosixPath.ext_slash rfl rfl (ht.parts.trans ?_))
        rw [hr]
        decide
      · exact .inr ⟨by decide, r, hr, ht.parts⟩
    rw [hunder] at hfirst
    cases hfirst
  | [x, y], horder =>
    obtain ⟨-, htail⟩ := List.cons.inj horder
    obtain ⟨-, htail⟩ := List.cons.inj htail
    obtain ⟨rfl, -⟩ := List.cons.inj htail
    exact .inr (.inr ⟨rest, ht.parts, hw⟩)
  | x :: y :: z :: tail, horder =>
    have hlength := congrArg List.length horder
    simp at hlength

/-- No two paths of the server have one worker path. -/
theorem nestedMappings_injective {path path' w : PosixPath}
    (h : remapServerPath (lexicalOs (PosixPath.parse "/") id) path nestedMappings = some w)
    (h' : remapServerPath (lexicalOs (PosixPath.parse "/") id) path' nestedMappings = some w) :
    PosixPath.resolved (PosixPath.parse "/") path = PosixPath.resolved (PosixPath.parse "/") path' := by
  refine PosixPath.ext_slash rfl rfl ?_
  rcases nestedMappings_translates h with ⟨rest, hs, hw⟩ | ⟨rest, hs, hw, hq⟩ | ⟨rest, hs, hw⟩ <;>
    rcases nestedMappings_translates h' with ⟨rest', hs', hw'⟩ | ⟨rest', hs', hw', hq'⟩ | ⟨rest', hs', hw'⟩ <;>
      rw [hw] at hw' <;> grind

/-- The worker path of a file of `/m` comes back as a path below `/a/b`. -/
theorem nestedMappings_not_back :
    let os := lexicalOs (PosixPath.parse "/") id
    (∀ path path' w, remapServerPath os path nestedMappings = some w →
      remapServerPath os path' nestedMappings = some w → os.resolve path = os.resolve path') ∧
    remapServerPath os (PosixPath.parse "/m/f") nestedMappings = some (PosixPath.parse "/w/q/f") ∧
    remapWorkerText os "/w/q/f" nestedMappings = PosixPath.parse "/a/b/q/f" ∧
    PosixPath.parse "/a/b/q/f" ≠ os.resolve (PosixPath.parse "/m/f") :=
  ⟨fun _ _ _ => nestedMappings_injective, by decide +kernel, by decide +kernel, by decide +kernel⟩

end Encodr
