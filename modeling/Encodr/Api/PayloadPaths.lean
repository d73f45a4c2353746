import Encodr.Api.PathMappings
import Encodr.Python.Json

/-!
# The paths in a worker's payload

A worker reports objects and lists, nested as it likes. A string is a path where the nearest key above it
is a path key, whatever lists are between them. The paths are mapped to paths of the server and then
checked against the roots.

* `Json.remapWorkerPayloadPaths`, `Json.validatePayloadPaths`: the two walks over a payload.
* `remapIn_leaves`, `validateIn_ok`: what they do to the ends of a payload.
* `validatePayloadPaths_complete`: every path of an accepted payload lies under a root.
* `normaliseReplacement_details`: the details of a replacement are such a payload.
-/

namespace Encodr

open Python Lib

variable {ν : Type}

namespace Json

/-! ## The walks -/

section Walks

variable (os : PathOs) (mappings : List PathMapping) (roots : List PosixPath)

mutual

/-- A value whose nearest key is a path key, or is not. -/
def remapIn : Bool → Json ν → Json ν
  | true, .str s => .str (remapWorkerText os s mappings).asPosix
  | inPath, .list items => .list (remapItems inPath items)
  | _, .object entries => .object (remapEntries entries)
  | _, value => value

/-- The items of a list, which has the key of the list. -/
def remapItems (inPath : Bool) : List (Json ν) → List (Json ν)
  | [] => []
  | item :: items => remapIn inPath item :: remapItems inPath items

/-- The values of an object, each with its own key. -/
def remapEntries : List (String × Json ν) → List (String × Json ν)
  | [] => []
  | (key, value) :: entries => (key, remapIn (isPathKey key) value) :: remapEntries entries

end

/-- `remap_worker_payload_paths`. -/
def remapWorkerPayloadPaths (payload : Json ν) : Json ν :=
  remapIn os mappings false payload

/-- `_remap_payload_path_value`. -/
def remapPayloadPathValue (value : Json ν) : Json ν :=
  remapIn os mappings true value

mutual

/-- A value whose nearest key is a path key, or is not. -/
def validateIn : Bool → String → Json ν → Except ApiError (Json ν)
  | true, label, .str s => do
    let path ← validatePathUnderRoots os (some (PosixPath.parse s)) roots label
    return match path with
      | some path => .str path.asPosix
      | none => .null
  | inPath, label, .list items => return .list (← validateItems inPath label 0 items)
  | _, label, .object entries => return .object (← validateEntries label entries)
  | _, _, value => return value

/-- The items of a list from an index on. -/
def validateItems (inPath : Bool) (label : String) (index : Nat) :
    List (Json ν) → Except ApiError (List (Json ν))
  | [] => return []
  | item :: items => do
    let item ← validateIn inPath (label ++ "[" ++ toString index ++ "]") item
    let items ← validateItems inPath label (index + 1) items
    return item :: items

/-- The values of an object, each with its own key. -/
def validateEntries (label : String) :
    List (String × Json ν) → Except ApiError (List (String × Json ν))
  | [] => return []
  | (key, value) :: entries => do
    let value ← validateIn (isPathKey key) (label ++ "." ++ key) value
    let entries ← validateEntries label entries
    return (key, value) :: entries

end

/-- `_validate_payload_paths`. -/
def validatePayloadPaths (payload : Json ν) (label : String) : Except ApiError (Json ν) :=
  validateIn os roots false label payload

/-- `_validate_payload_path_value`. -/
def validatePayloadPathValue (value : Json ν) (label : String) : Except ApiError (Json ν) :=
  validateIn os roots true label value

end Walks

/-! ## Checked payloads -/

/-- The nearest key is a path key. -/
def inPath (key : Option String) : Bool :=
  key.any isPathKey

/-- The text is that of a resolved path under one of the roots. -/
def Authorized (os : PathOs) (roots : List PosixPath) (text : String) : Prop :=
  ∃ path, text = (os.resolve path).asPosix ∧
    ∃ root ∈ roots, isRelativeTo (os.resolve path) (os.resolve (os.expanduser root)) = true

/-- What a check leaves of an end of a payload: under a path key, a string has become a path under the
roots; all else is as it was. -/
def LeafChecked (os : PathOs) (roots : List PosixPath) (before after : Option String × Json ν) : Prop :=
  after.1 = before.1 ∧
    ((inPath before.1 = true ∧ ∃ s, before.2 = .str s) →
      ∃ t, after.2 = .str t ∧ Authorized os roots t) ∧
    (¬ (inPath before.1 = true ∧ ∃ s, before.2 = .str s) → after.2 = before.2)

section Checked

variable {os : PathOs} {mappings : List PathMapping} {roots : List PosixPath} {label : String}

/-- The end of a payload after the mapping of its paths. -/
def remapLeaf (os : PathOs) (mappings : List PathMapping) (leaf : Option String × Json ν) :
    Option String × Json ν :=
  (leaf.1, remapIn os mappings (inPath leaf.1) leaf.2)

theorem remapIn_list (inPath : Bool) (items : List (Json ν)) :
    remapIn os mappings inPath (.list items) = .list (remapItems os mappings inPath items) := by
  cases inPath with
  | true => rw [remapIn]
  | false => rw [remapIn]

theorem remapIn_object (inPath : Bool) (entries : List (String × Json ν)) :
    remapIn os mappings inPath (.object entries) = .object (remapEntries os mappings entries) := by
  cases inPath with
  | true => rw [remapIn]
  | false => rw [remapIn]

variable (os mappings) in
theorem remapIn_isLeaf {v : Json ν} (h : v.isLeaf = true) (inPath : Bool) :
    (remapIn os mappings inPath v).isLeaf = true := by
  cases v with
  | list items => cases h
  | object entries => cases h
  | str s => cases inPath <;> rfl
  | _ => cases inPath <;> rfl

/-- The mapping changes the ends of a payload and nothing else. -/
theorem remapIn_leaves (payload : Json ν) (key : Option String) :
    (remapIn os mappings (inPath key) payload).leaves key =
        (payload.leaves key).map (remapLeaf os mappings) ∧
      (remapIn os mappings (inPath key) payload).shape = payload.shape := by
  induction payload using Json.inductionOn generalizing key with
  | leaf v hv =>
    have hv' := remapIn_isLeaf os mappings hv (inPath key)
    rw [Json.leaves_of_isLeaf hv', Json.leaves_of_isLeaf hv, Json.shape_of_isLeaf hv',
      Json.shape_of_isLeaf hv]
    exact ⟨rfl, rfl⟩
  | list items ih =>
    have hitems : Json.leavesOfItems key (remapItems os mappings (inPath key) items) =
        (Json.leavesOfItems key items).map (remapLeaf os mappings) ∧
      Json.shapeOfItems (remapItems os mappings (inPath key) items) = Json.shapeOfItems items := by
      induction items with
      | nil => exact ⟨rfl, rfl⟩
      | cons item items ih' =>
        obtain ⟨hitem, hrest⟩ := List.forall_mem_cons.mp ih
        obtain ⟨hleaves, hshape⟩ := ih' hrest
        simp only [remapItems, Json.leavesOfItems, Json.shapeOfItems, (hitem key).1, (hitem key).2, hleaves,
          hshape, List.map_append, and_self]
    rw [remapIn_list, Json.leaves, Json.leaves, Json.shape, Json.shape, hitems.1, hitems.2]
    exact ⟨rfl, rfl⟩
  | object entries ih =>
    have hentries : Json.leavesOfEntries (remapEntries os mappings entries) =
        (Json.leavesOfEntries entries).map (remapLeaf os mappings) ∧
      Json.shapeOfEntries (remapEntries os mappings entries) = Json.shapeOfEntries entries := by
      induction entries with
      | nil => exact ⟨rfl, rfl⟩
      | cons entry entries ih' =>
        obtain ⟨name, value⟩ := entry
        obtain ⟨hvalue, hrest⟩ := List.forall_mem_cons.mp ih
        obtain ⟨hleaves, hshape⟩ := ih' hrest
        obtain ⟨hleaf, hvalueShape⟩ := hvalue (some name)
        have hkey : inPath (some name) = isPathKey name := Option.any_some
        rw [hkey] at hleaf hvalueShape
        simp only [remapEntries, Json.leavesOfEntries, Json.shapeOfEntries, hleaf, hvalueShape, hleaves,
          hshape, List.map_append, and_self]
    rw [remapIn_object, Json.leaves, Json.leaves, Json.shape, Json.shape, hentries.1, hentries.2]
    exact ⟨rfl, rfl⟩

theorem validateIn_list (inPath : Bool) (items : List (Json ν)) :
    validateIn os roots inPath label (.list items) = (do
      let items ← validateItems os roots inPath label 0 items
      return .list items) := by
  cases inPath with
  | true => rw [validateIn]
  | false => rw [validateIn]

theorem validateIn_object (inPath : Bool) (entries : List (String × Json ν)) :
    validateIn os roots inPath label (.object entries) = (do
      let entries ← validateEntries os roots label entries
      return .object entries) := by
  cases inPath with
  | true => rw [validateIn]
  | false => rw [validateIn]

/-- A path that is accepted is the text of a resolved path under one of the roots. -/
theorem validateIn_str {s : String} {result : Json ν}
    (h : validateIn os roots true label (.str s) = .ok result) :
    ∃ t, result = .str t ∧ Authorized os roots t := by
  rw [validateIn, bind_ok] at h
  obtain ⟨path, hpath, hresult⟩ := h
  have hsome := validatePathUnderRoots_isSome hpath
  cases path with
  | none => cases hsome
  | some q =>
    obtain ⟨rfl, hroot⟩ := validatePathUnderRoots_ok hpath
    exact ⟨_, (Except.ok.inj hresult).symm, _, rfl, hroot⟩

/-- A leaf that is no path is accepted as it is. -/
theorem validateIn_leaf {v result : Json ν} {inPath : Bool} (hleaf : v.isLeaf = true)
    (hpath : ¬ (inPath = true ∧ ∃ s, v = .str s))
    (h : validateIn os roots inPath label v = .ok result) : result = v := by
  cases v with
  | list items => cases hleaf
  | object entries => cases hleaf
  | str s =>
    cases inPath with
    | true => exact absurd ⟨rfl, s, rfl⟩ hpath
    | false => exact (Except.ok.inj h).symm
  | _ =>
    cases inPath with
    | true => exact (Except.ok.inj h).symm
    | false => exact (Except.ok.inj h).symm

/-- What the check of a payload leaves of its ends, and of its lists and objects. -/
theorem validateIn_ok (payload : Json ν) {result : Json ν} {key : Option String}
    (h : validateIn os roots (inPath key) label payload = .ok result) :
    List.Forall₂ (LeafChecked os roots) (payload.leaves key) (result.leaves key) ∧
      result.shape = payload.shape := by
  induction payload using Json.inductionOn generalizing key label result with
  | leaf v hv =>
    by_cases hpath : inPath key = true ∧ ∃ s, v = .str s
    · obtain ⟨hin, s, rfl⟩ := hpath
      rw [hin] at h
      obtain ⟨t, rfl, hauthorized⟩ := validateIn_str h
      exact ⟨.cons ⟨rfl, fun _ => ⟨t, rfl, hauthorized⟩, fun hnot => absurd ⟨hin, s, rfl⟩ hnot⟩ .nil, rfl⟩
    · have hresult := validateIn_leaf hv hpath h
      subst hresult
      rw [Json.leaves_of_isLeaf hv]
      exact ⟨.cons ⟨rfl, fun hyes => absurd hyes hpath, fun _ => rfl⟩ .nil, rfl⟩
  | list items ih =>
    rw [validateIn_list, bind_ok] at h
    obtain ⟨results, hresults, hresult⟩ := h
    obtain rfl := Except.ok.inj hresult
    have hitems : ∀ index results, validateItems os roots (inPath key) label index items = .ok results →
        List.Forall₂ (LeafChecked os roots) (Json.leavesOfItems key items)
          (Json.leavesOfItems key results) ∧
        Json.shapeOfItems results = Json.shapeOfItems items := by
      clear hresults
      induction items with
      | nil =>
        intro index results h
        obtain rfl := Except.ok.inj h
        exact ⟨.nil, rfl⟩
      | cons item items ih' =>
        intro index results h
        simp only [validateItems, bind_ok, return_ok] at h
        obtain ⟨first, hfirst, rest, hrest, rfl⟩ := h
        obtain ⟨hitem, htail⟩ := List.forall_mem_cons.mp ih
        obtain ⟨hleaves, hshape⟩ := hitem hfirst
        obtain ⟨hleaves', hshape'⟩ := ih' htail _ _ hrest
        rw [Json.leavesOfItems, Json.leavesOfItems, Json.shapeOfItems, Json.shapeOfItems, hshape, hshape']
        exact ⟨List.rel_append hleaves hleaves', rfl⟩
    obtain ⟨hleaves, hshape⟩ := hitems 0 results hresults
    rw [Json.leaves, Json.leaves, Json.shape, Json.shape, hshape]
    exact ⟨hleaves, rfl⟩
  | object entries ih =>
    rw [validateIn_object, bind_ok] at h
    obtain ⟨results, hresults, hresult⟩ := h
    obtain rfl := Except.ok.inj hresult
    have hentries : ∀ results, validateEntries os roots label entries = .ok results →
        List.Forall₂ (LeafChecked os roots) (Json.leavesOfEntries entries)
          (Json.leavesOfEntries results) ∧
        Json.shapeOfEntries results = Json.shapeOfEntries entries := by
      clear hresults
      induction entries with
      | nil =>
        intro results h
        obtain rfl := Except.ok.inj h
        exact ⟨.nil, rfl⟩
      | cons entry entries ih' =>
        intro results h
        obtain ⟨name, value⟩ := entry
        simp only [validateEntries, bind_ok, return_ok] at h
        obtain ⟨first, hfirst, rest, hrest, rfl⟩ := h
        obtain ⟨hvalue, htail⟩ := List.forall_mem_cons.mp ih
        have hkey : inPath (some name) = isPathKey name := Option.any_some
        rw [← hkey] at hfirst
        obtain ⟨hleaves, hshape⟩ := hvalue hfirst
        obtain ⟨hleaves', hshape'⟩ := ih' htail _ hrest
        rw [Json.leavesOfEntries, Json.leavesOfEntries, Json.shapeOfEntries, Json.shapeOfEntries]
        refine ⟨List.rel_append hleaves hleaves', ?_⟩
        simp only [hshape, hshape']
    obtain ⟨hleaves, hshape⟩ := hentries results hresults
    rw [Json.leaves, Json.leaves, Json.shape, Json.shape, hshape]
    exact ⟨hleaves, rfl⟩

/-- The check of a mapped end is a check of the end. -/
theorem LeafChecked.of_remapLeaf {before after : Option String × Json ν}
    (h : LeafChecked os roots (remapLeaf os mappings before) after) (hleaf : before.2.isLeaf = true) :
    LeafChecked os roots before after := by
  obtain ⟨key, v⟩ := before
  obtain ⟨hkey, hpath, hother⟩ := h
  refine ⟨hkey, ?_, fun hnot => ?_⟩
  · rintro ⟨hin, s, hs⟩
    have hin' : inPath key = true := hin
    have hs' : v = .str s := hs
    refine hpath ⟨hin, (remapWorkerText os s mappings).asPosix, ?_⟩
    show remapIn os mappings (inPath key) v = _
    rw [hin', hs', remapIn]
  · have hsame : remapIn os mappings (inPath key) v = v := by
      cases v with
      | list items => cases hleaf
      | object entries => cases hleaf
      | str s =>
        cases hin : inPath key with
        | true => exact absurd ⟨hin, s, rfl⟩ hnot
        | false => rfl
      | _ => cases inPath key <;> rfl
    have hafter := hother (by
      show ¬ (inPath key = true ∧ ∃ s, remapIn os mappings (inPath key) v = .str s)
      rwa [hsame])
    rw [hafter]
    exact hsame

theorem isLeaf_of_mem_leaves (payload : Json ν) {key : Option String} {leaf : Option String × Json ν}
    (h : leaf ∈ payload.leaves key) : leaf.2.isLeaf = true := by
  induction payload using Json.inductionOn generalizing key with
  | leaf v hv =>
    rw [Json.leaves_of_isLeaf hv] at h
    rw [List.mem_singleton.mp h]
    exact hv
  | list items ih =>
    rw [Json.leaves] at h
    induction items with
    | nil => cases h
    | cons item items ih' =>
      obtain ⟨hitem, htail⟩ := List.forall_mem_cons.mp ih
      rw [Json.leavesOfItems] at h
      rcases List.mem_append.mp h with h | h
      · exact hitem h
      · exact ih' htail h
  | object entries ih =>
    rw [Json.leaves] at h
    induction entries with
    | nil => cases h
    | cons entry entries ih' =>
      obtain ⟨name, value⟩ := entry
      obtain ⟨hvalue, htail⟩ := List.forall_mem_cons.mp ih
      rw [Json.leavesOfEntries] at h
      rcases List.mem_append.mp h with h | h
      · exact hvalue h
      · exact ih' htail h

/-- A payload that is accepted after the mapping of its paths has the shape it came with. Every string
whose nearest key is a path key has become a resolved path under one of the roots, and all else is as it
was reported. -/
theorem validatePayloadPaths_complete {payload result : Json ν}
    (h : validatePayloadPaths os roots (remapWorkerPayloadPaths os mappings payload) label = .ok result) :
    result.shape = payload.shape ∧
      List.Forall₂ (LeafChecked os roots) (payload.leaves none) (result.leaves none) := by
  have hremap := @remapIn_leaves ν os mappings payload none
  obtain ⟨hleaves, hshape⟩ := @validateIn_ok ν os roots label (remapIn os mappings false payload) result
    none h
  have hmapped : (remapIn os mappings false payload).leaves none =
      (payload.leaves none).map (remapLeaf os mappings) := hremap.1
  rw [hmapped, List.forall₂_map_left_iff] at hleaves
  refine ⟨hshape.trans hremap.2, ?_⟩
  have hall := (List.forall₂_and_left _ _).mpr ⟨fun leaf hleaf => isLeaf_of_mem_leaves payload hleaf, hleaves⟩
  exact hall.imp fun before after hleaf => hleaf.2.of_remapLeaf hleaf.1

end Checked

/-- A path two lists and an object below the payload is mapped and accepted; the number beside it stays. -/
theorem validatePayloadPaths_complete_nested :
    let os := lexicalOs (PosixPath.parse "/") id
    let payload : Json Int := .object [("moves", .list [.list [.object
      [("Output_Path", .list [.str "D:\\media\\film.mkv", .null]), ("size", .number 7)]]])]
    let result : Json Int := .object [("moves", .list [.list [.object
      [("Output_Path", .list [.str "/srv/media/film.mkv", .null]), ("size", .number 7)]]])]
    result.shape = payload.shape ∧
      List.Forall₂ (LeafChecked os [PosixPath.parse "/srv/media"]) (payload.leaves none)
        (result.leaves none) := by
  intro os payload result
  have hmoves : isPathKey "moves" = false := by decide +kernel
  have houtput : isPathKey "Output_Path" = true := by decide +kernel
  have hsize : isPathKey "size" = false := by decide +kernel
  have hremap : remapWorkerText os "D:\\media\\film.mkv"
      [⟨PosixPath.parse "/srv/media", PosixPath.parse "D:\\media"⟩] =
        PosixPath.parse "/srv/media/film.mkv" := by decide +kernel
  have hvalid : ∀ label, validatePathUnderRoots os
      (some (PosixPath.parse "/srv/media/film.mkv"))
      [PosixPath.parse "/srv/media"] label = .ok (some (PosixPath.parse "/srv/media/film.mkv")) := by
    intro label
    rw [validatePathUnderRoots, if_neg (by decide +kernel), if_neg (by decide), if_pos (by decide +kernel)]
    congr 2
  have htext : (PosixPath.parse "/srv/media/film.mkv").asPosix = "/srv/media/film.mkv" := by
    decide +kernel
  have hok : validatePayloadPaths os [PosixPath.parse "/srv/media"] (remapWorkerPayloadPaths os
      [⟨PosixPath.parse "/srv/media", PosixPath.parse "D:\\media"⟩] payload) "result" = .ok result := by
    simp only [payload, result, remapWorkerPayloadPaths, validatePayloadPaths, remapIn, remapItems,
      remapEntries, validateIn, validateItems, validateEntries, hmoves, houtput, hsize, hremap, htext,
      hvalid]
    rfl
  exact validatePayloadPaths_complete hok

end Json

/-! ## The details of a replacement -/

/-- A value of a dictionary as a JSON value. -/
def valueJson : Value → Json Int
  | .null => .null
  | .bool b => .bool b
  | .int i => .number i
  | .str s => .str s
  | .ints xs => .list (xs.map .number)

/-- A dictionary as a JSON object. -/
def dictJson (d : Dict) : Json Int :=
  .object (d.map fun entry => (entry.1, valueJson entry.2))

section Details

variable {os : PathOs} {mappings : List PathMapping}

theorem remapItems_numbers (inPath : Bool) (xs : List Int) :
    Json.remapItems os mappings inPath (xs.map .number) = xs.map .number := by
  induction xs with
  | nil => rfl
  | cons x xs ih =>
    rw [List.map_cons, Json.remapItems, ih]
    cases inPath <;> rfl

theorem validateItems_numbers {roots : List PosixPath} {label : String} (inPath : Bool) (index : Nat)
    (xs : List Int) :
    Json.validateItems os roots inPath label index (xs.map .number) = .ok (xs.map .number) := by
  induction xs generalizing index with
  | nil => rfl
  | cons x xs ih =>
    rw [List.map_cons, Json.validateItems, ih]
    cases inPath <;> rfl

/-- The paths in the details of a replacement are mapped as those of a payload. -/
theorem remapWorkerPayloadPaths_dictJson (d : Dict) :
    Json.remapWorkerPayloadPaths os mappings (dictJson d) =
      dictJson (remapWorkerPayloadPaths os d mappings) := by
  have hentries : ∀ entries : List (String × Json Int), Json.remapEntries os mappings entries =
      entries.map fun entry => (entry.1, Json.remapIn os mappings (isPathKey entry.1) entry.2) := by
    intro entries
    induction entries with
    | nil => rfl
    | cons entry entries ih =>
      obtain ⟨key, value⟩ := entry
      rw [Json.remapEntries, ih]
      rfl
  rw [Json.remapWorkerPayloadPaths, dictJson, Json.remapIn_object, hentries, dictJson,
    remapWorkerPayloadPaths, List.map_map, List.map_map]
  refine congrArg Json.object (List.map_congr_left fun entry _ => ?_)
  obtain ⟨key, value⟩ := entry
  cases value with
  | str s =>
    simp only [Function.comp_apply]
    by_cases hkey : isPathKey key = true
    · rw [if_pos hkey, hkey, valueJson, valueJson, Json.remapIn]
    · rw [if_neg hkey, Bool.eq_false_of_not_eq_true hkey, valueJson]
      simp only [Json.remapIn]
  | ints xs =>
    show (key, Json.remapIn os mappings (isPathKey key) (.list (xs.map .number))) =
      (key, .list (xs.map .number))
    rw [Json.remapIn_list, remapItems_numbers]
  | null =>
    show (key, Json.remapIn os mappings (isPathKey key) .null) = (key, .null)
    cases isPathKey key <;> rfl
  | bool b =>
    show (key, Json.remapIn os mappings (isPathKey key) (.bool b)) = (key, .bool b)
    cases isPathKey key <;> rfl
  | int i =>
    show (key, Json.remapIn os mappings (isPathKey key) (.number i)) = (key, .number i)
    cases isPathKey key <;> rfl

/-- The paths in the details of a replacement are checked as those of a payload. -/
theorem validatePayloadPaths_dictJson (d : Dict) (roots : PathRoots) (label : String) :
    Json.validatePayloadPaths os (roots.replacementPayload os) (dictJson d) label =
      (validateReplacementPayloadPaths os d roots label).map dictJson := by
  have hentries : Json.validateEntries os (roots.replacementPayload os) label
        (d.map fun entry => (entry.1, valueJson entry.2)) =
      (validateReplacementPayloadPaths os d roots label).map
        (List.map fun entry => (entry.1, valueJson entry.2)) := by
    induction d with
    | nil => rfl
    | cons entry d ih =>
      obtain ⟨key, value⟩ := entry
      have hvalue : Json.validateIn os (roots.replacementPayload os) (isPathKey key)
            (label ++ "." ++ key) (valueJson value) =
          (if isPathKey key = true then validatePayloadPathValue os value (roots.replacementPayload os)
            (label ++ "." ++ key) else .ok value).map valueJson := by
        cases isPathKey key with
        | true =>
          cases value with
          | ints xs =>
            rw [valueJson, Json.validateIn_list, validateItems_numbers]
            rfl
          | str s =>
            rw [valueJson, Json.validateIn, if_pos rfl, validatePayloadPathValue]
            cases hpath : validatePathUnderRoots os (some (PosixPath.parse s))
                (roots.replacementPayload os) (label ++ "." ++ key) with
            | error e => rfl
            | ok path =>
              cases path with
              | none => rfl
              | some q => rfl
          | _ => rfl
        | false =>
          cases value with
          | ints xs =>
            rw [valueJson, Json.validateIn_list, validateItems_numbers]
            rfl
          | _ => rfl
      have hcons : validateReplacementPayloadPaths os ((key, value) :: d) roots label = (do
          let entry ← (if isPathKey key = true then (do
              let value ← validatePayloadPathValue os value (roots.replacementPayload os)
                (label ++ "." ++ key)
              pure (key, value)) else pure (key, value))
          let rest ← validateReplacementPayloadPaths os d roots label
          pure (entry :: rest)) := List.mapM_cons
      rw [List.map_cons, Json.validateEntries, hvalue, ih, hcons]
      by_cases hkey : isPathKey key = true
      · rw [if_pos hkey, if_pos hkey]
        cases validatePayloadPathValue os value (roots.replacementPayload os) (label ++ "." ++ key) with
        | error e => rfl
        | ok checked =>
          cases validateReplacementPayloadPaths os d roots label with
          | error e => rfl
          | ok rest => rfl
      · rw [if_neg hkey, if_neg hkey]
        cases validateReplacementPayloadPaths os d roots label with
        | error e => rfl
        | ok rest => rfl
  rw [Json.validatePayloadPaths, dictJson, Json.validateIn_object, hentries]
  cases validateReplacementPayloadPaths os d roots label with
  | error e => rfl
  | ok d' => rfl

/-- The details of a replacement that is accepted have their paths under the roots. -/
theorem normaliseReplacement_details {roots : PathRoots} {r r' : ReplacementResult}
    (h : normaliseReplacement os roots mappings r = .ok r') :
    (dictJson r'.details).shape = (dictJson r.details).shape ∧
      List.Forall₂ (Json.LeafChecked os (roots.replacementPayload os)) ((dictJson r.details).leaves none)
        ((dictJson r'.details).leaves none) := by
  simp only [normaliseReplacement, bind_ok, return_ok] at h
  obtain ⟨details, hdetails, _, -, _, -, rfl⟩ := h
  have hok : Json.validatePayloadPaths os (roots.replacementPayload os)
      (Json.remapWorkerPayloadPaths os mappings (dictJson r.details)) "replacement.details" =
        .ok (dictJson details) := by
    rw [remapWorkerPayloadPaths_dictJson, validatePayloadPaths_dictJson, hdetails]
    rfl
  exact Json.validatePayloadPaths_complete hok

end Details

end Encodr
