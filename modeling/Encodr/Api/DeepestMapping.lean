import Encodr.Api.PathMappings
import Encodr.Python.Ancestry

/-!
# The deepest mapping

The server roots of the mappings can lie below one another. The mapping of a path is the one whose root
is the deepest ancestor of the path, and the names below that root are kept. The mappings are tried in
the order of the texts of their roots, and a root covers what starts with its text and a slash; the text
of the root directory ends with a slash itself, so that it covers no other path.

* `Translates.deepest`: of the roots that a path lies under, the first in the order is the deepest.
* `remapServerPath_none_iff`: the paths without a mapping.
* `remapServerPath_deepest`: when the deepest mapping translates a path.
-/

namespace Encodr

open Python Lib

/-- The server root of a mapping. -/
def serverRoot (os : PathOs) (m : PathMapping) : PosixPath :=
  os.resolve (os.expanduser m.serverPath)

/-- No server root that covers the path is deeper than that of `m`. -/
def Deepest (os : PathOs) (mappings : List PathMapping) (path : PosixPath) (m : PathMapping) : Prop :=
  ∀ j ∈ mappings, PosixPath.IsAncestor (serverRoot os j) path →
    (serverRoot os j).parts.length ≤ (serverRoot os m).parts.length

/-- The deepest mapping translates a path: the worker path is its worker root and the components that
the path has below its server root. A path that no server root covers has no worker path. -/
structure RemapsDeepest (os : PathOs) (path : PosixPath) (mappings : List PathMapping) : Prop where
  deepest : ∀ m ∈ mappings, PosixPath.IsAncestor (serverRoot os m) (os.resolve (os.expanduser path)) →
    Deepest os mappings (os.resolve (os.expanduser path)) m →
    ∃ w, remapServerPath os path mappings = some w ∧ w.root = (os.expanduser m.workerPath).root ∧
      w.parts = (os.expanduser m.workerPath).parts ++
        (os.resolve (os.expanduser path)).parts.drop (serverRoot os m).parts.length
  nothing : remapServerPath os path mappings = none ↔
    ∀ m ∈ mappings, ¬ PosixPath.IsAncestor (serverRoot os m) (os.resolve (os.expanduser path))

section

variable {cwd : PosixPath} {expanduser : PosixPath → PosixPath} {mappings : List PathMapping}
  {path source root : PosixPath} {earlier : List PathMapping} {m : PathMapping} {rest : List String}

theorem serverRoot_root (m : PathMapping) : (serverRoot (lexicalOs cwd expanduser) m).root = .slash :=
  rfl

/-- A path is under what covers it, unless that is the root directory and the path is not. -/
theorem isUnder_iff_covers (hs : source.root = .slash) (hr : root.root = .slash) :
    isUnder source root = true ↔ PosixPath.IsAncestor root source ∧ (root.parts = [] → source.parts = []) := by
  rw [isUnder_iff hs hr]
  constructor
  · rintro (rfl | ⟨hne, rest, -, hparts⟩)
    · exact ⟨⟨rfl, List.prefix_rfl⟩, id⟩
    · exact ⟨⟨hr.trans hs.symm, rest, hparts.symm⟩, fun h => absurd h hne⟩
  · rintro ⟨⟨-, rest, hparts⟩, hempty⟩
    by_cases hrest : rest = []
    · rw [hrest, List.append_nil] at hparts
      exact .inl (PosixPath.ext_slash hs hr hparts.symm)
    · refine .inr ⟨fun h0 => ?_, rest, hrest, hparts.symm⟩
      rw [hempty h0, h0, List.nil_append] at hparts
      exact hrest hparts

theorem exists_mapping_iff : (∃ m ∈ normalisePathMappings (lexicalOs cwd expanduser) mappings,
      isUnder source m.serverPath = true) ↔
    ∃ m ∈ mappings, isUnder source (serverRoot (lexicalOs cwd expanduser) m) = true := by
  constructor
  · rintro ⟨m, hm, hunder⟩
    obtain ⟨m₀, hm₀, rfl⟩ := mem_normalisePathMappings hm
    exact ⟨m₀, hm₀, hunder⟩
  · rintro ⟨m, hm, hunder⟩
    refine ⟨⟨serverRoot (lexicalOs cwd expanduser) m, expanduser m.workerPath⟩, ?_, hunder⟩
    rw [normalisePathMappings, List.mem_insertionSort]
    exact List.mem_map_of_mem hm

/-- A path has no worker path where it is under no server root. -/
theorem remapServerPath_none_iff (hexpand : ExpandsUser expanduser) :
    remapServerPath (lexicalOs cwd expanduser) path mappings = none ↔
      ∀ m ∈ mappings, isUnder (PosixPath.resolved cwd (expanduser path))
        (serverRoot (lexicalOs cwd expanduser) m) = false := by
  cases hfind : mappingForServerPath (lexicalOs cwd expanduser) path mappings with
  | some m =>
    obtain ⟨earlier, rest, ht⟩ := exists_translates hfind
    rw [remapServerPath_eq hexpand ht]
    obtain ⟨j, hj, hunder⟩ := exists_mapping_iff.mp ⟨m, ht.mem, ht.under⟩
    refine ⟨fun h => (by cases h), fun h => ?_⟩
    rw [h j hj] at hunder
    cases hunder
  | none =>
    have hnone : ∀ m ∈ mappings, isUnder (PosixPath.resolved cwd (expanduser path))
        (serverRoot (lexicalOs cwd expanduser) m) = false := by
      intro m hm
      by_contra hne
      obtain ⟨j, hj, hunder⟩ := exists_mapping_iff.mpr ⟨m, hm, by simpa using hne⟩
      exact List.find?_eq_none.mp hfind j hj hunder
    refine ⟨fun _ => hnone, fun _ => ?_⟩
    have hsource : PosixPath.resolved cwd (expanduser (PosixPath.resolved cwd (expanduser path))) =
        PosixPath.resolved cwd (expanduser path) := by
      rw [hexpand.rooted _ rfl]
      exact resolved_of_noDots rfl (PosixPath.resolved_noDots _ _)
    have hagain : mappingForServerPath (lexicalOs cwd expanduser)
        (PosixPath.resolved cwd (expanduser path)) mappings = none := by
      refine List.find?_eq_none.mpr fun j hj hunder => ?_
      rw [lexicalOs_resolve, lexicalOs_expanduser, hsource] at hunder
      obtain ⟨m, hm, hcovered⟩ := exists_mapping_iff.mp ⟨j, hj, hunder⟩
      rw [hnone m hm] at hcovered
      cases hcovered
    show (mappingForServerPath (lexicalOs cwd expanduser) (PosixPath.resolved cwd (expanduser path))
      mappings).bind _ = none
    rw [hagain, Option.bind_none]

/-- The mappings after another have server roots at most as long. -/
theorem Translates.later_le (h : Translates (lexicalOs cwd expanduser) mappings source earlier m rest)
    {j : PathMapping} (hj : j ∈ normalisePathMappings (lexicalOs cwd expanduser) mappings) :
    j ∈ earlier ∨ j.serverPath.asPosix.length ≤ m.serverPath.asPosix.length := by
  obtain ⟨later, horder⟩ := h.order
  have hsorted := List.pairwise_insertionSort (fun a b : PathMapping =>
    b.serverPath.asPosix.length ≤ a.serverPath.asPosix.length) (mappings.map fun m => {
      serverPath := PosixPath.resolved cwd (expanduser m.serverPath)
      workerPath := expanduser m.workerPath : PathMapping })
  have hall : (earlier ++ m :: later).Pairwise fun a b : PathMapping =>
      b.serverPath.asPosix.length ≤ a.serverPath.asPosix.length := horder ▸ hsorted
  rw [horder] at hj
  rcases List.mem_append.mp hj with hj | hj
  · exact .inl hj
  · rcases List.mem_cons.mp hj with rfl | hj
    · exact .inr le_rfl
    · exact .inr ((List.pairwise_cons.mp (List.pairwise_append.mp hall).2.1).1 j hj)

/-- Of the server roots that a path lies under, the first in the order is the deepest. -/
theorem Translates.deepest (hs : source.root = .slash)
    (h : Translates (lexicalOs cwd expanduser) mappings source earlier m rest)
    {j : PathMapping} (hj : j ∈ mappings)
    (hunder : isUnder source (serverRoot (lexicalOs cwd expanduser) j) = true) :
    (serverRoot (lexicalOs cwd expanduser) j).parts.length ≤ m.serverPath.parts.length := by
  obtain ⟨m₀, -, hm⟩ := mem_normalisePathMappings h.mem
  have hserver : m.serverPath.root = .slash := by rw [hm]; rfl
  have hmem : (⟨serverRoot (lexicalOs cwd expanduser) j, expanduser j.workerPath⟩ : PathMapping) ∈
      normalisePathMappings (lexicalOs cwd expanduser) mappings := by
    rw [normalisePathMappings, List.mem_insertionSort]
    exact List.mem_map_of_mem hj
  rcases h.later_le hmem with hearlier | hle
  · have hfirst := h.first _ hearlier
    rw [hunder] at hfirst
    cases hfirst
  · obtain ⟨⟨-, hprefixed⟩, -⟩ := (isUnder_iff_covers hs (serverRoot_root j)).mp hunder
    by_contra hlt
    -- Both roots have the first components of the path, so that the longer one is below the other.
    obtain ⟨below, hbelow⟩ : m.serverPath.parts <+: (serverRoot (lexicalOs cwd expanduser) j).parts :=
      List.prefix_of_prefix_length_le ⟨rest, h.parts.symm⟩ hprefixed (by omega)
    have hne : below ≠ [] := by
      intro h0
      rw [← hbelow, h0, List.append_nil] at hlt
      omega
    have hlonger := PosixPath.length_asPosix_lt (p := m.serverPath)
      (q := serverRoot (lexicalOs cwd expanduser) j) (hserver.trans (serverRoot_root j).symm)
      (by rw [hserver]; decide) hne hbelow.symm
    have hle' : (serverRoot (lexicalOs cwd expanduser) j).asPosix.length ≤ m.serverPath.asPosix.length :=
      hle
    omega

/-- The mapping of a path that is under a server root. -/
theorem exists_mapping (hunder : ∃ m ∈ mappings, isUnder (PosixPath.resolved cwd (expanduser path))
      (serverRoot (lexicalOs cwd expanduser) m) = true) :
    ∃ m₀ ∈ mappings, ∃ earlier rest, Translates (lexicalOs cwd expanduser) mappings
      (PosixPath.resolved cwd (expanduser path)) earlier
      ⟨serverRoot (lexicalOs cwd expanduser) m₀, expanduser m₀.workerPath⟩ rest := by
  obtain ⟨j, hj, hunder⟩ := exists_mapping_iff.mpr hunder
  cases hfind : mappingForServerPath (lexicalOs cwd expanduser) path mappings with
  | none => exact absurd hunder (List.find?_eq_none.mp hfind j hj)
  | some m =>
    obtain ⟨earlier, rest, ht⟩ := exists_translates hfind
    obtain ⟨m₀, hm₀, rfl⟩ := mem_normalisePathMappings ht.mem
    exact ⟨m₀, hm₀, earlier, rest, ht⟩

/-- A path that is under the deepest root that covers it is translated by the mapping of that root. -/
theorem remapServerPath_of_deepest (hexpand : ExpandsUser expanduser)
    (hdistinct : (mappings.map (serverRoot (lexicalOs cwd expanduser))).Nodup) (hm : m ∈ mappings)
    (hunder : isUnder (PosixPath.resolved cwd (expanduser path))
      (serverRoot (lexicalOs cwd expanduser) m) = true)
    (hdeepest : Deepest (lexicalOs cwd expanduser) mappings (PosixPath.resolved cwd (expanduser path)) m) :
    ∃ w, remapServerPath (lexicalOs cwd expanduser) path mappings = some w ∧
      w.root = (expanduser m.workerPath).root ∧ w.parts = (expanduser m.workerPath).parts ++
        (PosixPath.resolved cwd (expanduser path)).parts.drop
          (serverRoot (lexicalOs cwd expanduser) m).parts.length := by
  obtain ⟨m₀, hm₀, earlier, rest, ht⟩ := exists_mapping ⟨m, hm, hunder⟩
  have hcovers := ((isUnder_iff_covers rfl (serverRoot_root m)).mp hunder).1
  have hcovers₀ := ((isUnder_iff_covers rfl (serverRoot_root m₀)).mp ht.under).1
  have hlength : (serverRoot (lexicalOs cwd expanduser) m).parts.length =
      (serverRoot (lexicalOs cwd expanduser) m₀).parts.length :=
    Nat.le_antisymm (ht.deepest rfl hm hunder) (hdeepest m₀ hm₀ hcovers₀)
  have hparts : (serverRoot (lexicalOs cwd expanduser) m).parts =
      (serverRoot (lexicalOs cwd expanduser) m₀).parts :=
    (List.prefix_of_prefix_length_le hcovers.2 hcovers₀.2 hlength.le).eq_of_length hlength
  have heq : m = m₀ := List.inj_on_of_nodup_map hdistinct hm hm₀ (PosixPath.ext_slash rfl rfl hparts)
  subst heq
  refine ⟨_, remapServerPath_eq hexpand ht, rfl, ?_⟩
  rw [joinpath_parts ht.validParts, ht.parts, List.drop_left]

/-- A server path is translated by the mapping of the deepest server root that covers it, and by none
where no server root covers it, exactly when it does not lean on the root directory alone: the path is
the root directory, no server root is the root directory, or another server root covers the path. -/
theorem remapServerPath_deepest (hexpand : ExpandsUser expanduser)
    (hdistinct : (mappings.map (serverRoot (lexicalOs cwd expanduser))).Nodup) :
    let os := lexicalOs cwd expanduser
    let source := os.resolve (os.expanduser path)
    RemapsDeepest os path mappings ↔
      (source.parts = [] ∨ (∀ m ∈ mappings, (serverRoot os m).parts ≠ []) ∨
        ∃ m ∈ mappings, (serverRoot os m).parts ≠ [] ∧ PosixPath.IsAncestor (serverRoot os m) source) := by
  intro os source
  constructor
  · rintro ⟨-, hnothing⟩
    by_contra hcond
    rw [not_or, not_or] at hcond
    obtain ⟨hsource, hroot, hother⟩ := hcond
    have hnone : remapServerPath os path mappings = none := by
      refine (remapServerPath_none_iff hexpand).mpr fun m hm => ?_
      by_contra hunder
      obtain ⟨hcovers, hempty⟩ :=
        (isUnder_iff_covers rfl (serverRoot_root m)).mp (by simpa using hunder)
      exact hother ⟨m, hm, fun h0 => hsource (hempty h0), hcovers⟩
    push Not at hroot
    obtain ⟨m, hm, hempty⟩ := hroot
    exact hnothing.mp hnone m hm ⟨rfl, by rw [hempty]; exact List.nil_prefix⟩
  · intro hcond
    -- Whatever covers the path, the deepest root that does has the path under it.
    have hunder : ∀ m ∈ mappings, PosixPath.IsAncestor (serverRoot os m) source → Deepest os mappings source m →
        isUnder source (serverRoot os m) = true := by
      intro m hm hcovers hdeepest
      refine (isUnder_iff_covers rfl (serverRoot_root m)).mpr ⟨hcovers, fun hempty => ?_⟩
      rcases hcond with hsource | hroot | ⟨j, hj, hne, hcovered⟩
      · exact hsource
      · exact absurd hempty (hroot m hm)
      · have hle := hdeepest j hj hcovered
        rw [hempty, List.length_nil, Nat.le_zero, List.length_eq_zero_iff] at hle
        exact absurd hle hne
    refine ⟨fun m hm hcovers hdeepest =>
      remapServerPath_of_deepest hexpand hdistinct hm (hunder m hm hcovers hdeepest) hdeepest, ?_⟩
    rw [remapServerPath_none_iff hexpand]
    constructor
    · intro hnone m hm hcovers
      have hself : ∃ j ∈ mappings, isUnder source (serverRoot os j) = true := by
        rcases hcond with hsource | hroot | ⟨j, hj, hne, hcovered⟩
        · exact ⟨m, hm, (isUnder_iff_covers rfl (serverRoot_root m)).mpr ⟨hcovers, fun _ => hsource⟩⟩
        · exact ⟨m, hm, (isUnder_iff_covers rfl (serverRoot_root m)).mpr
            ⟨hcovers, fun h0 => absurd h0 (hroot m hm)⟩⟩
        · exact ⟨j, hj, (isUnder_iff_covers rfl (serverRoot_root j)).mpr
            ⟨hcovered, fun h0 => absurd h0 hne⟩⟩
      obtain ⟨j, hj, hself⟩ := hself
      exact Bool.false_ne_true ((hnone j hj).symm.trans hself)
    · intro hnone m hm
      rw [← Bool.not_eq_true]
      exact fun hself => hnone m hm ((isUnder_iff_covers rfl (serverRoot_root m)).mp hself).1

end

/-- A path of a library below another library is translated by the mapping of the inner one. -/
theorem remapServerPath_deepest_nested :
    let os := lexicalOs (PosixPath.parse "/") id
    let mappings : List PathMapping := [⟨PosixPath.parse "/srv", PosixPath.parse "/mnt/srv"⟩,
      ⟨PosixPath.parse "/srv/media", PosixPath.parse "/mnt/media"⟩]
    (mappings.map (serverRoot os)).Nodup ∧
      RemapsDeepest os (PosixPath.parse "/srv/media/film.mkv") mappings := by
  have hdistinct : (([⟨PosixPath.parse "/srv", PosixPath.parse "/mnt/srv"⟩,
      ⟨PosixPath.parse "/srv/media", PosixPath.parse "/mnt/media"⟩] : List PathMapping).map
        (serverRoot (lexicalOs (PosixPath.parse "/") id))).Nodup := by decide +kernel
  exact ⟨hdistinct, (remapServerPath_deepest expandsUser_id hdistinct).mpr
    (.inr (.inl (by decide +kernel)))⟩

/-- The only mapping is that of the root directory, which is an ancestor of every path. No path below it
has a worker path. -/
theorem rootMapping_translates_nothing :
    let os := lexicalOs (PosixPath.parse "/") id
    let mappings : List PathMapping := [⟨PosixPath.parse "/", PosixPath.parse "/mnt"⟩]
    (mappings.map (serverRoot os)).Nodup ∧
      remapServerPath os (PosixPath.parse "/media/film.mkv") mappings = none ∧
      ¬ RemapsDeepest os (PosixPath.parse "/media/film.mkv") mappings := by
  refine ⟨by decide +kernel, by decide +kernel, fun h => ?_⟩
  exact h.nothing.mp (by decide +kernel) _ List.mem_cons_self (by decide +kernel)

end Encodr
