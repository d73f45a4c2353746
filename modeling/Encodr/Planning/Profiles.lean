import Encodr.Python.Ancestry
import Encodr.Planning.Rules

/-!
# The profile of the deepest folder

The path overrides of a policy name profiles for folders. A path should get the profile of the deepest
of these folders that it lies in, whatever the order of the overrides. `resolve_profile_for_path`
compares texts: a folder is as deep as its text is long.

* `IsDeepest`, `ResolvesDeepest`: the deepest folder, and a bundle that resolves it, in terms of path
  components.
* `pathMatchesPrefix_iff`: the texts that a path matches, as components.
* `resolveProfileForPath_deepest_iff`: when the profile is that of the deepest folder.
-/

namespace Encodr

open Python

/-! ## Folders -/

/-- The folder of an override. -/
def PathProfileOverride.folder (o : PathProfileOverride) : PosixPath :=
  PosixPath.parse o.pathPrefix

/-- No override has a deeper folder above `path` than `o` has. -/
structure IsDeepest (overrides : List PathProfileOverride) (path : PosixPath)
    (o : PathProfileOverride) : Prop where
  mem : o ∈ overrides
  ancestor : PosixPath.IsAncestor o.folder path
  deepest : ∀ o' ∈ overrides, PosixPath.IsAncestor o'.folder path →
    o'.folder.parts.length ≤ o.folder.parts.length

/-- The bundle with other overrides. -/
def ConfigBundle.withOverrides (bundle : ConfigBundle) (overrides : List PathProfileOverride) :
    ConfigBundle :=
  { bundle with policy := { bundle.policy with pathOverrides := overrides } }

/-- The path gets a profile: that of its deepest folder, or none where no folder is above it. -/
def ResolvesDeepest (bundle : ConfigBundle) (path : PosixPath) : Prop :=
  ∃ profile pathPrefix,
    resolveProfileForPath .posix bundle path.asPosix = some (profile, pathPrefix) ∧
    (profile = none ↔ ∀ o ∈ bundle.policy.pathOverrides, ¬ PosixPath.IsAncestor o.folder path) ∧
    ∀ o, IsDeepest bundle.policy.pathOverrides path o → profile = bundle.profile o.profile

/-- The overrides of the deepest folder name one profile. An override for the root of the other kind is
shorter than the deepest folder, or names its profile. -/
structure DeepestDecides (overrides : List PathProfileOverride) (path : PosixPath) : Prop where
  oneProfile : ∀ d d', IsDeepest overrides path d → IsDeepest overrides path d' → d.profile = d'.profile
  otherRoot : ∀ o ∈ overrides, o.folder.root ≠ .relative → o.folder.root ≠ path.root →
    o.folder.parts = [] → ∃ d, IsDeepest overrides path d ∧
      (o.folder.asPosix.length < d.folder.asPosix.length ∨ o.profile = d.profile)

/-! ## What a path matches -/

section Matches

variable {p q path : PosixPath}

theorem trimmed_asPosix (h : p.parts ≠ []) : PathFlavour.posix.trimmed p.asPosix = p.asPosix := by
  have hne : p.asPosix ≠ "" := by
    rw [PosixPath.asPosix_eq (.inr h), Ne, String.append_eq_empty_iff]
    exact fun hempty => joined_ne_empty p.parts_ok h hempty.2
  simp only [PathFlavour.trimmed, PathFlavour.posix, PosixPath.parse_asPosix,
    rstripSlash_eq (toList_getLast?_asPosix h), String.ofList_toList, if_neg hne]

theorem trimmed_root (hroot : p.root ≠ .relative) (h : p.parts = []) :
    PathFlavour.posix.trimmed p.asPosix = "/" := by
  have heq : p.asPosix = p.root.text := by
    rw [PosixPath.asPosix_eq (.inl hroot), h, joined_nil, String.append_empty]
  simp only [PathFlavour.trimmed, PathFlavour.posix, heq]
  cases hr : p.root with
  | relative => exact absurd hr hroot
  | slash => decide
  | doubleSlash => decide

theorem startsWith_slash_of_root (hroot : p.root ≠ .relative) :
    startsWith (PathFlavour.posix.trimmed p.asPosix) "/" = true := by
  by_cases h : p.parts = []
  · rw [trimmed_root hroot h]
    decide
  · rw [trimmed_asPosix h, PosixPath.asPosix_eq (.inr h), startsWith, decide_eq_true_eq]
    cases hr : p.root with
    | relative => exact absurd hr hroot
    | slash => exact ⟨(joined p.parts).toList, by simp [Root.text]⟩
    | doubleSlash => exact ⟨'/' :: (joined p.parts).toList, by simp [Root.text]⟩

/-- A path matches every root, and the folders above it. -/
theorem pathMatchesPrefix_iff (hpath : path.root ≠ .relative) :
    pathMatchesPrefix .posix path.asPosix q.asPosix = true ↔
      (q.root ≠ .relative ∧ q.parts = []) ∨ PosixPath.IsAncestor q path := by
  unfold pathMatchesPrefix
  by_cases hq : q.parts = []
  · by_cases hroot : q.root = .relative
    · have hdot : PathFlavour.posix.trimmed q.asPosix = "." := by
        rw [PosixPath.asPosix_dot hroot hq]
        decide
      obtain ⟨cs, hcs⟩ : ∃ cs, (PathFlavour.posix.trimmed path.asPosix).toList = '/' :: cs := by
        have hstart := startsWith_slash_of_root hpath
        rw [startsWith, decide_eq_true_eq] at hstart
        obtain ⟨cs, hcs⟩ := hstart
        exact ⟨cs, by simpa using hcs.symm⟩
      have hne : PathFlavour.posix.trimmed path.asPosix ≠ "." := by
        intro heq
        simp [heq] at hcs
      have hanc : ¬ PosixPath.IsAncestor q path := fun h => hpath (h.1 ▸ hroot)
      simp [hdot, hne, hroot, hanc, startsWith, hcs]
    · simp only [trimmed_root hroot hq, if_true, startsWith_slash_of_root hpath, true_iff]
      exact .inl ⟨hroot, hq⟩
  · simp only [trimmed_asPosix hq, if_neg (asPosix_ne_slash hq), Bool.or_eq_true, decide_eq_true_eq, hq,
      and_false, false_or]
    by_cases hp : path.parts = []
    · rw [trimmed_root hpath hp]
      have hanc : ¬ PosixPath.IsAncestor q path := by
        rintro ⟨-, hbefore⟩
        rw [hp] at hbefore
        exact hq (List.prefix_nil.mp hbefore)
      refine iff_of_false ?_ hanc
      rintro (heq | hstart)
      · exact asPosix_ne_slash hq heq.symm
      · rw [startsWith_slash_iff, PosixPath.split_asPosix hq] at hstart
        obtain ⟨rest, hrest, hsplit⟩ := hstart
        obtain ⟨s, parts, hparts⟩ := List.exists_cons_of_ne_nil hq
        have hs := (q.parts_ok s (hparts ▸ List.mem_cons_self)).1
        have hslash : split '/' "/" = ["", ""] := by decide
        rw [hslash, hparts] at hsplit
        cases hroot : q.root with
        | relative =>
          rw [hroot] at hsplit
          exact hs (List.cons.inj hsplit).1.symm
        | slash =>
          rw [hroot] at hsplit
          exact hs (List.cons.inj (List.cons.inj hsplit).2).1.symm
        | doubleSlash =>
          rw [hroot] at hsplit
          have hlen := congrArg List.length hsplit
          simp [Root.components] at hlen
    · rw [trimmed_asPosix hp]
      exact eq_or_startsWith_iff hp hq

end Matches

/-! ## The override that is chosen -/

section Chosen

variable {overrides : List PathProfileOverride} {path a b : PosixPath} {o d : PathProfileOverride}

theorem singleton_le_iff {m n : Nat} : [(m : Int)] ≤ [(n : Int)] ↔ m ≤ n := by
  rw [← not_lt, List.cons_lt_cons_iff]
  simp

/-- Above one path, the folder with more components has the longer text. -/
theorem asPosix_length_le_iff (hpath : path.root ≠ .relative) (ha : PosixPath.IsAncestor a path)
    (hb : PosixPath.IsAncestor b path) :
    a.asPosix.length ≤ b.asPosix.length ↔ a.parts.length ≤ b.parts.length := by
  have hroot : a.root = b.root := ha.1.trans hb.1.symm
  have habs : a.root ≠ .relative := fun h => hpath (ha.1 ▸ h)
  rcases Nat.lt_or_ge a.parts.length b.parts.length with hlt | hge
  · obtain ⟨rest, hrest⟩ := List.prefix_of_prefix_length_le ha.2 hb.2 (Nat.le_of_lt hlt)
    have hne : rest ≠ [] := by
      rintro rfl
      rw [List.append_nil] at hrest
      rw [hrest] at hlt
      exact Nat.lt_irrefl _ hlt
    have htext := PosixPath.length_asPosix_lt hroot habs hne hrest.symm
    exact iff_of_true (Nat.le_of_lt htext) (Nat.le_of_lt hlt)
  · obtain ⟨rest, hrest⟩ := List.prefix_of_prefix_length_le hb.2 ha.2 hge
    by_cases hne : rest = []
    · rw [hne, List.append_nil] at hrest
      rw [PosixPath.ext_parts hroot hrest.symm]
      simp
    · have htext := PosixPath.length_asPosix_lt hroot.symm (hroot ▸ habs) hne hrest.symm
      have hlen := congrArg List.length hrest
      have hpos := List.length_pos_iff.mpr hne
      rw [List.length_append] at hlen
      refine iff_of_false ?_ ?_
      · omega
      · omega

theorem exists_isDeepest (h : o ∈ overrides) (hanc : PosixPath.IsAncestor o.folder path) :
    ∃ d, IsDeepest overrides path d := by
  have hmem : ∀ o', o' ∈ overrides.filter (PosixPath.IsAncestor ·.folder path) ↔
      o' ∈ overrides ∧ PosixPath.IsAncestor o'.folder path := fun o' => by
    rw [List.mem_filter, decide_eq_true_eq]
  obtain ⟨d, hd⟩ := maxBy_isSome (fun o : PathProfileOverride => [(o.folder.parts.length : Int)])
    (List.ne_nil_of_mem ((hmem o).mpr ⟨h, hanc⟩))
  have hspec := (hmem d).mp (maxBy_mem hd)
  refine ⟨d, hspec.1, hspec.2, fun o' ho' hanc' => ?_⟩
  exact singleton_le_iff.mp (maxBy_le hd ((hmem o').mpr ⟨ho', hanc'⟩))

/-- The overrides that a path matches. -/
def matching (overrides : List PathProfileOverride) (path : PosixPath) : List PathProfileOverride :=
  overrides.filter fun o => pathMatchesPrefix .posix path.asPosix o.folder.asPosix

theorem mem_matching (hpath : path.root ≠ .relative) : o ∈ matching overrides path ↔
    o ∈ overrides ∧ ((o.folder.root ≠ .relative ∧ o.folder.parts = []) ∨
      PosixPath.IsAncestor o.folder path) := by
  rw [matching, List.mem_filter, pathMatchesPrefix_iff hpath]

theorem matchedOverride_eq (overrides : List PathProfileOverride) (path : PosixPath) :
    matchedOverride .posix overrides path.asPosix =
      maxBy (fun o => [(o.folder.asPosix.length : Int)]) (matching overrides path) :=
  rfl

/-- A matched override lies above the path, or is the root of the other kind. -/
theorem ancestor_or_otherRoot (hpath : path.root ≠ .relative) (h : o ∈ matching overrides path) :
    PosixPath.IsAncestor o.folder path ∨
      (o.folder.root ≠ .relative ∧ o.folder.root ≠ path.root ∧ o.folder.parts = []) := by
  rcases ((mem_matching hpath).mp h).2 with ⟨hroot, hparts⟩ | hanc
  · by_cases heq : o.folder.root = path.root
    · exact .inl ⟨heq, hparts ▸ List.nil_prefix⟩
    · exact .inr ⟨hroot, heq, hparts⟩
  · exact .inl hanc

theorem IsDeepest.mem_matching (hpath : path.root ≠ .relative) (h : IsDeepest overrides path d) :
    d ∈ matching overrides path :=
  (Encodr.mem_matching hpath).mpr ⟨h.mem, .inr h.ancestor⟩

/-- Where the longest matched override lies above the path, no folder above the path is deeper. -/
theorem isDeepest_of_longest (hpath : path.root ≠ .relative) (h : o ∈ matching overrides path)
    (hanc : PosixPath.IsAncestor o.folder path)
    (hlongest : ∀ m ∈ matching overrides path, m.folder.asPosix.length ≤ o.folder.asPosix.length) :
    IsDeepest overrides path o := by
  refine ⟨((mem_matching hpath).mp h).1, hanc, fun o' ho' hanc' => ?_⟩
  have hmem : o' ∈ matching overrides path := (mem_matching hpath).mpr ⟨ho', .inr hanc'⟩
  exact (asPosix_length_le_iff hpath hanc' hanc).mp (hlongest o' hmem)

theorem IsDeepest.perm {overrides' : List PathProfileOverride} (hperm : overrides'.Perm overrides)
    (h : IsDeepest overrides path d) : IsDeepest overrides' path d :=
  ⟨hperm.mem_iff.mpr h.mem, h.ancestor, fun o' ho' => h.deepest o' (hperm.mem_iff.mp ho')⟩

theorem DeepestDecides.perm {overrides' : List PathProfileOverride} (hperm : overrides'.Perm overrides)
    (h : DeepestDecides overrides path) : DeepestDecides overrides' path where
  oneProfile := fun d d' hd hd' => h.oneProfile d d' (hd.perm hperm.symm) (hd'.perm hperm.symm)
  otherRoot := fun o ho hrel hroot hparts => by
    obtain ⟨d, hd, hor⟩ := h.otherRoot o (hperm.mem_iff.mp ho) hrel hroot hparts
    exact ⟨d, hd.perm hperm, hor⟩

/-- The override that is chosen names the profile of the deepest folder. -/
theorem DeepestDecides.profile_eq (hpath : path.root ≠ .relative) (h : DeepestDecides overrides path)
    (hmatched : matchedOverride .posix overrides path.asPosix = some o)
    (hd : IsDeepest overrides path d) : o.profile = d.profile := by
  rw [matchedOverride_eq] at hmatched
  have hmem := maxBy_mem hmatched
  have hlongest : ∀ m ∈ matching overrides path, m.folder.asPosix.length ≤ o.folder.asPosix.length :=
    fun m hm => singleton_le_iff.mp (maxBy_le hmatched hm)
  rcases ancestor_or_otherRoot hpath hmem with hanc | ⟨hrel, hroot, hparts⟩
  · exact h.oneProfile o d (isDeepest_of_longest hpath hmem hanc hlongest) hd
  · obtain ⟨d', hd', hlt | heq⟩ :=
      h.otherRoot o ((mem_matching hpath).mp hmem).1 hrel hroot hparts
    · have hle := hlongest d' (hd'.mem_matching hpath)
      omega
    · exact heq.trans (h.oneProfile d' d hd' hd)

end Chosen

/-! ## The profile that is chosen -/

section Resolved

variable {bundle : ConfigBundle} {overrides : List PathProfileOverride} {path : PosixPath}
  {d o : PathProfileOverride}

theorem withOverrides_profile (name : String) :
    (bundle.withOverrides overrides).profile name = bundle.profile name := rfl

theorem withOverrides_self : bundle.withOverrides bundle.policy.pathOverrides = bundle := rfl

theorem resolveProfileForPath_of_none
    (h : matchedOverride .posix bundle.policy.pathOverrides path.asPosix = none) :
    resolveProfileForPath .posix bundle path.asPosix = some (none, none) := by
  simp only [resolveProfileForPath, h]

theorem resolveProfileForPath_of_some {profile : ProfileConfig}
    (h : matchedOverride .posix bundle.policy.pathOverrides path.asPosix = some o)
    (hprofile : bundle.profile o.profile = some profile) :
    resolveProfileForPath .posix bundle path.asPosix = some (some profile, some o.pathPrefix) := by
  simp only [resolveProfileForPath, h, hprofile, Option.map_some]

theorem matching_eq_nil (h : matchedOverride .posix overrides path.asPosix = none) :
    matching overrides path = [] := by
  by_contra hne
  obtain ⟨o, ho⟩ := maxBy_isSome (fun o : PathProfileOverride => [(o.folder.asPosix.length : Int)]) hne
  rw [matchedOverride_eq, ho] at h
  cases h

theorem DeepestDecides.resolvesDeepest (hpath : path.root ≠ .relative)
    (hrefs : ∀ o ∈ bundle.policy.pathOverrides, (bundle.profile o.profile).isSome = true)
    (h : DeepestDecides bundle.policy.pathOverrides path) : ResolvesDeepest bundle path := by
  cases hmatched : matchedOverride .posix bundle.policy.pathOverrides path.asPosix with
  | none =>
    have hnone : ∀ o ∈ bundle.policy.pathOverrides, ¬ PosixPath.IsAncestor o.folder path := by
      intro o ho hanc
      have hmem := (mem_matching hpath).mpr ⟨ho, .inr hanc⟩
      rw [matching_eq_nil hmatched] at hmem
      cases hmem
    refine ⟨none, none, resolveProfileForPath_of_none hmatched, iff_of_true rfl hnone, ?_⟩
    exact fun d hd => absurd hd.ancestor (hnone d hd.mem)
  | some o =>
    obtain ⟨profile, hprofile⟩ := Option.isSome_iff_exists.mp (hrefs o (matchedOverride_mem hmatched))
    refine ⟨some profile, some o.pathPrefix, resolveProfileForPath_of_some hmatched hprofile,
      iff_of_false nofun fun hnone => ?_, fun d hd => ?_⟩
    · rcases ancestor_or_otherRoot hpath (maxBy_mem hmatched) with hanc | ⟨hrel, hroot, hparts⟩
      · exact hnone o (matchedOverride_mem hmatched) hanc
      · obtain ⟨d, hd, -⟩ := h.otherRoot o (matchedOverride_mem hmatched) hrel hroot hparts
        exact hnone d hd.mem hd.ancestor
    · rw [← h.profile_eq hpath hmatched hd, hprofile]

/-- The deepest folder determines the profile, whatever the order of the overrides. -/
theorem ResolvesDeepest.map_fst_eq (hperm : overrides.Perm bundle.policy.pathOverrides)
    (h : ResolvesDeepest (bundle.withOverrides overrides) path) (h' : ResolvesDeepest bundle path) :
    (resolveProfileForPath .posix (bundle.withOverrides overrides) path.asPosix).map (·.1) =
      (resolveProfileForPath .posix bundle path.asPosix).map (·.1) := by
  obtain ⟨profile, _, hres, hnone, hdeep⟩ := h
  obtain ⟨profile', _, hres', hnone', hdeep'⟩ := h'
  rw [hres, hres', Option.map_some, Option.map_some]
  by_cases hanc : ∃ o ∈ bundle.policy.pathOverrides, PosixPath.IsAncestor o.folder path
  · obtain ⟨o, ho, hanc⟩ := hanc
    obtain ⟨d, hd⟩ := exists_isDeepest ho hanc
    rw [hdeep d (hd.perm hperm), hdeep' d hd, withOverrides_profile]
  · have hall : ∀ o ∈ bundle.policy.pathOverrides, ¬ PosixPath.IsAncestor o.folder path :=
      fun o ho h => hanc ⟨o, ho, h⟩
    rw [hnone'.mpr hall, hnone.mpr fun o ho => hall o (hperm.mem_iff.mp ho)]

/-- Two names of one profile are equal. -/
theorem ConfigBundle.Valid.profile_inj (h : bundle.Valid) (ho : o ∈ bundle.policy.pathOverrides)
    (heq : bundle.profile o.profile = bundle.profile d.profile) : o.profile = d.profile := by
  obtain ⟨profile, hprofile⟩ := Option.isSome_iff_exists.mp (h.references o ho)
  have hname := (h.profiles _ _ hprofile).1
  have hname' := (h.profiles _ _ (heq ▸ hprofile)).1
  exact hname.symm.trans hname'

/-- A longest matched override is chosen when it comes first. -/
theorem matchedOverride_first (ho : o ∈ matching overrides path)
    (hlongest : ∀ m ∈ matching overrides path, m.folder.asPosix.length ≤ o.folder.asPosix.length) :
    matchedOverride .posix (o :: overrides.erase o) path.asPosix = some o := by
  have hcons : matching (o :: overrides.erase o) path = o :: matching (overrides.erase o) path :=
    List.filter_cons_of_pos (List.mem_filter.mp ho).2
  rw [matchedOverride_eq, maxBy_eq_some_iff_isFirstBest, hcons]
  refine ⟨[], _, rfl, by simp, fun m hm => ?_⟩
  have hm' := List.mem_filter.mp hm
  exact singleton_le_iff.mpr
    (hlongest m (List.mem_filter.mpr ⟨List.mem_of_mem_erase hm'.1, hm'.2⟩))

/-- What the overrides look like where every order of them resolves the deepest folder. -/
theorem deepestDecides_of_resolves (hbundle : bundle.Valid) (hpath : path.root ≠ .relative)
    (h : ∀ overrides, overrides.Perm bundle.policy.pathOverrides →
      ResolvesDeepest (bundle.withOverrides overrides) path) :
    DeepestDecides bundle.policy.pathOverrides path where
  oneProfile := fun d d' hd hd' => by
    obtain ⟨profile, _, -, -, hdeep⟩ := h _ (List.Perm.refl _)
    exact hbundle.profile_inj hd.mem ((hdeep d hd).symm.trans (hdeep d' hd'))
  otherRoot := fun o ho hrel hroot hparts => by
    have hmem : o ∈ matching bundle.policy.pathOverrides path :=
      (mem_matching hpath).mpr ⟨ho, .inl ⟨hrel, hparts⟩⟩
    -- the root of the other kind is matched, so some folder lies above the path
    have hanc : ∃ d, IsDeepest bundle.policy.pathOverrides path d := by
      obtain ⟨profile, _, hres, hnone, -⟩ := h _ (List.Perm.refl _)
      by_contra hno
      have hall : ∀ o ∈ bundle.policy.pathOverrides, ¬ PosixPath.IsAncestor o.folder path :=
        fun o ho hanc => hno (exists_isDeepest ho hanc)
      rw [withOverrides_self] at hres
      cases hmatched : matchedOverride .posix bundle.policy.pathOverrides path.asPosix with
      | none =>
        rw [matching_eq_nil hmatched] at hmem
        cases hmem
      | some m =>
        obtain ⟨p, hp⟩ := hbundle.exists_profile hmatched
        rw [resolveProfileForPath_of_some hmatched hp] at hres
        obtain ⟨rfl, -⟩ := Prod.mk.inj (Option.some.inj hres)
        cases hnone.mpr hall
    obtain ⟨d, hd⟩ := hanc
    refine ⟨d, hd, ?_⟩
    by_cases hlt : o.folder.asPosix.length < d.folder.asPosix.length
    · exact .inl hlt
    · -- otherwise no matched override is longer, and it is chosen when it comes first
      have hlongest : ∀ m ∈ matching bundle.policy.pathOverrides path,
          m.folder.asPosix.length ≤ o.folder.asPosix.length := by
        intro m hm
        rcases ancestor_or_otherRoot hpath hm with hanc | ⟨hmrel, hmroot, hmparts⟩
        · have hle := (asPosix_length_le_iff hpath hanc hd.ancestor).mpr
            (hd.deepest m ((mem_matching hpath).mp hm).1 hanc)
          omega
        · have hsame : m.folder.root = o.folder.root := by
            cases hp : path.root <;> cases hm : m.folder.root <;> cases ho : o.folder.root <;> simp_all
          rw [PosixPath.ext_parts hsame (hmparts.trans hparts.symm)]
      have hperm : (o :: bundle.policy.pathOverrides.erase o).Perm bundle.policy.pathOverrides :=
        (List.perm_cons_erase ho).symm
      obtain ⟨profile, _, hres, -, hdeep⟩ := h _ hperm
      obtain ⟨p, hp⟩ := Option.isSome_iff_exists.mp (hbundle.references o ho)
      have hfirst : resolveProfileForPath .posix (bundle.withOverrides _) path.asPosix = _ :=
        resolveProfileForPath_of_some (matchedOverride_first hmem hlongest) hp
      rw [hfirst] at hres
      obtain ⟨rfl, -⟩ := Prod.mk.inj (Option.some.inj hres)
      have hprofile := hdeep d (hd.perm hperm)
      exact .inr (hbundle.profile_inj ho (hp.trans hprofile))

end Resolved

/-- Every order of the overrides gives a path the profile of its deepest folder exactly when the
overrides of that folder name one profile, and no override for the root of the other kind is as long and
names another. -/
theorem resolveProfileForPath_deepest_iff {bundle : ConfigBundle} (hbundle : bundle.Valid)
    {path : PosixPath} (hpath : path.root ≠ .relative) :
    (∀ overrides, overrides.Perm bundle.policy.pathOverrides →
      ResolvesDeepest (bundle.withOverrides overrides) path ∧
      (resolveProfileForPath .posix (bundle.withOverrides overrides) path.asPosix).map (·.1) =
        (resolveProfileForPath .posix bundle path.asPosix).map (·.1)) ↔
      DeepestDecides bundle.policy.pathOverrides path := by
  constructor
  · exact fun h => deepestDecides_of_resolves hbundle hpath fun overrides hperm => (h overrides hperm).1
  · intro h overrides hperm
    have hself := h.resolvesDeepest hpath hbundle.references
    have hother : ResolvesDeepest (bundle.withOverrides overrides) path :=
      DeepestDecides.resolvesDeepest hpath
        (fun o ho => hbundle.references o (hperm.mem_iff.mp ho)) (h.perm hperm)
    exact ⟨hother, hother.map_fst_eq hperm hself⟩

/-! ### Overrides of films and series -/

/-- A bundle with the profiles `films` and `series`. -/
def mediaBundle (overrides : List PathProfileOverride) : ConfigBundle where
  policy := { transcodingPolicy with pathOverrides := overrides }
  profiles := [("films", { name := "films", description := "Films." }),
    ("series", { name := "series", description := "Series." })]

/-- A profile that sets nothing is accepted. -/
theorem emptyProfile_valid {name description : String} (hname : name ≠ "") (hdesc : description ≠ "") :
    ({ name := name, description := description } : ProfileConfig).Valid where
  name := hname
  description := hdesc
  subtitles := fun _ h => by cases h
  audio := fun _ h => by cases h
  non4k := fun _ _ h => by cases h
  fourK := fun _ _ h => by cases h

theorem mediaBundle_valid {overrides : List PathProfileOverride}
    (hok : ∀ o ∈ overrides, o.pathPrefix ≠ "" ∧ (o.profile = "films" ∨ o.profile = "series"))
    (hunique : (overrides.map (·.pathPrefix)).Nodup) : (mediaBundle overrides).Valid where
  policy := {
    version := transcodingPolicy_valid.version
    name := transcodingPolicy_valid.name
    subtitles := transcodingPolicy_valid.subtitles
    audio := transcodingPolicy_valid.audio
    video := transcodingPolicy_valid.video
    replacement := transcodingPolicy_valid.replacement
    overrides := fun o ho => by
      obtain ⟨hbefore, hname | hname⟩ := hok o ho
      · exact ⟨hbefore, by rw [hname]; decide⟩
      · exact ⟨hbefore, by rw [hname]; decide⟩
    uniquePathPrefixes := hunique }
  profiles name p hp := by
    simp only [ConfigBundle.profile, mediaBundle, List.lookup_cons, List.lookup_nil] at hp
    split at hp
    · next hname =>
      obtain rfl := Option.some.inj hp
      exact ⟨(beq_iff_eq.mp hname).symm, emptyProfile_valid (by decide) (by decide)⟩
    · split at hp
      · next hname =>
        obtain rfl := Option.some.inj hp
        exact ⟨(beq_iff_eq.mp hname).symm, emptyProfile_valid (by decide) (by decide)⟩
      · cases hp
  references o ho := by
    obtain ⟨-, hname | hname⟩ := hok o ho
    · rw [hname]
      rfl
    · rw [hname]
      rfl

/-- A folder in another: an episode has the profile of the inner one, in every order. -/
theorem resolveProfileForPath_deepest_iff_nested :
    DeepestDecides [⟨"/media", "films"⟩, ⟨"/media/tv", "series"⟩] (PosixPath.parse "/media/tv/episode.mkv") ∧
    ∀ overrides, overrides.Perm [⟨"/media", "films"⟩, ⟨"/media/tv", "series"⟩] →
      ResolvesDeepest ((mediaBundle [⟨"/media", "films"⟩, ⟨"/media/tv", "series"⟩]).withOverrides overrides)
        (PosixPath.parse "/media/tv/episode.mkv") ∧
      (resolveProfileForPath .posix
          ((mediaBundle [⟨"/media", "films"⟩, ⟨"/media/tv", "series"⟩]).withOverrides overrides)
          (PosixPath.parse "/media/tv/episode.mkv").asPosix).map (·.1) =
        (resolveProfileForPath .posix (mediaBundle [⟨"/media", "films"⟩, ⟨"/media/tv", "series"⟩])
          (PosixPath.parse "/media/tv/episode.mkv").asPosix).map (·.1) := by
  have hinner : ∀ o, IsDeepest [⟨"/media", "films"⟩, ⟨"/media/tv", "series"⟩]
      (PosixPath.parse "/media/tv/episode.mkv") o → o.profile = "series" := by
    intro o ho
    rcases List.mem_cons.mp ho.mem with rfl | hmem
    · exact absurd (ho.deepest ⟨"/media/tv", "series"⟩ (by decide) (by decide +kernel)) (by decide +kernel)
    · rw [List.mem_singleton.mp hmem]
  have hne : ∀ o ∈ ([⟨"/media", "films"⟩, ⟨"/media/tv", "series"⟩] : List PathProfileOverride),
      o.folder.parts ≠ [] := by decide +kernel
  have hdecides : DeepestDecides [⟨"/media", "films"⟩, ⟨"/media/tv", "series"⟩]
      (PosixPath.parse "/media/tv/episode.mkv") := by
    refine ⟨fun d d' hd hd' => ?_, fun o ho _ _ hparts => absurd hparts (hne o ho)⟩
    rw [hinner d hd, hinner d' hd']
  exact ⟨hdecides, (resolveProfileForPath_deepest_iff (mediaBundle_valid (by decide) (by decide))
    (by decide)).mpr hdecides⟩

/-- Two spellings of one folder are accepted as different overrides: the order decides. -/
theorem resolveProfileForPath_spellings :
    (mediaBundle [⟨"/media/tv", "films"⟩, ⟨"/media/tv/", "series"⟩]).Valid ∧
      (PosixPath.parse "/media/tv/episode.mkv").root ≠ .relative ∧
      ¬ ∀ overrides, overrides.Perm [⟨"/media/tv", "films"⟩, ⟨"/media/tv/", "series"⟩] →
        ResolvesDeepest
          ((mediaBundle [⟨"/media/tv", "films"⟩, ⟨"/media/tv/", "series"⟩]).withOverrides overrides)
          (PosixPath.parse "/media/tv/episode.mkv") ∧
        (resolveProfileForPath .posix
            ((mediaBundle [⟨"/media/tv", "films"⟩, ⟨"/media/tv/", "series"⟩]).withOverrides overrides)
            (PosixPath.parse "/media/tv/episode.mkv").asPosix).map (·.1) =
          (resolveProfileForPath .posix
            (mediaBundle [⟨"/media/tv", "films"⟩, ⟨"/media/tv/", "series"⟩])
            (PosixPath.parse "/media/tv/episode.mkv").asPosix).map (·.1) := by
  refine ⟨mediaBundle_valid (by decide) (by decide), by decide, fun h => ?_⟩
  have heq := (h _ (List.Perm.swap _ _ _)).2
  revert heq
  decide +kernel

end Encodr
