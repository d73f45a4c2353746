import Encodr.Api.PathMappings
import Encodr.Planning.Rules

/-!
# Dry runs

A dry-run job only probes and plans its file. The local worker plans it under the path of the server; a
remote worker gets the path translated for it and plans the file under that. Both read the bundle that the
job carries, and both leave files of the program itself alone.

A remote worker may run on another platform; what its `Path` makes of a text is `AgentPath`.

* `executeAnalysisJob`, `executeAnalysis`: the decision of the local worker and of a remote one.
* `matchedOverride_eq_some_iff`: the override that governs a path.
* `executeAnalysis_eq_iff`: when both decide the same.
-/

namespace Encodr

open Python Lib

/-! ## The two workers -/

/-- What a dry run decides. -/
structure PlanningDecision where
  action : PlanAction
  selectedStreams : SelectedStreamSet
  video : VideoPlan
  container : ContainerPlan
  selectedProfileName : Option String
deriving DecidableEq

def ProcessingPlan.decision (plan : ProcessingPlan) : PlanningDecision where
  action := plan.action
  selectedStreams := plan.selectedStreams
  video := plan.video
  container := plan.container
  selectedProfileName := plan.policyContext.selectedProfileName

/-- What is probed of a file at a path. -/
def MediaFile.at (media : MediaFile) (path : PosixPath) (name : String) : MediaFile :=
  { media with container := { media.container with filePath := path, fileName := name } }

@[simp] theorem MediaFile.at_filePath (media : MediaFile) (path : PosixPath) (name : String) :
    (media.at path name).container.filePath = path := rfl

/-- `encodr_exclusion_reason` of a name, without a scratch directory. -/
def exclusionReasonOfName (text : String) : Option String :=
  let name := lower text
  match exclusionMarks.find? fun (mark, _) => inText (mark ++ ".") name || endsWith name mark with
  | some (_, reason) => some reason
  | none =>
    if inText ".encodr-scratch." name || startsWith name "encodr-scratch." then
      some "Encodr scratch workspace files cannot be processed."
    else none

/-- `execute_analysis_job` of the local worker; there is no decision about a file that is skipped or whose
rules cannot be resolved. -/
def executeAnalysisJob (os : PathOs) (bundle : ConfigBundle) (media : MediaFile) (rename : RenamePlan)
    (sourcePath : PosixPath) : Option PlanningDecision :=
  if encodrExclusionReason sourcePath ≠ none then none
  else
    let mediaFile := media.at sourcePath sourcePath.name
    (resolvePlanningPolicy .posix bundle mediaFile (some (os.resolve sourcePath))).map fun policy =>
      (buildProcessingPlan mediaFile policy rename).decision

/-- `as_posix` and `name` of what `Path` makes of a text on the platform of a worker. -/
structure AgentPath extends PathFlavour where
  name : String → String

def AgentPath.posix : AgentPath := ⟨.posix, fun text => (PosixPath.parse text).name⟩

/-- `_execute_analysis` of a remote worker. -/
def executeAnalysis (agent : AgentPath) (bundle : ConfigBundle) (media : MediaFile) (rename : RenamePlan)
    (sourcePath : PosixPath) : Option PlanningDecision :=
  let name := agent.name sourcePath.asPosix
  if exclusionReasonOfName name ≠ none then none
  else
    let mediaFile := media.at sourcePath name
    (resolvePlanningPolicy agent.toPathFlavour bundle mediaFile none).map fun policy =>
      (buildProcessingPlan mediaFile policy rename).decision

/-- `_resolve_remote_source_path`. Without mappings and outside the mounts, a worker shares the paths of
the server. -/
def resolveRemoteSourcePath (os : PathOs) (mappings : List PathMapping) (mediaMounts : List PosixPath)
    (sourcePath : PosixPath) : Option PosixPath :=
  if mappings ≠ [] then remapServerPath os sourcePath mappings
  else
    let resolved := os.resolve (os.expanduser sourcePath)
    if mediaMounts.any fun mount => isUnder resolved (os.resolve (os.expanduser mount)) then some resolved
    else some sourcePath

/-- The decision of a remote worker about a file of the server; `none` when the worker cannot see it. -/
def remoteDecision (os : PathOs) (agent : AgentPath) (bundle : ConfigBundle) (media : MediaFile)
    (rename : RenamePlan) (mappings : List PathMapping) (mediaMounts : List PosixPath)
    (sourcePath : PosixPath) : Option (Option PlanningDecision) :=
  (resolveRemoteSourcePath os mappings mediaMounts sourcePath).map (executeAnalysis agent bundle media rename)

/-! ## The override of a path -/

/-- `o` governs a path: the path matches it, and it has the longest prefix of those that the path matches,
the first of several. -/
def Governs (flavour : PathFlavour) (overrides : List PathProfileOverride) (text : String)
    (o : PathProfileOverride) : Prop :=
  ∃ before after, overrides = before ++ o :: after ∧
    pathMatchesPrefix flavour text (flavour.asPosix o.pathPrefix) = true ∧
    (∀ b ∈ before, pathMatchesPrefix flavour text (flavour.asPosix b.pathPrefix) = true →
      (flavour.asPosix b.pathPrefix).length < (flavour.asPosix o.pathPrefix).length) ∧
    ∀ a ∈ after, pathMatchesPrefix flavour text (flavour.asPosix a.pathPrefix) = true →
      (flavour.asPosix a.pathPrefix).length ≤ (flavour.asPosix o.pathPrefix).length

section Governed

variable {flavour : PathFlavour} {overrides : List PathProfileOverride} {text : String}
  {o o' : PathProfileOverride}

theorem singleton_lt_singleton {m n : Nat} : [(m : Int)] < [(n : Int)] ↔ m < n := by
  simp [List.cons_lt_cons_iff]

theorem singleton_le_singleton {m n : Nat} : [(m : Int)] ≤ [(n : Int)] ↔ m ≤ n := by
  rw [← not_lt, singleton_lt_singleton, Nat.not_lt]

theorem matchedOverride_eq_some_iff :
    matchedOverride flavour overrides text = some o ↔ Governs flavour overrides text o := by
  rw [matchedOverride, maxBy_eq_some_iff_isFirstBest]
  constructor
  · rintro ⟨matched, rest, hsplit, hbefore, hafter⟩
    obtain ⟨before, tail, rfl, rfl, htail⟩ := List.filter_eq_append_iff.mp hsplit
    obtain ⟨skipped, after, rfl, hskipped, hmatch, rfl⟩ := List.filter_eq_cons_iff.mp htail
    refine ⟨before ++ skipped, after, by rw [List.append_assoc], hmatch, fun b hb hmatches => ?_,
      fun a ha hmatches => ?_⟩
    · rcases List.mem_append.mp hb with hb | hb
      · exact singleton_lt_singleton.mp (hbefore b (List.mem_filter.mpr ⟨hb, hmatches⟩))
      · exact absurd hmatches (hskipped b hb)
    · exact singleton_le_singleton.mp (hafter a (List.mem_filter.mpr ⟨ha, hmatches⟩))
  · rintro ⟨before, after, rfl, hmatch, hbefore, hafter⟩
    refine ⟨_, _, by rw [List.filter_append, List.filter_cons, if_pos hmatch], fun b hb => ?_,
      fun a ha => ?_⟩
    · obtain ⟨hb, hmatches⟩ := List.mem_filter.mp hb
      exact singleton_lt_singleton.mpr (hbefore b hb hmatches)
    · obtain ⟨ha, hmatches⟩ := List.mem_filter.mp ha
      exact singleton_le_singleton.mpr (hafter a ha hmatches)

/-- The name of the profile that governs a path. -/
theorem exists_governs_iff {name : String} :
    (∃ o, Governs flavour overrides text o ∧ o.profile = name) ↔
      (matchedOverride flavour overrides text).map (·.profile) = some name := by
  rw [Option.map_eq_some_iff]
  simp only [matchedOverride_eq_some_iff]

end Governed

/-! ## One decision for one profile -/

/-- The decision when a profile, or none, is merged into the policy. -/
def decisionUnder (bundle : ConfigBundle) (media : MediaFile) (profile : Option ProfileConfig) :
    PlanningDecision :=
  (buildProcessingPlan media (bundle.policy.resolved profile none media.container.filePath)
    { enabled := false }).decision

/-- The path is no part of a decision: only its profile is. -/
theorem decision_at (bundle : ConfigBundle) (media : MediaFile) (profile : Option ProfileConfig)
    (matchedPrefix : Option String) (path path' : PosixPath) (name : String) (rename : RenamePlan) :
    (buildProcessingPlan (media.at path name) (bundle.policy.resolved profile matchedPrefix path')
      rename).decision = decisionUnder bundle media profile :=
  rfl

theorem decisionUnder_name (bundle : ConfigBundle) (media : MediaFile) (profile : Option ProfileConfig) :
    (decisionUnder bundle media profile).selectedProfileName = profile.map (·.name) :=
  rfl

section Decided

variable {flavour : PathFlavour} {bundle : ConfigBundle} {media : MediaFile} {text : String}

/-- The profile that governs a text, by its name. -/
def governingProfile (flavour : PathFlavour) (bundle : ConfigBundle) (text : String) : Option ProfileConfig :=
  (matchedOverride flavour bundle.policy.pathOverrides text).bind fun o => bundle.profile o.profile

/-- In a loaded bundle the governing profile has the name that the override gives. -/
theorem governingProfile_name (h : bundle.Valid) :
    (governingProfile flavour bundle text).map (·.name) =
      (matchedOverride flavour bundle.policy.pathOverrides text).map (·.profile) := by
  unfold governingProfile
  cases hmatched : matchedOverride flavour bundle.policy.pathOverrides text with
  | none => rfl
  | some o =>
    obtain ⟨profile, hprofile⟩ := h.exists_profile hmatched
    rw [Option.bind_some, hprofile, Option.map_some, Option.map_some, (h.profiles _ _ hprofile).1]

/-- A name stands for one profile. -/
theorem governingProfile_congr {flavour' : PathFlavour} {text' : String}
    (hname : (matchedOverride flavour bundle.policy.pathOverrides text).map (·.profile) =
      (matchedOverride flavour' bundle.policy.pathOverrides text').map (·.profile)) :
    governingProfile flavour bundle text = governingProfile flavour' bundle text' := by
  have hbind : ∀ o : Option PathProfileOverride, o.bind (fun o => bundle.profile o.profile) =
      (o.map (·.profile)).bind bundle.profile := fun o => by cases o <;> rfl
  rw [governingProfile, governingProfile, hbind, hbind, hname]

/-- A file that is not skipped is decided under the profile that governs its path. -/
theorem resolved_decision (h : bundle.Valid) (path : PosixPath) (name : String)
    (sourcePath : Option PosixPath) (rename : RenamePlan) :
    ((resolvePlanningPolicy flavour bundle (media.at path name) sourcePath).map fun policy =>
      (buildProcessingPlan (media.at path name) policy rename).decision) =
    some (decisionUnder bundle media
      (governingProfile flavour bundle (sourcePath.getD (media.at path name).container.filePath).asPosix)) := by
  unfold governingProfile
  cases hmatched : matchedOverride flavour bundle.policy.pathOverrides
      (sourcePath.getD (media.at path name).container.filePath).asPosix with
  | none =>
    rw [resolvePlanningPolicy_of_none hmatched, Option.map_some, decision_at, Option.bind_none]
  | some o =>
    obtain ⟨profile, hprofile⟩ := h.exists_profile hmatched
    rw [resolvePlanningPolicy_of_some hmatched hprofile, Option.map_some, decision_at, Option.bind_some,
      hprofile]

/-- The decisions are the same for the same name. -/
theorem decisionUnder_eq_iff (h : bundle.Valid) {flavour' : PathFlavour} {text' : String} :
    decisionUnder bundle media (governingProfile flavour bundle text) =
        decisionUnder bundle media (governingProfile flavour' bundle text') ↔
      (matchedOverride flavour bundle.policy.pathOverrides text).map (·.profile) =
        (matchedOverride flavour' bundle.policy.pathOverrides text').map (·.profile) := by
  constructor
  · intro heq
    have hname : (governingProfile flavour bundle text).map (·.name) =
        (governingProfile flavour' bundle text').map (·.name) :=
      calc (governingProfile flavour bundle text).map (·.name)
        _ = (decisionUnder bundle media (governingProfile flavour bundle text)).selectedProfileName :=
          (decisionUnder_name bundle media _).symm
        _ = (decisionUnder bundle media (governingProfile flavour' bundle text')).selectedProfileName :=
          congrArg PlanningDecision.selectedProfileName heq
        _ = (governingProfile flavour' bundle text').map (·.name) := decisionUnder_name bundle media _
    rw [← governingProfile_name h, hname, governingProfile_name h]
  · intro hname
    exact congrArg (decisionUnder bundle media) (governingProfile_congr hname)

end Decided

/-! ## Whether the workers agree -/

/-- Both workers decide the same about a dry run where both leave the file alone, or neither does and one
profile, or none, governs the path of the server and the path of the worker. -/
theorem remoteDecision_eq_iff (os : PathOs) (agent : AgentPath) {bundle : ConfigBundle} (h : bundle.Valid)
    (media : MediaFile) (rename rename' : RenamePlan) (mappings : List PathMapping)
    (mediaMounts : List PosixPath) {sourcePath workerPath : PosixPath}
    (hpath : resolveRemoteSourcePath os mappings mediaMounts sourcePath = some workerPath) :
    remoteDecision os agent bundle media rename' mappings mediaMounts sourcePath =
        some (executeAnalysisJob os bundle media rename sourcePath) ↔
      (encodrExclusionReason sourcePath ≠ none ∧
        exclusionReasonOfName (agent.name workerPath.asPosix) ≠ none) ∨
      (encodrExclusionReason sourcePath = none ∧
        exclusionReasonOfName (agent.name workerPath.asPosix) = none ∧
        ∀ name, (∃ o, Governs agent.toPathFlavour bundle.policy.pathOverrides workerPath.asPosix o ∧
            o.profile = name) ↔
          ∃ o, Governs .posix bundle.policy.pathOverrides (os.resolve sourcePath).asPosix o ∧
            o.profile = name) := by
  have hnames : ∀ a b : Option String, (∀ name, a = some name ↔ b = some name) ↔ a = b :=
    fun a b => ⟨Option.ext, fun hab _ => by rw [hab]⟩
  simp only [exists_governs_iff]
  rw [hnames, remoteDecision, hpath, Option.map_some, Option.some_inj, executeAnalysis, executeAnalysisJob]
  by_cases hlocal : encodrExclusionReason sourcePath = none
  · by_cases hremote : exclusionReasonOfName (agent.name workerPath.asPosix) = none
    · simp only [hlocal, hremote, ne_eq, not_true_eq_false, if_false, false_and, false_or, true_and]
      rw [resolved_decision h, resolved_decision h, Option.some_inj, MediaFile.at_filePath, Option.getD_none,
        Option.getD_some]
      exact decisionUnder_eq_iff h
    · simp only [hlocal, hremote, ne_eq, not_true_eq_false, not_false_eq_true, if_true, if_false,
        false_and, and_false, or_false, iff_false]
      rw [resolved_decision h]
      exact nofun
  · by_cases hremote : exclusionReasonOfName (agent.name workerPath.asPosix) = none
    · simp only [hlocal, hremote, ne_eq, not_true_eq_false, not_false_eq_true, if_true, if_false,
        false_and, and_false, or_false, iff_false]
      rw [resolved_decision h]
      exact nofun
    · simp only [hlocal, hremote, ne_eq, not_false_eq_true, if_true, and_self, true_or]

/-- A worker that sees `/media` as `/mnt/media`, and `/srv` as `/mnt/srv`. -/
def mountedMappings : List PathMapping :=
  [⟨PosixPath.parse "/media", PosixPath.parse "/mnt/media"⟩, ⟨PosixPath.parse "/srv", PosixPath.parse "/mnt/srv"⟩]

/-- The profile for `/media/remux` only strips 4K files. -/
def stripOnlyBundle : ConfigBundle :=
  transcodingBundle remuxOverride (stripOnlyVideo (some false))

theorem stripOnlyBundle_isValid : stripOnlyBundle.Valid :=
  stripOnlyBundle_valid (some false)

/-- Outside `/media/remux` no profile governs the film, under either path. -/
theorem remoteDecision_eq_iff_outside :
    remoteDecision (lexicalOs (PosixPath.parse "/") id) .posix stripOnlyBundle film4k { enabled := false }
        mountedMappings [] (PosixPath.parse "/srv/film.mkv") =
      some (executeAnalysisJob (lexicalOs (PosixPath.parse "/") id) stripOnlyBundle film4k
        { enabled := false } (PosixPath.parse "/srv/film.mkv")) := by
  have hpath : resolveRemoteSourcePath (lexicalOs (PosixPath.parse "/") id) mountedMappings []
      (PosixPath.parse "/srv/film.mkv") = some (PosixPath.parse "/mnt/srv/film.mkv") := by decide +kernel
  refine (remoteDecision_eq_iff _ _ stripOnlyBundle_isValid _ _ _ _ _ hpath).mpr
    (.inr ⟨by decide +kernel, by decide +kernel, fun name => ?_⟩)
  have hremote : matchedOverride AgentPath.posix.toPathFlavour stripOnlyBundle.policy.pathOverrides
      (PosixPath.parse "/mnt/srv/film.mkv").asPosix = none := by decide +kernel
  have hlocal : matchedOverride .posix stripOnlyBundle.policy.pathOverrides
      ((lexicalOs (PosixPath.parse "/") id).resolve (PosixPath.parse "/srv/film.mkv")).asPosix = none := by
    decide +kernel
  rw [exists_governs_iff, exists_governs_iff, hremote, hlocal]

/-- Under `/media/remux` the local worker leaves the 4K film alone, and the remote worker, for which no
profile governs the film, plans to transcode it. -/
theorem remoteDecision_transcodes :
    stripOnlyBundle.Valid ∧
    (executeAnalysisJob (lexicalOs (PosixPath.parse "/") id) stripOnlyBundle film4k { enabled := false }
      (PosixPath.parse "/media/remux/film.mkv")).map (fun d => (d.action, d.selectedProfileName)) =
        some (.skip, some "remux") ∧
    (remoteDecision (lexicalOs (PosixPath.parse "/") id) .posix stripOnlyBundle film4k { enabled := false }
      mountedMappings [] (PosixPath.parse "/media/remux/film.mkv")).map
        (Option.map fun d => (d.action, d.selectedProfileName)) = some (some (.transcode, none)) :=
  ⟨stripOnlyBundle_isValid, by decide +kernel, by decide +kernel⟩

end Encodr
