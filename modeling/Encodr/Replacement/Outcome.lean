import Encodr.Replacement.Endings

/-!
# The outcome of `place_verified_output`

The paths of a placement, and every outcome of `placeVerifiedOutput` with the files it leaves.

* `backupPath_ne_source`, `inPlaceFinalPath_ne_backup`, `replacingPath_ne_final`: the paths of an
  in-place replacement differ.
* `InPlaceOutcome`, `placeVerifiedOutput_inPlace`: the outcomes of an in-place placement.
* `AlongsideOutcome`, `placeVerifiedOutput_alongside`: those of a placement alongside the source.
-/

namespace Encodr

open Python Lib

/-! ## The paths of a placement -/

theorem buildBackupPath_ok {source b : PosixPath} (h : buildBackupPath source = .ok b) :
    b.name = source.stem ++ ".encodr-backup" ++ source.suffix := by
  obtain ⟨-, hs, rfl⟩ := PosixPath.withName_ok h
  simp

theorem inPlaceFinalPath_ok {source f : PosixPath} {container : OutputContainer}
    (h : inPlaceFinalPath source container = .ok f) :
    f.name = source.stem ++ ("." ++ container.value) := by
  obtain ⟨-, hs, rfl⟩ := PosixPath.withSuffix_ok h
  simp

theorem replacingPath_ok {b t : PosixPath} {hex : String} (h : replacingPath b hex = .ok t) :
    t.name = b.name ++ ".replacing-" ++ hex ++ ".tmp" := by
  obtain ⟨-, hs, rfl⟩ := PosixPath.withName_ok h
  simp

theorem name_eq (p : PosixPath) : p.name = p.stem ++ p.suffix :=
  (stem_append_suffix p.name).symm

/-- A backup has a longer name than its source. -/
theorem backupPath_ne_source {source b : PosixPath} (h : buildBackupPath source = .ok b) :
    b ≠ source := by
  refine PosixPath.name_ne ?_
  rw [buildBackupPath_ok h, name_eq source]
  intro heq
  have := congrArg (·.toList.length) heq
  simp only [String.toList_append, List.length_append] at this
  have hl : ".encodr-backup".toList.length = 14 := rfl
  omega

/-- The two texts a stem can be followed by differ in their second character. -/
theorem stem_dot_ne_stem_backup (stem rest : String) (container : OutputContainer) :
    stem ++ ("." ++ container.value) ≠ stem ++ ".encodr-backup" ++ rest := by
  rw [String.append_assoc]
  intro h
  have h2 := congrArg (·.toList[1]?) ((String.append_right_inj stem).mp h)
  simp only [String.toList_append] at h2
  have hb : (".encodr-backup".toList ++ rest.toList)[1]? = some 'e' := rfl
  have hc : (".".toList ++ container.value.toList)[1]? = some 'm' := by cases container <;> rfl
  rw [hb, hc] at h2
  exact absurd h2 (by decide)

theorem inPlaceFinalPath_ne_backup {source f b : PosixPath} {container : OutputContainer}
    (hf : inPlaceFinalPath source container = .ok f) (hb : buildBackupPath source = .ok b) :
    f ≠ b := by
  refine PosixPath.name_ne ?_
  rw [inPlaceFinalPath_ok hf, buildBackupPath_ok hb]
  exact stem_dot_ne_stem_backup _ _ _

theorem replacingPath_ne_final {source f b t : PosixPath} {container : OutputContainer}
    {hex : String} (hf : inPlaceFinalPath source container = .ok f)
    (hb : buildBackupPath source = .ok b) (ht : replacingPath b hex = .ok t) : t ≠ f := by
  refine PosixPath.name_ne ?_
  rw [inPlaceFinalPath_ok hf, replacingPath_ok ht, buildBackupPath_ok hb]
  simp only [String.append_assoc]
  exact fun h => stem_dot_ne_stem_backup source.stem _ container (h.symm.trans (by
    simp only [String.append_assoc]; rfl))

/-- The final path of a placement. -/
def finalOutputPath (source : PosixPath) (plan : ProcessingPlan) : Except ValueError PosixPath :=
  if plan.replace.inPlace then inPlaceFinalPath source plan.container.targetContainer
  else alongsideFinalPath source plan.container.targetContainer

/-- The staged output is not at the source path, the final path or the backup path. -/
structure StagedApart (source staged : PosixPath) (plan : ProcessingPlan) : Prop where
  ne_source : staged ≠ source
  ne_final : ∀ f, finalOutputPath source plan = .ok f → staged ≠ f
  ne_backup : ∀ b, buildBackupPath source = .ok b → staged ≠ b

/-- A staged output in another directory than its source is apart from it. -/
theorem StagedApart.of_directory {source staged : PosixPath} {plan : ProcessingPlan}
    (h : staged.directory ≠ source.directory) : StagedApart source staged plan where
  ne_source := fun heq => h (heq ▸ rfl)
  ne_final := by
    rintro f hf rfl
    refine h ?_
    unfold finalOutputPath at hf
    split at hf
    · obtain ⟨-, hs, rfl⟩ := PosixPath.withSuffix_ok hf
      simp
    · obtain ⟨-, hs, rfl⟩ := PosixPath.withName_ok hf
      simp
  ne_backup := by
    rintro b hb rfl
    obtain ⟨-, hs, rfl⟩ := PosixPath.withName_ok hb
    exact h (by simp)

/-! ## In place -/

section Outcomes

variable {C : Type} (F : Faults Site C) (fs₀ : Files PosixPath C) (source staged : PosixPath)
  (plan : ProcessingPlan) (draws : List String)

/-- `p` are the paths of the in-place replacement of `source` under `plan`. -/
structure PathsOf (p : InPlacePaths) : Prop where
  source_eq : p.sourcePath = source
  staged_eq : p.stagedOutputPath = staged
  final_eq : inPlaceFinalPath source plan.container.targetContainer = .ok p.finalOutputPath
  backup_eq : buildBackupPath source = .ok p.backupPath

/-- What `place_verified_output` makes of an error: a replacement error is a failed result, any
other is raised. -/
def Raised.outcome : Raised → Except Raised ReplacementResult
  | .replacement error => .ok error.result
  | e => .error e

/-- The outcomes of an in-place placement. -/
inductive InPlaceOutcome : Except Raised ReplacementResult → Files PosixPath C → Prop
  | absent {r : ReplacementResult} (hr : r.status = .failed)
      (h : fs₀ staged = none ∨ fs₀ source = none) : InPlaceOutcome (.ok r) fs₀
  | noPath {e : ValueError} (h : ¬ ∃ p, PathsOf source staged plan p) :
      InPlaceOutcome (.error (.value e)) fs₀
  | placed {p : InPlacePaths} {orig out : C} {r : ReplacementResult} {fs : Files PosixPath C}
      (hp : PathsOf source staged plan p) (hs : InPlaceStart fs₀ p orig out)
      (h : Placed F fs₀ p plan.replace draws out r fs) : InPlaceOutcome (.ok r) fs
  | failed {p : InPlacePaths} {orig out : C} {e : Raised} {fs : Files PosixPath C}
      (hp : PathsOf source staged plan p) (hs : InPlaceStart fs₀ p orig out)
      (h : Failed F fs₀ p plan.replace.existingBackupStrategy draws e fs) :
      InPlaceOutcome e.outcome fs

variable {F fs₀ source staged plan draws}

/-- `placeVerifiedOutput` turns what its branch returns or raises into its outcome. -/
theorem placeVerifiedOutput_outcome {O : Except Raised ReplacementResult → Files PosixPath C → Prop}
    (hmissing : ∀ r : ReplacementResult, r.status = .failed → fs₀ staged = none → O (.ok r) fs₀)
    (hbranch : ∀ out, fs₀ staged = some out → Triple F (· = fs₀)
      (if plan.replace.inPlace then replaceInPlace source staged plan draws
        else placeAlongsideOriginal source staged plan)
      (fun r fs => O (.ok r) fs) (fun e fs => O e.outcome fs)) :
    O (placeVerifiedOutput source staged plan draws F fs₀).1
      (placeVerifiedOutput source staged plan draws F fs₀).2 := by
  refine Triple.run (A := (· = fs₀)) ?_ rfl
  unfold placeVerifiedOutput
  refine Triple.has_bind (Triple.ite (fun hst => ?_) fun hst => Triple.pure ?_)
  · obtain ⟨out, hout⟩ := Files.has_eq_true.mp hst
    refine Triple.attempt_bind (hbranch out hout) (fun _ => Triple.pure fun _ h => h) fun e => ?_
    cases e with
    | replacement error => exact Triple.pure fun _ h => h
    | value e => exact Triple.throw fun _ h => h
    | drawing => exact Triple.throw fun _ h => h
  · rintro _ rfl
    exact hmissing _ rfl (by simpa [Files.has] using hst)

theorem replaceInPlace_spec {out : C} (hin : plan.replace.inPlace = true)
    (hapart : StagedApart source staged plan) (hout : fs₀ staged = some out) :
    Triple F (· = fs₀) (replaceInPlace source staged plan draws)
      (fun r fs => InPlaceOutcome F fs₀ source staged plan draws (.ok r) fs)
      (fun e fs => InPlaceOutcome F fs₀ source staged plan draws e.outcome fs) := by
  unfold replaceInPlace
  refine Triple.has_bind (Triple.ite (fun hsrc => ?_) fun hsrc => Triple.throw ?_)
  · obtain ⟨orig, horig⟩ := Files.has_eq_true.mp hsrc
    cases hf : inPlaceFinalPath source plan.container.targetContainer with
    | error e =>
      refine Triple.throw ?_
      rintro _ rfl
      refine .noPath fun h => ?_
      obtain ⟨p, hp⟩ := h
      cases hf.symm.trans hp.final_eq
    | ok f =>
      cases hb : buildBackupPath source with
      | error e =>
        refine Triple.throw ?_
        rintro _ rfl
        refine .noPath fun h => ?_
        obtain ⟨p, hp⟩ := h
        cases hb.symm.trans hp.backup_eq
      | ok b =>
        have hp : PathsOf source staged plan ⟨source, staged, f, b⟩ := ⟨rfl, rfl, hf, hb⟩
        have hs : InPlaceStart fs₀ ⟨source, staged, f, b⟩ orig out :=
          { source := horig
            staged := hout
            source_ne_backup := (backupPath_ne_source hb).symm
            final_ne_backup := inPlaceFinalPath_ne_backup hf hb
            staged_ne_source := hapart.ne_source
            staged_ne_final := hapart.ne_final f (by simp [finalOutputPath, hin, hf])
            staged_ne_backup := hapart.ne_backup b hb }
        exact Triple.conseq (replaceAtPaths_ending hs) (fun _ h => h)
          (fun _ _ h => .placed hp hs h) fun _ _ h => .failed hp hs h
  · rintro _ rfl
    exact .absent rfl (.inr (by simpa [Files.has] using hsrc))

variable (F fs₀ draws) in
/-- Every outcome of an in-place placement. -/
theorem placeVerifiedOutput_inPlace (hin : plan.replace.inPlace = true)
    (hapart : StagedApart source staged plan) :
    InPlaceOutcome F fs₀ source staged plan draws
      (placeVerifiedOutput source staged plan draws F fs₀).1
      (placeVerifiedOutput source staged plan draws F fs₀).2 := by
  refine placeVerifiedOutput_outcome (fun r hr h => .absent hr (.inl h)) fun out hout => ?_
  simpa only [hin, if_true] using replaceInPlace_spec hin hapart hout

/-! ## Alongside the source -/

variable (F fs₀ source staged plan) in
/-- The outcomes of a placement alongside the source. -/
inductive AlongsideOutcome : Except Raised ReplacementResult → Files PosixPath C → Prop
  | refused {r : Except Raised ReplacementResult} (hr : ∀ res, r = .ok res → res.status = .failed)
      (h : ∀ f, alongsideFinalPath source plan.container.targetContainer = .ok f →
        fs₀ staged = none ∨ fs₀ f ≠ none) : AlongsideOutcome r fs₀
  | placed {f : PosixPath} {out : C} {r : ReplacementResult} {fs : Files PosixPath C}
      (hf : alongsideFinalPath source plan.container.targetContainer = .ok f)
      (hout : fs₀ staged = some out) (hfree : fs₀ f = none) (hm : OutputMoves F)
      (hfs : fs = fs₀.move staged f out ∨ fs = Function.update fs₀ f (some out))
      (hr : r.status = .succeeded) (hd : r.deletedOriginalSource = false)
      (hb : r.originalBackupPath = none) : AlongsideOutcome (.ok r) fs
  | failed {f : PosixPath} {out : C} {r : ReplacementResult}
      (hf : alongsideFinalPath source plan.container.targetContainer = .ok f)
      (hout : fs₀ staged = some out) (hfree : fs₀ f = none) (hm : ¬ OutputMoves F)
      (hr : r.status = .failed) : AlongsideOutcome (.ok r) (afterFailedMove F f fs₀)

theorem placeAlongsideOriginal_spec {out : C} (hin : plan.replace.inPlace = false)
    (hapart : StagedApart source staged plan) (hout : fs₀ staged = some out) :
    Triple F (· = fs₀) (placeAlongsideOriginal source staged plan)
      (fun r fs => AlongsideOutcome F fs₀ source staged plan (.ok r) fs)
      (fun e fs => AlongsideOutcome F fs₀ source staged plan e.outcome fs) := by
  unfold placeAlongsideOriginal
  cases hf : alongsideFinalPath source plan.container.targetContainer with
  | error e =>
    refine Triple.throw ?_
    rintro _ rfl
    exact .refused (fun _ h => by cases h) fun f h => by simp [hf] at h
  | ok f =>
    have hne : staged ≠ f := hapart.ne_final f (by simp [finalOutputPath, hin, hf])
    refine Triple.has_bind (Triple.ite (fun hb => Triple.throw ?_) fun hb => ?_)
    · rintro _ rfl
      refine .refused (fun _ h => ?_) fun f' h => .inr ?_
      · cases h
        rfl
      · obtain rfl : f = f' := by simpa [hf] using h
        simpa [Files.has, Option.isSome_iff_ne_none] using hb
    have hfree : fs₀ f = none := by simpa [Files.has] using hb
    refine Triple.attempt_bind (moveGeneratedOutput_spec hne hout) ?_ ?_
    · intro _
      exact Triple.pure fun _ h => .placed hf hout hfree h.1 h.2 rfl rfl rfl
    · intro error
      refine Triple.lift fun hm => Triple.effect_bind (fun _ => failureDetails_spec) fun _ =>
        Triple.throw ?_
      rintro _ rfl
      exact .failed hf hout hfree hm rfl

variable (F fs₀ draws) in
/-- Every outcome of a placement alongside the source. -/
theorem placeVerifiedOutput_alongside (hin : plan.replace.inPlace = false)
    (hapart : StagedApart source staged plan) :
    AlongsideOutcome F fs₀ source staged plan
      (placeVerifiedOutput source staged plan draws F fs₀).1
      (placeVerifiedOutput source staged plan draws F fs₀).2 := by
  refine placeVerifiedOutput_outcome (fun r hr h => .refused ?_ fun _ _ => .inl h) fun out hout => ?_
  · rintro res ⟨⟩
    exact hr
  · simpa only [hin, Bool.false_eq_true, if_false] using placeAlongsideOriginal_spec hin hapart hout

end Outcomes

end Encodr
