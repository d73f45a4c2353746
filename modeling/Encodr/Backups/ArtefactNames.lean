import Encodr.Db.FileQueries
import Encodr.Execution.FfmpegBuilder
import Encodr.Replacement.Outcome

/-!
# The names of artefacts

The replacement service and the command builder name the files of the program after the source. The scan
knows such files by their names, and takes the source of a backup from the name of the backup.

* `sourcePathForBackup`: the source of a backup.
* `dotted_beside_stem`: the marks in the names of the outputs stand before the last dot of the source.
* `artefactNames_consistent`: what is written and what is read agree.
-/

namespace Encodr

open Python

/-- `_source_path_for_backup`. -/
def sourcePathForBackup (backupPath : PosixPath) : Except ValueError PosixPath :=
  let name := backupPath.name
  let marker := ".encodr-backup" ++ backupPath.suffix
  if endsWith (lower name) (lower marker) then
    backupPath.withName (String.ofList (name.toList.take (name.length - marker.length)) ++ backupPath.suffix)
  else .ok backupPath

/-! ## Marks before the last dot -/

section Dotted

variable {front mark stem ext : List Char}

/-- What ends with a dot stands before the last dot. -/
theorem dotted_before_ext (hdot : '.' ∉ ext) (h : front ++ ['.'] <+: stem ++ '.' :: ext) :
    front ++ ['.'] <+: stem ++ ['.'] := by
  obtain ⟨rest, hrest⟩ := h
  have hsplit : (front ++ ['.']) ++ rest = (stem ++ ['.']) ++ ext := by rw [hrest]; simp
  rcases List.append_eq_append_iff.mp hsplit with ⟨more, hstem, -⟩ | ⟨more, hfront, hext⟩
  · exact ⟨more, hstem.symm⟩
  · by_cases hmore : more = []
    · rw [hfront, hmore, List.append_nil]
    · have hlast := congrArg List.getLast? hfront
      rw [List.getLast?_concat, List.getLast?_append_of_ne_nil _ hmore] at hlast
      have hmem : '.' ∈ ext := by
        rw [hext]
        exact List.mem_append_left _ (List.mem_of_getLast? hlast.symm)
      exact absurd hmem hdot

/-- What stands in the name of an output beside its source stands in the name of the source, unless it
ends with the mark of the output. -/
theorem dotted_beside_stem (hdot : '.' ∉ ext) (hlast : front.getLast? ≠ some 'r')
    (h : front ++ ['.'] <+: stem ++ ".encodr.".toList ++ ext) : front ++ ['.'] <+: stem ++ ['.'] := by
  have hname : stem ++ ".encodr.".toList ++ ext = (stem ++ ".encodr".toList) ++ '.' :: ext := by simp
  rw [hname] at h
  have hinner := dotted_before_ext hdot h
  rcases List.prefix_concat_iff.mp hinner with heq | hpre
  · have hfront := (List.append_inj' heq rfl).1
    rw [hfront, List.getLast?_append_of_ne_nil _ (by decide)] at hlast
    exact absurd rfl hlast
  · have hencodr : stem ++ ".encodr".toList = stem ++ '.' :: "encodr".toList := rfl
    rw [hencodr] at hpre
    exact dotted_before_ext (by decide) hpre

/-- A name ends with a mark only where its suffix is the mark. -/
theorem suffix_eq_of_endsWith (hdot : '.' ∉ ext) (hmark : '.' ∉ mark)
    (h : '.' :: mark <:+ stem ++ '.' :: ext) : mark = ext := by
  have hext : '.' :: ext <:+ stem ++ '.' :: ext := List.suffix_append stem _
  rcases List.suffix_or_suffix_of_suffix h hext with h | h
  · rcases List.suffix_cons_iff.mp h with heq | hin
    · exact (List.cons.inj heq).2
    · exact absurd (hin.subset List.mem_cons_self) hdot
  · rcases List.suffix_cons_iff.mp h with heq | hin
    · exact (List.cons.inj heq).2.symm
    · exact absurd (hin.subset List.mem_cons_self) hmark

end Dotted

/-! ## Excluded names -/

theorem isEncodrExcludedPath_iff (path : PosixPath) : isEncodrExcludedPath path = true ↔
    hasMark path.name = true ∨ endsWithMark path.name = true ∨ isScratchName path.name = true := by
  rw [isEncodrExcludedPath, Option.isSome_iff_ne_none, Ne, encodrExclusionReason_none_iff]
  cases hasMark path.name <;> cases endsWithMark path.name <;> cases isScratchName path.name <;> simp

/-- The marks start with their only dot and do not end like the mark of an output. -/
theorem mark_shape : ∀ mark ∈ exclusionMarks, ∃ word, mark.1.toList = '.' :: word ∧ '.' ∉ word ∧
    mark.1.toList.getLast? ≠ some 'r' ∧ word ≠ OutputContainer.mkv.value.toList ∧
    word ≠ OutputContainer.mp4.value.toList := by
  intro mark hmem
  refine ⟨mark.1.toList.tail, ?_⟩
  revert mark
  decide +kernel

theorem dot_not_mem_value (container : OutputContainer) : '.' ∉ container.value.toList := by
  cases container <;> decide

theorem lower_value (container : OutputContainer) :
    container.value.toList.map lowerChar = container.value.toList := by
  cases container <;> decide

/-- Where all that stands before a dot of one name stands before a dot of the other, and the one name does
not end with a mark, it is excluded only if the other is. -/
theorem excluded_of_dotted {source final : PosixPath} (hends : endsWithMark final.name = false)
    (hdots : ∀ front : List Char, front.getLast? ≠ some 'r' →
      front ++ ['.'] <+: (lower final.name).toList → front ++ ['.'] <+: (lower source.name).toList)
    (h : isEncodrExcludedPath final = true) : isEncodrExcludedPath source = true := by
  have hwithin : ∀ word : String, word.toList ≠ [] → word.toList.getLast? ≠ some 'r' →
      inText (word ++ ".") (lower final.name) = true →
      inText (word ++ ".") (lower source.name) = true := by
    intro word hne hlast hin
    rw [inText, decide_eq_true_eq] at hin ⊢
    obtain ⟨front, rest, hrest⟩ := hin
    have hpre : (front ++ word.toList) ++ ['.'] <+: (lower final.name).toList :=
      ⟨rest, by rw [← hrest]; simp⟩
    have hlast' : (front ++ word.toList).getLast? ≠ some 'r' := by
      rwa [List.getLast?_append_of_ne_nil _ hne]
    obtain ⟨more, hmore⟩ := hdots _ hlast' hpre
    exact ⟨front, more, by rw [← hmore]; simp⟩
  rw [isEncodrExcludedPath_iff] at h ⊢
  rcases h with h | h | h
  · obtain ⟨mark, hmem, hin⟩ := List.any_eq_true.mp h
    obtain ⟨word, hword, -, hlast, -⟩ := mark_shape mark hmem
    exact .inl (List.any_eq_true.mpr ⟨mark, hmem, hwithin mark.1 (by rw [hword]; simp) hlast hin⟩)
  · rw [hends] at h
    cases h
  · right
    right
    rw [isScratchName, Bool.or_eq_true] at h ⊢
    rcases h with h | h
    · exact .inl (hwithin ".encodr-scratch" (by decide) (by decide) h)
    · rw [startsWith, decide_eq_true_eq] at h
      exact .inr (decide_eq_true (hdots "encodr-scratch".toList (by decide) h))

/-- A name whose suffix is that of a container does not end with a mark. -/
theorem endsWithMark_eq_false {name : String} {stem : List Char} {container : OutputContainer}
    (h : (lower name).toList = stem ++ '.' :: container.value.toList) : endsWithMark name = false := by
  refine List.any_eq_false.mpr fun mark hmem hends => ?_
  obtain ⟨word, hword, hdot, -, hmkv, hmp4⟩ := mark_shape mark hmem
  rw [endsWith, decide_eq_true_eq, hword, h] at hends
  have hword' := suffix_eq_of_endsWith (dot_not_mem_value container) hdot hends
  cases container with
  | mkv => exact hmkv hword'
  | mp4 => exact hmp4 hword'

/-! ## The paths of a source -/

/-- The name of a staged output. -/
theorem name_buildTempOutputPath (source scratchDir : PosixPath) (container : OutputContainer)
    (jobId : Option String) :
    ∃ front, (buildTempOutputPath source scratchDir container jobId).name =
      front ++ (".tmp." ++ container.value) := by
  have hslash : '/' ∉ (".tmp." ++ container.value).toList := by cases container <;> decide
  obtain ⟨before, last, hsplit⟩ := exists_split_append hslash (source.stem ++ "." ++ textOr jobId "pending")
  refine ⟨last, ?_⟩
  have hvalid : ValidPart (last ++ (".tmp." ++ container.value)) := by
    refine validPart_of_length ?_ (not_mem_of_mem_split (by rw [hsplit]; simp))
    have hlength : ".tmp.".toList.length = 5 := rfl
    simp only [String.toList_append, List.length_append]
    omega
  have htext : source.stem ++ "." ++ textOr jobId "pending" ++ ".tmp." ++ container.value =
      source.stem ++ "." ++ textOr jobId "pending" ++ (".tmp." ++ container.value) := by
    simp only [String.append_assoc]
  have hparts : (buildTempOutputPath source scratchDir container jobId).parts =
      scratchDir.parts ++ PosixPath.validParts before ++ [last ++ (".tmp." ++ container.value)] := by
    rw [buildTempOutputPath, htext, hsplit]
    simp [PosixPath.joinpath, PosixPath.validParts, hvalid]
  rw [PosixPath.name, hparts, List.getLast?_concat, Option.getD_some]

/-- The parts of a file name that has a suffix. -/
structure NameParts (source : PosixPath) (stem ext : List Char) : Prop where
  stem_ne : stem ≠ []
  ext_ne : ext ≠ []
  dot : '.' ∉ ext
  name_eq : source.name = String.ofList (stem ++ '.' :: ext)

namespace NameParts

variable {source : PosixPath} {stem ext : List Char} (parts : NameParts source stem ext)

include parts

theorem stem_eq : source.stem = String.ofList stem := by
  rw [PosixPath.stem, parts.name_eq, stemOf_eq parts.stem_ne parts.ext_ne parts.dot]

theorem suffix_eq : source.suffix = String.ofList ('.' :: ext) := by
  rw [PosixPath.suffix, parts.name_eq, suffixOf_eq parts.stem_ne parts.ext_ne parts.dot]

theorem name_ne : source.name ≠ "" := by
  intro hname
  have hlength := congrArg (·.toList.length) hname
  rw [parts.name_eq] at hlength
  simp at hlength

theorem parts_ne : source.parts ≠ [] := fun hnil =>
  parts.name_ne (by rw [PosixPath.name, hnil]; rfl)

theorem parts_eq : source.parts = source.directory ++ [source.name] := by
  rw [PosixPath.directory, PosixPath.name, List.getLast?_eq_some_getLast parts.parts_ne, Option.getD_some]
  exact (List.dropLast_append_getLast parts.parts_ne).symm

theorem validPart_name : ValidPart source.name :=
  source.parts_ok _ (by rw [parts.parts_eq]; simp)

theorem slash_not_mem_stem : '/' ∉ stem := fun hmem => by
  have hname := parts.validPart_name.2.2
  rw [parts.name_eq, String.toList_ofList] at hname
  exact hname (List.mem_append_left _ hmem)

theorem slash_not_mem_ext : '/' ∉ ext := fun hmem => by
  have hname := parts.validPart_name.2.2
  rw [parts.name_eq, String.toList_ofList] at hname
  exact hname (List.mem_append_right _ (List.mem_cons_of_mem _ hmem))

/-- The stem with a text after it that starts with a dot is a name. -/
theorem validPart_stem_append {tail : String} (hdot : tail.toList.head? = some '.') (h : '/' ∉ tail.toList) :
    ValidPart (source.stem ++ tail) := by
  have hpos := List.length_pos_iff.mpr parts.stem_ne
  obtain ⟨rest, hrest⟩ := List.head?_eq_some_iff.mp hdot
  have hlength : 2 ≤ (source.stem ++ tail).toList.length := by
    rw [parts.stem_eq, String.toList_append, hrest, String.toList_ofList, List.length_append, List.length_cons]
    omega
  refine validPart_of_length hlength ?_
  rw [parts.stem_eq, String.toList_append, String.toList_ofList, List.mem_append, not_or]
  exact ⟨parts.slash_not_mem_stem, h⟩

/-- The path with its own name. -/
theorem withLast_name {other : PosixPath} (hroot : other.root = source.root)
    (hdir : other.directory = source.directory) : other.withLast source.name parts.validPart_name = source := by
  refine PosixPath.ext_parts hroot ?_
  rw [parts.parts_eq, ← hdir]
  rfl

/-- The backup of a file. -/
theorem backup : ∃ backup, buildBackupPath source = .ok backup ∧ backup.root = source.root ∧
    backup.directory = source.directory ∧
    NameParts backup (stem ++ ".encodr-backup".toList) ext := by
  have htail : ".encodr-backup" ++ source.suffix = String.ofList (".encodr-backup".toList ++ '.' :: ext) := by
    rw [parts.suffix_eq, String.ofList_append, String.ofList_toList]
  have hvalid : ValidPart (source.stem ++ (".encodr-backup" ++ source.suffix)) := by
    refine parts.validPart_stem_append (by rw [htail, String.toList_ofList]; rfl) ?_
    rw [htail, String.toList_ofList, List.mem_append, List.mem_cons]
    rintro (h | h | h)
    · exact absurd h (by decide)
    · exact absurd h (by decide)
    · exact parts.slash_not_mem_ext h
  rw [← String.append_assoc] at hvalid
  refine ⟨source.withLast _ hvalid, ?_, rfl, PosixPath.directory_withLast _ _ _, ?_⟩
  · rw [buildBackupPath, PosixPath.withName, if_neg parts.name_ne, dif_pos hvalid]
  · refine ⟨by simp [parts.stem_ne], parts.ext_ne, parts.dot, ?_⟩
    rw [PosixPath.name_withLast, String.append_assoc, htail, parts.stem_eq, ← String.ofList_append,
      List.append_assoc]

/-- The name of a file in small letters. -/
theorem toList_lower_name : (lower source.name).toList = stem.map lowerChar ++ '.' :: ext.map lowerChar := by
  rw [parts.name_eq, toList_lower, String.toList_ofList, List.map_append, List.map_cons,
    lowerChar_eq_dot.mpr rfl]

/-- The source of a backup is the path the backup was named after. -/
theorem sourcePathForBackup_eq {backup : PosixPath} (hroot : backup.root = source.root)
    (hdir : backup.directory = source.directory)
    (hbackup : NameParts backup (stem ++ ".encodr-backup".toList) ext) :
    sourcePathForBackup backup = .ok source := by
  have hmarker : ".encodr-backup" ++ backup.suffix = String.ofList (".encodr-backup".toList ++ '.' :: ext) := by
    rw [hbackup.suffix_eq, String.ofList_append, String.ofList_toList]
  have hname : backup.name.toList = stem ++ (".encodr-backup".toList ++ '.' :: ext) := by
    rw [hbackup.name_eq, String.toList_ofList, List.append_assoc]
  have hends : endsWith (lower backup.name) (lower (".encodr-backup" ++ backup.suffix)) = true := by
    rw [endsWith, decide_eq_true_eq, toList_lower, toList_lower, hmarker, hname, String.toList_ofList]
    exact (List.suffix_append stem _).map lowerChar
  have htake : backup.name.length - (".encodr-backup" ++ backup.suffix).length = stem.length := by
    rw [← String.length_toList, ← String.length_toList, hmarker, hname, String.toList_ofList,
      String.toList_ofList, List.length_append, Nat.add_sub_cancel]
  have hsource : String.ofList (backup.name.toList.take
      (backup.name.length - (".encodr-backup" ++ backup.suffix).length)) ++ backup.suffix = source.name := by
    rw [htake, hname, List.take_left, hbackup.suffix_eq, parts.name_eq, ← String.ofList_append]
  rw [sourcePathForBackup, if_pos hends, hsource, PosixPath.withName, if_neg hbackup.name_ne,
    dif_pos parts.validPart_name, parts.withLast_name hroot hdir]

/-- An output in the place of the source. -/
theorem inPlace (container : OutputContainer) : ∃ final, inPlaceFinalPath source container = .ok final ∧
    (lower final.name).toList = stem.map lowerChar ++ '.' :: container.value.toList := by
  have hslash : '/' ∉ ("." ++ container.value).toList := by cases container <;> decide
  have hdot : ("." ++ container.value).toList.head? = some '.' := by cases container <;> rfl
  have hne : "." ++ container.value ≠ "." := by cases container <;> decide
  have hvalid := parts.validPart_stem_append hdot hslash
  refine ⟨source.withLast _ hvalid, ?_, ?_⟩
  · rw [inPlaceFinalPath, PosixPath.withSuffix, if_neg hslash, if_neg (by simp [hne]),
      if_neg parts.name_ne, dif_pos hvalid]
  · rw [PosixPath.name_withLast, parts.stem_eq, toList_lower, String.toList_append, String.toList_ofList,
      String.toList_append, List.map_append, List.map_append, lower_value]
    rfl

/-- An output beside the source. -/
theorem alongside (container : OutputContainer) : ∃ final, alongsideFinalPath source container = .ok final ∧
    (lower final.name).toList = stem.map lowerChar ++ ".encodr.".toList ++ container.value.toList := by
  have hslash : '/' ∉ (".encodr." ++ container.value).toList := by cases container <;> decide
  have hdot : (".encodr." ++ container.value).toList.head? = some '.' := by cases container <;> rfl
  have hvalid := parts.validPart_stem_append hdot hslash
  rw [← String.append_assoc] at hvalid
  refine ⟨source.withLast _ hvalid, ?_, ?_⟩
  · rw [alongsideFinalPath, PosixPath.withName, if_neg parts.name_ne, dif_pos hvalid]
  · have hmark : ".encodr.".toList.map lowerChar = ".encodr.".toList := by decide
    rw [PosixPath.name_withLast, parts.stem_eq, toList_lower, String.toList_append, String.toList_append,
      String.toList_ofList, List.map_append, List.map_append, lower_value, hmark]

/-- What stands before the last dot of the stem stands in the name. -/
theorem dotted_in_name {front : List Char} (h : front ++ ['.'] <+: stem.map lowerChar ++ ['.']) :
    front ++ ['.'] <+: (lower source.name).toList := by
  rw [parts.toList_lower_name]
  exact h.trans ⟨ext.map lowerChar, by simp⟩

/-- An output in the place of the source is excluded only if the source is. -/
theorem excluded_of_inPlace {final : PosixPath} {container : OutputContainer}
    (hname : (lower final.name).toList = stem.map lowerChar ++ '.' :: container.value.toList)
    (h : isEncodrExcludedPath final = true) : isEncodrExcludedPath source = true := by
  refine excluded_of_dotted (endsWithMark_eq_false hname) (fun front _ hfront => ?_) h
  rw [hname] at hfront
  exact parts.dotted_in_name (dotted_before_ext (dot_not_mem_value container) hfront)

/-- An output beside the source is excluded only if the source is. -/
theorem excluded_of_alongside {final : PosixPath} {container : OutputContainer}
    (hname : (lower final.name).toList = stem.map lowerChar ++ ".encodr.".toList ++ container.value.toList)
    (h : isEncodrExcludedPath final = true) : isEncodrExcludedPath source = true := by
  have hends : (lower final.name).toList =
      (stem.map lowerChar ++ ".encodr".toList) ++ '.' :: container.value.toList := by
    rw [hname]
    simp
  refine excluded_of_dotted (endsWithMark_eq_false hends) (fun front hlast hfront => ?_) h
  rw [hname] at hfront
  exact parts.dotted_in_name (dotted_beside_stem (dot_not_mem_value container) hlast hfront)

end NameParts

theorem exists_nameParts {source : PosixPath} (h : source.suffix ≠ "") : ∃ stem ext, NameParts source stem ext := by
  obtain ⟨stem, ext, hstem, hext, hdot, hname⟩ := exists_of_suffixOf_ne h
  exact ⟨stem, ext, hstem, hext, hdot, hname⟩

/-- A name with a mark and a dot after it. -/
theorem excluded_of_mark {path : PosixPath} (mark : String × String) (hmem : mark ∈ exclusionMarks)
    {front rest : List Char} (h : (lower path.name).toList = front ++ (mark.1 ++ ".").toList ++ rest) :
    isEncodrExcludedPath path = true :=
  (isEncodrExcludedPath_iff path).mpr
    (.inl (List.any_eq_true.mpr ⟨mark, hmem, decide_eq_true ⟨front, rest, h.symm⟩⟩))

/-- The mark of a backup. -/
theorem lower_backup_name {backup : PosixPath} {stem ext : List Char}
    (h : NameParts backup (stem ++ ".encodr-backup".toList) ext) (rest : List Char) :
    backup.name.toList.map lowerChar ++ rest =
      stem.map lowerChar ++ (".encodr-backup" ++ ".").toList ++ (ext.map lowerChar ++ rest) := by
  have hmark : (".encodr-backup".toList).map lowerChar = ".encodr-backup".toList := by decide
  rw [h.name_eq, String.toList_ofList, List.map_append, List.map_append, List.map_cons, hmark,
    lowerChar_eq_dot.mpr rfl]
  simp

/-- A backup that is set aside. -/
theorem replacingPath_excluded {backup : PosixPath} {stem ext : List Char} {hex : String}
    (h : NameParts backup (stem ++ ".encodr-backup".toList) ext) (hhex : '/' ∉ hex.toList) :
    ∃ aside, replacingPath backup hex = .ok aside ∧ isEncodrExcludedPath aside = true := by
  have hvalid : ValidPart (backup.name ++ ".replacing-" ++ hex ++ ".tmp") := by
    have hname := h.validPart_name.2.2
    have hreplacing : '/' ∉ ".replacing-".toList := by decide
    have htmp : '/' ∉ ".tmp".toList := by decide
    refine validPart_of_length ?_ ?_
    · simp only [String.toList_append, List.length_append]
      have hlength : ".tmp".toList.length = 4 := rfl
      omega
    · simp only [String.toList_append, List.mem_append, not_or]
      exact ⟨⟨⟨hname, hreplacing⟩, hhex⟩, htmp⟩
  refine ⟨backup.withLast _ hvalid, ?_, ?_⟩
  · rw [replacingPath, PosixPath.withName, if_neg h.name_ne, dif_pos hvalid]
  · have hname := lower_backup_name h ((".replacing-" ++ hex ++ ".tmp").toList.map lowerChar)
    rw [← List.map_append, ← String.toList_append, ← toList_lower, ← String.append_assoc,
      ← String.append_assoc, ← PosixPath.name_withLast backup _ hvalid] at hname
    exact excluded_of_mark (".encodr-backup", _) List.mem_cons_self hname

/-- What the replacement and the command builder name after a source is excluded, the source of a backup
is read from its name, and an output is excluded only if its source is. -/
theorem artefactNames_consistent (source scratchDir : PosixPath) (jobId : Option String)
    (container : OutputContainer) (hsuffix : source.suffix ≠ "") :
    (∃ backup, buildBackupPath source = .ok backup ∧ isEncodrExcludedPath backup = true ∧
      sourcePathForBackup backup = .ok source ∧
      ∀ hex : String, '/' ∉ hex.toList → ∃ aside, replacingPath backup hex = .ok aside ∧
        isEncodrExcludedPath aside = true) ∧
    isEncodrExcludedPath (buildTempOutputPath source scratchDir container jobId) = true ∧
    (∃ final, inPlaceFinalPath source container = .ok final ∧
      (isEncodrExcludedPath final = true → isEncodrExcludedPath source = true)) ∧
    (∃ final, alongsideFinalPath source container = .ok final ∧
      (isEncodrExcludedPath final = true → isEncodrExcludedPath source = true)) := by
  obtain ⟨stem, ext, parts⟩ := exists_nameParts hsuffix
  refine ⟨?_, ?_, ?_, ?_⟩
  · obtain ⟨backup, hbackup, hroot, hdir, hparts⟩ := parts.backup
    refine ⟨backup, hbackup, ?_, parts.sourcePathForBackup_eq hroot hdir hparts,
      fun hex hhex => replacingPath_excluded hparts hhex⟩
    have hname := lower_backup_name hparts []
    rw [List.append_nil, ← toList_lower] at hname
    exact excluded_of_mark (".encodr-backup", _) List.mem_cons_self hname
  · obtain ⟨front, hname⟩ := name_buildTempOutputPath source scratchDir container jobId
    have htmp : (".tmp." ++ container.value).toList.map lowerChar = ".tmp.".toList ++ container.value.toList := by
      cases container <;> decide
    have hlower : (lower (front ++ (".tmp." ++ container.value))).toList =
        front.toList.map lowerChar ++ (".tmp" ++ ".").toList ++ container.value.toList := by
      rw [toList_lower, String.toList_append, List.map_append, htmp, ← List.append_assoc]
      rfl
    rw [← hname] at hlower
    exact excluded_of_mark (".tmp", _) (List.mem_cons_of_mem _ (List.mem_cons_of_mem _ List.mem_cons_self)) hlower
  · obtain ⟨final, hfinal, hname⟩ := parts.inPlace container
    exact ⟨final, hfinal, parts.excluded_of_inPlace hname⟩
  · obtain ⟨final, hfinal, hname⟩ := parts.alongside container
    exact ⟨final, hfinal, parts.excluded_of_alongside hname⟩

/-- A source with a mark in its stem and capitals in its suffix. -/
theorem artefactNames_consistent_dotted :
    (PosixPath.parse "/media/film.encodr-backup.part.1.MKV").suffix ≠ "" ∧
    ∃ backup, buildBackupPath (PosixPath.parse "/media/film.encodr-backup.part.1.MKV") = .ok backup ∧
      sourcePathForBackup backup = .ok (PosixPath.parse "/media/film.encodr-backup.part.1.MKV") := by
  have hsuffix : (PosixPath.parse "/media/film.encodr-backup.part.1.MKV").suffix ≠ "" := by decide +kernel
  obtain ⟨⟨backup, hbackup, -, hsource, -⟩, -⟩ :=
    artefactNames_consistent _ (PosixPath.parse "/scratch") (some "job1") .mkv hsuffix
  exact ⟨hsuffix, backup, hbackup, hsource⟩

end Encodr
