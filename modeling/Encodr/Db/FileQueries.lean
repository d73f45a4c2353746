import Encodr.Db.Models
import Encodr.Lib.Like
import Encodr.Python.PathText

/-!
# The queries of tracked files

`list_files` and `count_files` select the rows of tracked files in the database. The files of the program
itself are left out by patterns over the whole path; `encodr_exclusion_reason` looks at the name alone.

* `like`, `ilike`: the pattern operators of the database.
* `processableSourcePath`, `FileQuery.selects`, `listFiles`, `countFiles`: the queries.
* `hasMark_asPosix`: a path has a mark where one of its components has it.
* `processableSourcePath_iff`: when the two filters agree.
-/

namespace Encodr

open Python Lib

/-! ## Patterns -/

/-- A letter of a pattern, `%` and `_` being wildcards. -/
def likePiece (c : Char) : Like.Piece Char :=
  if c = '%' then .many else if c = '_' then .one else .lit c

/-- The pieces of a pattern. -/
def likePieces (pattern : String) : List (Like.Piece Char) :=
  pattern.toList.map likePiece

/-- `text LIKE pattern`. -/
def like (text pattern : String) : Bool :=
  Like.test (likePieces pattern) text.toList

/-- `text ILIKE pattern`. -/
def ilike (text pattern : String) : Bool :=
  like (lower text) (lower pattern)

/-! ## The queries -/

/-- Slashes at the end are dropped, but for the last character left; the text is reversed. -/
def dropSlashes : List Char → List Char
  | '/' :: c :: cs => dropSlashes (c :: cs)
  | cs => cs

/-- `_normalize_path_prefix`. -/
def normalizePathPrefix (pathPrefix : String) : String :=
  let cleaned := (PosixPath.parse (slashed (strip pathPrefix))).asPosix
  String.ofList (dropSlashes cleaned.toList.reverse).reverse

/-- `_source_path_within_prefix`. -/
def sourcePathWithinPrefix (sourcePath pathPrefix : String) : Bool :=
  let cleaned := normalizePathPrefix pathPrefix
  if cleaned = "/" then like sourcePath ("/" ++ "%")
  else sourcePath = cleaned || like sourcePath (cleaned ++ "/" ++ "%")

/-- `_processable_source_path_condition`. -/
def processableSourcePath (sourcePath : String) : Bool :=
  !ilike sourcePath "%.encodr-backup.%" &&
  !ilike sourcePath "%.encodr-restored-replacement.%" &&
  !ilike sourcePath "%.tmp.%" &&
  !ilike sourcePath "%.partial.%"

/-- The filters of a query. -/
structure FileQuery where
  lifecycleState : Option FileLifecycleState := none
  complianceState : Option ComplianceState := none
  protectedOnly : Option Bool := none
  pathPrefix : Option String := none
  pathSearch : Option String := none
  is4k : Option Bool := none

/-- The query with another folder. -/
def FileQuery.inFolder (query : FileQuery) (folder : Option String) : FileQuery :=
  { query with pathPrefix := folder }

/-- The filters other than that of the folder. -/
def FileQuery.selectsOther (query : FileQuery) (file : TrackedFile) : Bool :=
  query.lifecycleState.all (file.lifecycleState = ·) &&
  query.complianceState.all (file.complianceState = ·) &&
  query.protectedOnly.all (file.isProtected = ·) &&
  query.pathSearch.all (fun search => search = "" || ilike file.sourcePath.asPosix ("%" ++ search ++ "%")) &&
  query.is4k.all (file.is4k = ·)

/-- The rows of `list_files` and `count_files`. -/
def FileQuery.selects (query : FileQuery) (file : TrackedFile) : Bool :=
  processableSourcePath file.sourcePath.asPosix &&
  query.pathPrefix.all (fun folder =>
    folder = "" || sourcePathWithinPrefix file.sourcePath.asPosix folder) &&
  query.selectsOther file

/-- The rows in the order of `list_files`, the last changed first. -/
def byUpdate (files : List TrackedFile) : List TrackedFile :=
  files.insertionSort fun a b => b.updatedAt ≤ a.updatedAt

/-- `list_files`. -/
def listFiles (files : List TrackedFile) (query : FileQuery) (limit offset : Option Nat := none) :
    List TrackedFile :=
  let rows := ((byUpdate files).filter query.selects).drop (offset.getD 0)
  match limit with
  | none => rows
  | some limit => rows.take limit

/-- `count_files`. -/
def countFiles (files : List TrackedFile) (query : FileQuery) : Nat :=
  (files.filter query.selects).length

/-! ## Marks -/

/-- A mark stands in the text, with a dot after it. -/
def hasMark (text : String) : Bool :=
  exclusionMarks.any fun mark => inText (mark.1 ++ ".") (lower text)

/-- The name ends with a mark. -/
def endsWithMark (name : String) : Bool :=
  exclusionMarks.any fun mark => endsWith (lower name) mark.1

/-- The name is that of a scratch file. -/
def isScratchName (name : String) : Bool :=
  inText ".encodr-scratch." (lower name) || startsWith (lower name) "encodr-scratch."

theorem ilike_infix {text pattern mark : String}
    (h : likePieces (lower pattern) = .many :: (mark.toList.map .lit ++ [.many])) :
    ilike text pattern = inText mark (lower text) := by
  rw [ilike, like, h, Bool.eq_iff_iff, Like.test_iff, Like.matches_infix_iff, inText, decide_eq_true_eq]

/-- The condition of the queries: no mark stands anywhere in the path. -/
theorem processableSourcePath_eq (sourcePath : String) :
    processableSourcePath sourcePath = !hasMark sourcePath := by
  have hbackup : ilike sourcePath "%.encodr-backup.%" = inText ".encodr-backup." (lower sourcePath) :=
    ilike_infix (by decide +kernel)
  have hrestored : ilike sourcePath "%.encodr-restored-replacement.%" =
      inText ".encodr-restored-replacement." (lower sourcePath) := ilike_infix (by decide +kernel)
  have htmp : ilike sourcePath "%.tmp.%" = inText ".tmp." (lower sourcePath) := ilike_infix (by decide +kernel)
  have hpartial : ilike sourcePath "%.partial.%" = inText ".partial." (lower sourcePath) :=
    ilike_infix (by decide +kernel)
  have hmarks : hasMark sourcePath = (inText ".encodr-backup." (lower sourcePath) ||
      (inText ".encodr-restored-replacement." (lower sourcePath) ||
        (inText ".tmp." (lower sourcePath) || (inText ".partial." (lower sourcePath) || false)))) := rfl
  rw [processableSourcePath, hbackup, hrestored, htmp, hpartial, hmarks]
  simp only [Bool.or_false, Bool.not_or, Bool.and_assoc]

/-- The letters of the marks. -/
theorem mark_letters : ∀ mark ∈ exclusionMarks, ∀ c ∈ (mark.1 ++ ".").toList,
    c ≠ '/' ∧ c ≠ '\\' ∧ c ≠ '%' ∧ c ≠ '_' ∧ c ≠ 'x' ∧ isSpace c = false := by
  intro mark hmark c hc
  have hall : (exclusionMarks.all fun mark => (mark.1 ++ ".").toList.all fun c =>
      c != '/' && c != '\\' && c != '%' && c != '_' && c != 'x' && !isSpace c) = true := by decide +kernel
  have hletter := List.all_eq_true.mp (List.all_eq_true.mp hall mark hmark) c hc
  simpa only [Bool.and_eq_true, bne_iff_ne, Bool.not_eq_true', and_assoc] using hletter

/-- A text has a mark where one of the texts between its slashes has it. -/
theorem hasMark_iff_split (text : String) :
    hasMark text = true ↔ ∃ s ∈ split '/' text, hasMark s = true := by
  simp only [hasMark, List.any_eq_true]
  have hmark : ∀ mark ∈ exclusionMarks, inText (mark.1 ++ ".") (lower text) = true ↔
      ∃ s ∈ split '/' text, inText (mark.1 ++ ".") (lower s) = true := by
    intro mark hmem
    have hne : mark.1 ++ "." ≠ "" := by simp
    rw [inText_iff_split hne fun hslash => (mark_letters mark hmem _ hslash).1 rfl, split_lower]
    simp only [List.mem_map, exists_exists_and_eq_and]
  constructor
  · rintro ⟨mark, hmem, h⟩
    obtain ⟨s, hs, h⟩ := (hmark mark hmem).mp h
    exact ⟨s, hs, mark, hmem, h⟩
  · rintro ⟨s, hs, mark, hmem, h⟩
    exact ⟨mark, hmem, (hmark mark hmem).mpr ⟨s, hs, h⟩⟩

/-- The path of a text has the marks of the text. -/
theorem hasMark_parse (text : String) :
    (∃ s ∈ (PosixPath.parse text).parts, hasMark s = true) ↔ hasMark text = true := by
  rw [hasMark_iff_split]
  constructor
  · rintro ⟨s, hs, h⟩
    exact ⟨s, (List.mem_filter.mp hs).1, h⟩
  · rintro ⟨s, hs, h⟩
    refine ⟨s, List.mem_filter.mpr ⟨hs, decide_eq_true ⟨?_, ?_, not_mem_of_mem_split hs⟩⟩, h⟩
    · rintro rfl
      exact absurd h (by decide)
    · rintro rfl
      exact absurd h (by decide)

/-- A path has a mark where one of its components has it. -/
theorem hasMark_asPosix (path : PosixPath) :
    hasMark path.asPosix = true ↔ ∃ s ∈ path.parts, hasMark s = true := by
  rw [← hasMark_parse, PosixPath.parse_asPosix]

/-- The names for which there is a reason. -/
theorem encodrExclusionReason_none_iff (path : PosixPath) : encodrExclusionReason path = none ↔
    hasMark path.name = false ∧ endsWithMark path.name = false ∧ isScratchName path.name = false := by
  simp only [encodrExclusionReason]
  split
  · next found reason hfind =>
    have hmark := List.find?_some hfind
    have hmem := List.mem_of_find?_eq_some hfind
    refine ⟨fun h => (by cases h), ?_⟩
    rintro ⟨hmarked, hends, -⟩
    rcases Bool.or_eq_true_iff.mp hmark with h | h
    · exact absurd h (List.any_eq_false.mp hmarked _ hmem)
    · exact absurd h (List.any_eq_false.mp hends _ hmem)
  · next hfind =>
    have hnone := List.find?_eq_none.mp hfind
    have hmarked : hasMark path.name = false :=
      List.any_eq_false.mpr fun mark hmem h => hnone mark hmem (Bool.or_eq_true_iff.mpr (.inl h))
    have hends : endsWithMark path.name = false :=
      List.any_eq_false.mpr fun mark hmem h => hnone mark hmem (Bool.or_eq_true_iff.mpr (.inr h))
    show (if isScratchName path.name = true then _ else none) = none ↔ _
    by_cases hscratch : isScratchName path.name = true
    · rw [if_pos hscratch, hscratch]
      simp
    · rw [if_neg hscratch]
      simpa [hmarked, hends] using hscratch

/-- The condition of the queries accepts a path exactly where there is no reason against it, if and only
if a mark with a dot stands in its name, or one of its directories has such a mark just where the name
ends with a mark or is a scratch file's. -/
theorem processableSourcePath_iff (path : PosixPath) :
    (processableSourcePath path.asPosix = true ↔ encodrExclusionReason path = none) ↔
      (hasMark path.name = true ∨ ((∃ d ∈ path.directory, hasMark d = true) ↔
        (endsWithMark path.name = true ∨ isScratchName path.name = true))) := by
  have hparts : (∃ s ∈ path.parts, hasMark s = true) ↔
      (∃ d ∈ path.directory, hasMark d = true) ∨ hasMark path.name = true := by
    by_cases hnil : path.parts = []
    · have hname : path.name = "" := by rw [PosixPath.name, hnil]; rfl
      have hdir : path.directory = [] := by rw [PosixPath.directory, hnil]; rfl
      have hempty : hasMark "" = false := by decide
      rw [hnil, hname, hdir, hempty]
      simp
    · have hsplit : path.parts = path.directory ++ [path.name] := by
        rw [PosixPath.directory, PosixPath.name, List.getLast?_eq_some_getLast hnil, Option.getD_some]
        exact (List.dropLast_append_getLast hnil).symm
      rw [hsplit]
      simp only [List.mem_append, List.mem_singleton, or_and_right, exists_or, exists_eq_left]
  rw [processableSourcePath_eq, Bool.not_eq_true', ← Bool.not_eq_true, hasMark_asPosix, hparts,
    encodrExclusionReason_none_iff]
  cases hasMark path.name with
  | true => simp
  | false =>
    cases endsWithMark path.name <;> cases isScratchName path.name <;> simp

/-- A file whose name ends with a mark is selected and may not be processed. A file in a directory whose
name has a mark may be processed and is not selected. -/
theorem processableSourcePath_disagrees :
    (processableSourcePath (PosixPath.parse "/media/film.tmp").asPosix = true ∧
      encodrExclusionReason (PosixPath.parse "/media/film.tmp") ≠ none) ∧
    (processableSourcePath (PosixPath.parse "/media/old.tmp.d/film.mkv").asPosix = false ∧
      encodrExclusionReason (PosixPath.parse "/media/old.tmp.d/film.mkv") = none) := by
  refine ⟨⟨by decide +kernel, by decide +kernel⟩, by decide +kernel, by decide +kernel⟩

end Encodr
