import Encodr.Api.WorkerSuffix
import Encodr.Db.FileQueries

/-!
# Listing a folder

The file list can be restricted to a folder. The text of the folder is cleaned, and the files are those
whose path is the cleaned text or matches it with a slash and a wildcard behind it.

* `sourcePathWithinPrefix_iff`: the paths that the query takes, in terms of components and patterns.
* `hasMark_map`, `hasMark_of_append_spaces`: cleaning a text keeps its marks.
* `listsFolder_iff`: when the files are those of the folder.
-/

namespace Encodr

open Python Lib

/-- The folder of a text, as the query cleans it. -/
def cleanedFolder (text : String) : PosixPath :=
  PosixPath.parse (slashed (strip text))

/-- Listing and counting with a folder take, of the files without it, those that are the folder or lie
under it. -/
def ListsFolder (text : String) : Prop :=
  ∀ (files : List TrackedFile) (query : FileQuery),
    listFiles files (query.inFolder (some text)) = (listFiles files (query.inFolder none)).filter
        (fun file => PosixPath.IsAncestor (PosixPath.parse text) file.sourcePath) ∧
      countFiles files (query.inFolder (some text)) = countFiles
        (files.filter fun file => PosixPath.IsAncestor (PosixPath.parse text) file.sourcePath)
        (query.inFolder none)

/-- The text of a folder that the query takes as it is: a folder below a root, without wildcards and
backslashes, and without a space at the end. -/
structure PlainFolder (text : String) : Prop where
  named : (PosixPath.parse text).parts ≠ []
  letters : ∀ c ∈ text.toList, c ≠ '%' ∧ c ≠ '_' ∧ c ≠ '\\'
  trimmed : ∀ c ∈ text.toList.getLast?, isSpace c = false

/-! ## Marks -/

section Marks

/-- Changing letters that no mark has, to letters that no mark has. -/
theorem hasMark_map {f : Char → Char} (h : ∀ mark ∈ exclusionMarks, ∀ c,
      lowerChar (f c) ∈ (mark.1 ++ ".").toList ∨ lowerChar c ∈ (mark.1 ++ ".").toList → f c = c)
    (text : String) : hasMark (String.ofList (text.toList.map f)) = hasMark text := by
  rw [Bool.eq_iff_iff]
  simp only [hasMark, List.any_eq_true]
  refine exists_congr fun mark => and_congr_right fun hmem => ?_
  rw [inText, inText, decide_eq_true_eq, decide_eq_true_eq, lower, lower, String.toList_ofList,
    String.toList_ofList, String.toList_ofList, List.map_map, List.infix_map_iff, List.infix_map_iff]
  refine exists_congr fun letters => and_congr_right fun _ => ?_
  constructor
  · intro heq
    rw [heq]
    refine List.map_congr_left fun c hc => ?_
    rw [Function.comp_apply, h mark hmem c (.inl ?_)]
    rw [heq]
    exact List.mem_map_of_mem hc
  · intro heq
    rw [heq]
    refine List.map_congr_left fun c hc => ?_
    rw [Function.comp_apply, h mark hmem c (.inr ?_)]
    rw [heq]
    exact List.mem_map_of_mem hc

theorem hasMark_slashed (text : String) : hasMark (slashed text) = hasMark text := by
  refine hasMark_map (fun mark hmem c hc => ?_) text
  by_cases hback : c = '\\'
  · have hslash : lowerChar '/' = '/' := by decide
    have hbackslash : lowerChar '\\' = '\\' := by decide
    rw [hback, if_pos rfl, hslash, hbackslash] at hc
    rcases hc with hc | hc
    · exact absurd rfl (mark_letters mark hmem _ hc).1
    · exact absurd rfl (mark_letters mark hmem _ hc).2.1
  · rw [if_neg hback]

theorem lowerChar_of_isSpace {c : Char} (h : isSpace c = true) : lowerChar c = c := by
  have hkelvin : c ≠ '\u212A' := by
    rintro rfl
    exact absurd h (by decide)
  rw [lowerChar, if_neg hkelvin]
  unfold Char.toLower
  rw [dif_neg]
  rintro ⟨hlow, hhigh⟩
  have hlow' : 65 ≤ c.toNat := UInt32.le_iff_toNat_le.mp hlow
  have hhigh' : c.toNat ≤ 90 := UInt32.le_iff_toNat_le.mp hhigh
  simp only [isSpace, Bool.or_eq_true, Bool.and_eq_true, decide_eq_true_eq, beq_iff_eq] at h
  omega

/-- Letters that do not occur in the end of a text stand before the end. -/
theorem infix_of_append {letters xs ys : List Char} (hne : letters ≠ []) (h : letters <:+: xs ++ ys)
    (hys : ∀ c ∈ ys, c ∉ letters) : letters <:+: xs := by
  obtain ⟨front, rest, heq⟩ := h
  have hle : front.length + letters.length ≤ xs.length := by
    by_contra hlt
    -- The last of the letters is in the end of the text.
    have hpos := List.length_pos_iff.mpr hne
    have hget : (front ++ letters ++ rest)[front.length + letters.length - 1]? =
        letters[letters.length - 1]? := by
      rw [List.append_assoc, List.getElem?_append_right (by omega), List.getElem?_append_left (by omega)]
      congr 1
      omega
    rw [heq, List.getElem?_append_right (by omega), List.getElem?_eq_getElem (by omega : _ < letters.length)]
      at hget
    exact hys _ (List.mem_of_getElem? hget) (List.getElem_mem _)
  have hfront : front ++ letters <+: xs := by
    have hwhole : front ++ letters <+: xs ++ ys := ⟨rest, heq⟩
    refine List.prefix_of_prefix_length_le hwhole (List.prefix_append xs ys) ?_
    rw [List.length_append]
    exact hle
  obtain ⟨rest', rfl⟩ := hfront
  exact ⟨front, rest', rfl⟩

theorem hasMark_append_left {a : String} (b : String) (h : hasMark a = true) : hasMark (a ++ b) = true := by
  rw [hasMark, List.any_eq_true] at h ⊢
  obtain ⟨mark, hmem, hm⟩ := h
  refine ⟨mark, hmem, ?_⟩
  have htext : (a ++ b).toList = a.toList ++ b.toList := String.toList_append
  rw [inText, decide_eq_true_eq, lower, String.toList_ofList] at hm ⊢
  rw [htext, List.map_append]
  exact hm.trans (List.prefix_append _ _).isInfix

theorem hasMark_of_append_spaces {a : String} {spaces : List Char} (h : ∀ c ∈ spaces, isSpace c = true)
    (hmark : hasMark (a ++ String.ofList spaces) = true) : hasMark a = true := by
  rw [hasMark, List.any_eq_true] at hmark ⊢
  obtain ⟨mark, hmem, hm⟩ := hmark
  refine ⟨mark, hmem, ?_⟩
  have htext : (lower (a ++ String.ofList spaces)).toList =
      (lower a).toList ++ spaces.map lowerChar := by
    rw [lower, lower, String.toList_ofList, String.toList_ofList, String.toList_append,
      String.toList_ofList, List.map_append]
  rw [inText, decide_eq_true_eq, htext] at hm
  rw [inText, decide_eq_true_eq]
  refine infix_of_append (by simp) hm fun c hc hin => ?_
  obtain ⟨space, hspace, rfl⟩ := List.mem_map.mp hc
  rw [lowerChar_of_isSpace (h space hspace)] at hin
  exact Bool.false_ne_true ((mark_letters mark hmem _ hin).2.2.2.2.2.symm.trans (h space hspace))

end Marks

/-! ## Cleaned texts -/

theorem rootOf_ne_relative_iff (xs : List Char) : PosixPath.rootOf xs ≠ .relative ↔ xs.head? = some '/' := by
  have hstart := @startOf_ne_empty_iff (String.ofList xs)
  rw [startOf_eq, String.toList_ofList] at hstart
  rw [← hstart]
  cases PosixPath.rootOf xs with
  | relative => decide
  | slash => decide
  | doubleSlash => decide

theorem parse_root (text : String) : (PosixPath.parse text).root = PosixPath.rootOf text.toList := rfl

theorem parse_parts (text : String) :
    (PosixPath.parse text).parts = PosixPath.validParts (split '/' text) := rfl

theorem head_asPosix_iff (p : PosixPath) : p.asPosix.toList.head? = some '/' ↔ p.root ≠ .relative := by
  rw [← rootOf_ne_relative_iff]
  have hroot : PosixPath.rootOf p.asPosix.toList = p.root := congrArg PosixPath.root p.parse_asPosix
  rw [hroot]

theorem dropSlashes_of_head {xs : List Char} (h : xs.head? ≠ some '/') : dropSlashes xs = xs := by
  match xs, h with
  | [], _ => rfl
  | [c], _ => rw [dropSlashes]; simp
  | c :: d :: cs, h =>
    have hc : c ≠ '/' := fun hc => h (congrArg some hc)
    rw [dropSlashes]
    simp [hc]

section Cleaned

variable {text : String} {p : PosixPath}

/-- The cleaned text of a rooted text is the text without the spaces at its end. -/
theorem strip_rooted (h : text.toList.head? = some '/') : ∃ spaces : List Char,
    text = strip text ++ String.ofList spaces ∧ (∀ c ∈ spaces, isSpace c = true) ∧
      (strip text).toList.head? = some '/' ∧ ∀ c ∈ (strip text).toList.getLast?, isSpace c = false := by
  obtain ⟨rest, hrest⟩ := List.head?_eq_some_iff.mp h
  have hslash : isSpace '/' = false := by decide
  have hstrip : (strip text).toList = text.toList.rdropWhile isSpace := by
    have hdrop : text.toList.dropWhile isSpace = text.toList := by
      rw [hrest, List.dropWhile_cons_of_neg (by simp [hslash])]
    rw [strip, String.toList_ofList, hdrop]
    rfl
  have happend : text.toList.rdropWhile isSpace ++ text.toList.rtakeWhile isSpace = text.toList :=
    List.rdropWhile_append_rtakeWhile
  have hspaces : ∀ c ∈ text.toList.rtakeWhile isSpace, isSpace c = true := fun c hc =>
    List.mem_rtakeWhile_imp hc
  have hne : text.toList.rdropWhile isSpace ≠ [] := by
    intro hnil
    rw [hnil, List.nil_append] at happend
    have hspace := hspaces '/' (by rw [happend, hrest]; exact List.mem_cons_self)
    rw [hslash] at hspace
    cases hspace
  refine ⟨text.toList.rtakeWhile isSpace, ?_, hspaces, ?_, fun c hc => ?_⟩
  · rw [← String.toList_inj, String.toList_append, hstrip, String.toList_ofList, happend]
  · rw [hstrip]
    rw [← happend, List.head?_append_of_ne_nil _ hne] at h
    exact h
  · rw [hstrip, List.getLast?_eq_some_getLast hne, Option.mem_some_iff] at hc
    have hlast := List.rdropWhile_last_not isSpace text.toList hne
    rw [hc] at hlast
    simpa using hlast

theorem cleanedFolder_root (h : text.toList.head? = some '/') : (cleanedFolder text).root ≠ .relative := by
  obtain ⟨-, -, -, hhead, -⟩ := strip_rooted h
  rw [cleanedFolder, parse_root, rootOf_ne_relative_iff]
  exact slashed_head hhead

theorem normalizePathPrefix_eq (h : text.toList.head? = some '/') :
    normalizePathPrefix text =
      if (cleanedFolder text).parts = [] then "/" else (cleanedFolder text).asPosix := by
  show String.ofList (dropSlashes (cleanedFolder text).asPosix.toList.reverse).reverse = _
  by_cases hparts : (cleanedFolder text).parts = []
  · rw [if_pos hparts, PosixPath.asPosix_eq (.inl (cleanedFolder_root h)), hparts, joined_nil,
      String.append_empty]
    cases hroot : (cleanedFolder text).root with
    | relative => exact absurd hroot (cleanedFolder_root h)
    | slash => decide
    | doubleSlash => decide
  · rw [if_neg hparts, dropSlashes_of_head, List.reverse_reverse, String.ofList_toList]
    rw [List.head?_reverse]
    exact toList_getLast?_asPosix hparts

theorem likePieces_append (a b : String) : likePieces (a ++ b) = likePieces a ++ likePieces b := by
  rw [likePieces, String.toList_append, List.map_append]
  rfl

/-- A text without wildcards is a pattern of its letters. -/
theorem likePieces_of_letters (h : ∀ c ∈ text.toList, c ≠ '%' ∧ c ≠ '_') :
    likePieces text = text.toList.map .lit := by
  refine List.map_congr_left fun c hc => ?_
  rw [likePiece, if_neg (h c hc).1, if_neg (h c hc).2]

/-- The paths that the query takes: every rooted path where the folder is cleaned to a root, and else the
cleaned folder and what matches it with something behind it. -/
theorem sourcePathWithinPrefix_iff (h : text.toList.head? = some '/') :
    sourcePathWithinPrefix p.asPosix text = true ↔
      if (cleanedFolder text).parts = [] then p.root ≠ .relative
      else p = cleanedFolder text ∨
        Like.Matches (likePieces (cleanedFolder text).asPosix ++ [.lit '/', .many]) p.asPosix.toList := by
  rw [sourcePathWithinPrefix, normalizePathPrefix_eq h]
  by_cases hparts : (cleanedFolder text).parts = []
  · rw [if_pos hparts, if_pos hparts]
    have hpieces : likePieces ("/" ++ "%") = ['/'].map .lit ++ [.many] := by decide
    simp only [if_true]
    rw [like, hpieces, Like.test_iff, Like.matches_prefix_iff, ← head_asPosix_iff]
    constructor
    · rintro ⟨rest, hrest⟩
      rw [← hrest]
      rfl
    · intro hhead
      obtain ⟨rest, hrest⟩ := List.head?_eq_some_iff.mp hhead
      exact ⟨rest, hrest.symm⟩
  · have hpieces : likePieces ((cleanedFolder text).asPosix ++ "/" ++ "%") =
        likePieces (cleanedFolder text).asPosix ++ [.lit '/', .many] := by
      rw [likePieces_append, likePieces_append, List.append_assoc]
      rfl
    simp only [if_neg hparts, if_neg (asPosix_ne_slash hparts), Bool.or_eq_true, decide_eq_true_eq, like,
      hpieces, Like.test_iff]
    exact or_congr_left ⟨fun heq => asPosix_injective heq, fun heq => congrArg PosixPath.asPosix heq⟩

end Cleaned

/-! ## The files of a folder -/

section Files

variable {text : String} {p : PosixPath}

/-- The query takes the files of a folder where it takes every path without a mark that lies in it, and no
other. -/
theorem listsFolder_iff_paths (h : text.toList.head? = some '/') : ListsFolder text ↔
    ∀ p : PosixPath, hasMark p.asPosix = false →
      (sourcePathWithinPrefix p.asPosix text = true ↔ PosixPath.IsAncestor (PosixPath.parse text) p) := by
  have hne : text ≠ "" := by
    rintro rfl
    simp at h
  have hselects : ∀ (query : FileQuery) (file : TrackedFile),
      (query.inFolder (some text)).selects file =
        (!hasMark file.sourcePath.asPosix && sourcePathWithinPrefix file.sourcePath.asPosix text &&
          query.selectsOther file) := by
    intro query file
    simp only [FileQuery.selects, FileQuery.inFolder, processableSourcePath_eq, Option.all_some, hne,
      decide_false, Bool.false_or]
    rfl
  have hselectsAll : ∀ (query : FileQuery) (file : TrackedFile),
      (query.inFolder none).selects file =
        (!hasMark file.sourcePath.asPosix && query.selectsOther file) := by
    intro query file
    simp only [FileQuery.selects, FileQuery.inFolder, processableSourcePath_eq, Option.all_none,
      Bool.and_true]
    rfl
  constructor
  · intro hlists p hmark
    have hlist := (hlists [{ id := "", sourcePath := p, createdAt := 0, updatedAt := 0 }] {}).1
    have hmem : ∀ folder, { id := "", sourcePath := p, createdAt := 0, updatedAt := 0 } ∈
        listFiles [{ id := "", sourcePath := p, createdAt := 0, updatedAt := 0 }]
          (({} : FileQuery).inFolder folder) ↔ (({} : FileQuery).inFolder folder).selects
            { id := "", sourcePath := p, createdAt := 0, updatedAt := 0 } = true := by
      intro folder
      show _ ∈ (List.filter _ [_]).drop 0 ↔ _
      rw [List.drop_zero, List.mem_filter]
      exact and_iff_right (List.mem_singleton_self _)
    have hother : ({} : FileQuery).selectsOther
        { id := "", sourcePath := p, createdAt := 0, updatedAt := 0 } = true := rfl
    have hsome := hmem (some text)
    rw [hlist, List.mem_filter, hmem none, hselects, hselectsAll, hother, hmark] at hsome
    simpa using hsome.symm
  · intro hpaths files query
    have hsame : ∀ file : TrackedFile, (query.inFolder (some text)).selects file =
        (decide (PosixPath.IsAncestor (PosixPath.parse text) file.sourcePath) &&
          (query.inFolder none).selects file) := by
      intro file
      rw [hselects, hselectsAll]
      cases hmark : hasMark file.sourcePath.asPosix with
      | true => simp
      | false =>
        have hiff := hpaths file.sourcePath hmark
        have hdecide : decide (PosixPath.IsAncestor (PosixPath.parse text) file.sourcePath) =
            sourcePathWithinPrefix file.sourcePath.asPosix text := by
          rw [Bool.eq_iff_iff, decide_eq_true_eq]
          exact hiff.symm
        rw [hdecide]
        simp
    constructor
    · show ((byUpdate files).filter _).drop 0 = (((byUpdate files).filter _).drop 0).filter _
      rw [List.drop_zero, List.drop_zero, List.filter_filter]
      exact List.filter_congr fun file _ => hsame file
    · rw [countFiles, countFiles, List.filter_filter]
      exact congrArg List.length (List.filter_congr fun file _ =>
        (hsame file).trans (Bool.and_comm _ _))

/-- In a folder whose text has a mark there is nothing to list, and nothing is listed. -/
theorem paths_of_hasMark (h : text.toList.head? = some '/') (hmark : hasMark text = true)
    (hp : hasMark p.asPosix = false) :
    sourcePathWithinPrefix p.asPosix text = true ↔ PosixPath.IsAncestor (PosixPath.parse text) p := by
  have hplain : ∀ s ∈ p.parts, hasMark s = false := by
    intro s hs
    by_contra hne
    have hmarked := (hasMark_asPosix p).mpr ⟨s, hs, by simpa using hne⟩
    rw [hp] at hmarked
    cases hmarked
  have hcleaned : hasMark (cleanedFolder text).asPosix = true := by
    obtain ⟨spaces, htext, hspaces, -, -⟩ := strip_rooted h
    rw [hasMark_asPosix, cleanedFolder, hasMark_parse, hasMark_slashed]
    exact hasMark_of_append_spaces hspaces (htext ▸ hmark)
  constructor
  · intro hwithin
    exfalso
    obtain ⟨s, hs, -⟩ := (hasMark_asPosix _).mp hcleaned
    rw [sourcePathWithinPrefix_iff h, if_neg (List.ne_nil_of_mem hs)] at hwithin
    rcases hwithin with rfl | hmatches
    · rw [hp] at hcleaned
      cases hcleaned
    · -- The letters of the mark stand in the pattern, and so in the path.
      obtain ⟨mark, hmem, hin⟩ := List.any_eq_true.mp hcleaned
      rw [inText, decide_eq_true_eq, lower, String.toList_ofList, List.infix_map_iff] at hin
      obtain ⟨letters, hletters, hlower⟩ := hin
      have hpieces : letters.map .lit <:+: likePieces (cleanedFolder text).asPosix := by
        have hmap : letters.map .lit = letters.map likePiece := by
          refine List.map_congr_left fun c hc => ?_
          have hc' : lowerChar c ∈ (mark.1 ++ ".").toList := by
            rw [hlower]
            exact List.mem_map_of_mem hc
          rw [likePiece, if_neg, if_neg]
          · rintro rfl
            exact absurd (by decide) (mark_letters mark hmem _ hc').2.2.2.1
          · rintro rfl
            exact absurd (by decide) (mark_letters mark hmem _ hc').2.2.1
        rw [hmap]
        exact hletters.map likePiece
      have hin := hmatches.letters_in (hpieces.trans (List.prefix_append _ _).isInfix)
      have hmarked : hasMark p.asPosix = true := by
        refine List.any_eq_true.mpr ⟨mark, hmem, ?_⟩
        rw [inText, decide_eq_true_eq, lower, String.toList_ofList, hlower]
        exact hin.map lowerChar
      rw [hp] at hmarked
      cases hmarked
  · rintro ⟨-, hparts⟩
    obtain ⟨s, hs, hs'⟩ := (hasMark_parse text).mpr hmark
    rw [hplain s (hparts.subset hs)] at hs'
    cases hs'

theorem cleanedFolder_eq (h : text.toList.head? = some '/') (hback : '\\' ∉ text.toList)
    (htrimmed : ∀ c ∈ text.toList.getLast?, isSpace c = false) :
    cleanedFolder text = PosixPath.parse text := by
  obtain ⟨spaces, htext, hspaces, -, -⟩ := strip_rooted h
  have hnil : spaces = [] := by
    by_contra hne
    have hlast : text.toList.getLast? = some (spaces.getLast hne) := by
      rw [htext, String.toList_append, String.toList_ofList, List.getLast?_append_of_ne_nil _ hne,
        List.getLast?_eq_some_getLast hne]
    have hspace := htrimmed _ hlast
    rw [hspaces _ (List.getLast_mem hne)] at hspace
    cases hspace
  have hstrip : strip text = text := by
    rw [hnil] at htext
    have hempty : String.ofList ([] : List Char) = "" := rfl
    rw [hempty, String.append_empty] at htext
    exact htext.symm
  rw [cleanedFolder, hstrip, slashed_of_not_mem hback]

theorem mem_of_mem_split {s : String} {c : Char} (hs : s ∈ split '/' text) (hc : c ∈ s.toList) :
    c ∈ text.toList := by
  obtain ⟨piece, hpiece, rfl⟩ := List.mem_map.mp hs
  rw [String.toList_ofList] at hc
  have hflat := List.mem_flatten_of_mem hpiece hc
  rw [flatten_splitOn] at hflat
  exact (List.mem_filter.mp hflat).1

/-- The letters of the text of a path are those of its components, and slashes. -/
theorem mem_asPosix_parse (h : text.toList.head? = some '/') {c : Char}
    (hc : c ∈ (PosixPath.parse text).asPosix.toList) : c = '/' ∨ c ∈ text.toList := by
  have hroot : (PosixPath.parse text).root ≠ .relative := by
    rw [parse_root, rootOf_ne_relative_iff]
    exact h
  rw [PosixPath.asPosix_eq (.inl hroot), String.toList_append, List.mem_append] at hc
  rcases hc with hc | hc
  · left
    cases hr : (PosixPath.parse text).root with
    | relative => exact absurd hr hroot
    | slash => simpa [hr, Root.text] using hc
    | doubleSlash => simpa [hr, Root.text] using hc
  · rcases mem_joined hc with hc | ⟨s, hs, hc⟩
    · exact .inl hc
    · exact .inr (mem_of_mem_split (List.mem_filter.mp hs).1 hc)

/-- The files of a plain folder are those that match it. -/
theorem paths_of_plain (h : text.toList.head? = some '/') (hplain : PlainFolder text) :
    sourcePathWithinPrefix p.asPosix text = true ↔ PosixPath.IsAncestor (PosixPath.parse text) p := by
  have hcleaned := cleanedFolder_eq h (fun hback => (hplain.letters _ hback).2.2 rfl) hplain.trimmed
  have hparts : (cleanedFolder text).parts ≠ [] := by
    rw [hcleaned]
    exact hplain.named
  have hletters : ∀ c ∈ (cleanedFolder text).asPosix.toList, c ≠ '%' ∧ c ≠ '_' := by
    intro c hc
    rw [hcleaned] at hc
    rcases mem_asPosix_parse h hc with rfl | hc
    · decide
    · exact ⟨(hplain.letters c hc).1, (hplain.letters c hc).2.1⟩
  have hpattern : (cleanedFolder text).asPosix.toList.map Like.Piece.lit ++ [.lit '/', .many] =
      ((cleanedFolder text).asPosix ++ "/").toList.map .lit ++ [.many] := by simp
  rw [sourcePathWithinPrefix_iff h, if_neg hparts, likePieces_of_letters hletters, hpattern,
    Like.matches_prefix_iff]
  have hstarts := startsWith_asPosix_slash_iff (p := p) hparts
  rw [startsWith, decide_eq_true_eq, hcleaned] at hstarts
  rw [hcleaned, hstarts]
  constructor
  · rintro (rfl | ⟨hanc, -⟩)
    · exact ⟨rfl, List.prefix_rfl⟩
    · exact hanc
  · intro hanc
    by_cases heq : p = PosixPath.parse text
    · exact .inl heq
    · exact .inr ⟨hanc, heq⟩

/-! ## Folders that are not plain -/

/-- The text with a letter for each wildcard. -/
def fillText (text : String) : String :=
  String.ofList (text.toList.map fun c => if c = '%' ∨ c = '_' then 'x' else c)

theorem lowersPaths_fillText : LowersPaths fillText where
  slash a b := by
    rw [← String.toList_inj]
    have hslash : (if '/' = '%' ∨ '/' = '_' then 'x' else '/') = '/' := by decide
    simp only [fillText, String.toList_ofList, String.toList_append, List.map_append]
    congr 2
  empty a := by
    rw [← String.toList_inj, fillText, String.toList_ofList, String.toList_empty, List.map_eq_nil_iff,
      ← String.toList_empty, String.toList_inj]
  noSlash a ha := by
    rw [fillText, String.toList_ofList, List.mem_map]
    rintro ⟨c, hc, hfill⟩
    split at hfill
    · exact absurd hfill (by decide)
    · exact ha (hfill ▸ hc)
  dot a := by
    have hfill : ∀ c : Char, (if c = '%' ∨ c = '_' then 'x' else c) = '.' ↔ c = '.' := by
      intro c
      split
      · next hc =>
        rcases hc with rfl | rfl
        · decide
        · decide
      · rfl
    rw [← String.toList_inj, fillText, String.toList_ofList, ← String.toList_inj]
    have hdot : ".".toList = ['.'] := by decide
    rw [hdot, List.map_eq_singleton_iff]
    constructor
    · rintro ⟨c, hc, hf⟩
      rw [hc, (hfill c).mp hf]
    · intro ha
      exact ⟨'.', ha, (hfill '.').mpr rfl⟩

theorem hasMark_fillText (text : String) : hasMark (fillText text) = hasMark text := by
  refine hasMark_map (fun mark hmem c hc => ?_) text
  by_cases hwild : c = '%' ∨ c = '_'
  · have hx : lowerChar 'x' = 'x' := by decide
    rw [if_pos hwild, hx] at hc
    exfalso
    rcases hc with hc | hc
    · exact (mark_letters mark hmem _ hc).2.2.2.2.1 rfl
    · rcases hwild with rfl | rfl
      · exact (mark_letters mark hmem _ hc).2.2.1 (by decide)
      · exact (mark_letters mark hmem _ hc).2.2.2.1 (by decide)
  · rw [if_neg hwild]

theorem fill_likePieces (text : String) : Like.fill 'x' (likePieces text) = (fillText text).toList := by
  rw [Like.fill, likePieces, List.map_map, fillText, String.toList_ofList]
  refine List.map_congr_left fun c _ => ?_
  rw [Function.comp_apply, likePiece]
  by_cases hmany : c = '%'
  · rw [if_pos hmany, if_pos (.inl hmany)]
  · by_cases hone : c = '_'
    · rw [if_neg hmany, if_pos hone, if_pos (.inr hone)]
    · rw [if_neg hmany, if_neg hone, if_neg (not_or.mpr ⟨hmany, hone⟩)]

/-- A file in the folder that has a letter for each wildcard. -/
def filledFile (folder : PosixPath) : PosixPath :=
  (lowersPaths_fillText.foldPath folder).joinpath ["x"]

theorem filledFile_matches {folder : PosixPath} (hparts : folder.parts ≠ []) :
    Like.Matches (likePieces folder.asPosix ++ [.lit '/', .many]) (filledFile folder).asPosix.toList := by
  have hparts' : (lowersPaths_fillText.foldPath folder).parts ≠ [] :=
    fun h0 => hparts (List.map_eq_nil_iff.mp h0)
  have htext : (filledFile folder).asPosix.toList = (fillText folder.asPosix).toList ++ ['/', 'x'] := by
    rw [filledFile, asPosix_joinpath (by decide) (by decide) hparts', lowersPaths_fillText.folded]
    simp only [String.toList_append, List.append_assoc]
    congr 1
  rw [htext, Like.matches_append]
  refine ⟨_, _, rfl, ?_, ?_⟩
  · rw [← fill_likePieces]
    exact Like.matches_fill 'x' _
  · exact (Like.matches_prefix_iff : Like.Matches (['/'].map .lit ++ [.many]) ['/', 'x'] ↔ _).mpr
      ⟨['x'], rfl⟩

theorem filledFile_parts (folder : PosixPath) :
    (filledFile folder).parts = folder.parts.map fillText ++ ["x"] := by
  rw [filledFile, joinpath_parts (by decide), foldPath_parts]

theorem filledFile_unmarked {folder : PosixPath} (h : ∀ s ∈ folder.parts, hasMark s = false) :
    hasMark (filledFile folder).asPosix = false := by
  by_contra hmark
  obtain ⟨s, hs, hs'⟩ := (hasMark_asPosix _).mp (by simpa using hmark)
  rw [filledFile_parts] at hs
  rcases List.mem_append.mp hs with hs | hs
  · obtain ⟨t, ht, rfl⟩ := List.mem_map.mp hs
    rw [hasMark_fillText, h t ht] at hs'
    cases hs'
  · rw [List.mem_singleton.mp hs] at hs'
    exact absurd hs' (by decide)

/-- A letter of a text is in a component of its path, if it is no slash and no dot. -/
theorem exists_part_of_mem {c : Char} (hc : c ∈ text.toList) (hslash : c ≠ '/') (hdot : c ≠ '.') :
    ∃ s ∈ (PosixPath.parse text).parts, c ∈ s.toList := by
  rw [← joined_split text] at hc
  rcases mem_joined hc with hc | ⟨s, hs, hc⟩
  · exact absurd hc hslash
  · refine ⟨s, List.mem_filter.mpr ⟨hs, decide_eq_true ⟨?_, ?_, not_mem_of_mem_split hs⟩⟩, hc⟩
    · rintro rfl
      cases hc
    · rintro rfl
      exact hdot (List.mem_singleton.mp hc)

/-- A text whose path is a root has nothing to clean. -/
theorem cleanedFolder_of_root (h : text.toList.head? = some '/') (hparts : (PosixPath.parse text).parts = []) :
    cleanedFolder text = PosixPath.parse text := by
  have hletters : ∀ c ∈ text.toList, c = '/' ∨ c = '.' := by
    intro c hc
    by_contra hne
    obtain ⟨hslash, hdot⟩ := not_or.mp hne
    obtain ⟨s, hs, -⟩ := exists_part_of_mem hc hslash hdot
    rw [hparts] at hs
    cases hs
  refine cleanedFolder_eq h (fun hback => ?_) fun c hc => ?_
  · rcases hletters _ hback with h0 | h0
    · exact absurd h0 (by decide)
    · exact absurd h0 (by decide)
  · rcases hletters c (List.mem_of_getLast? hc) with rfl | rfl
    · decide
    · decide

theorem not_mem_cleaned_backslash {s : String} (hs : s ∈ (cleanedFolder text).parts) : '\\' ∉ s.toList := by
  intro hc
  rw [cleanedFolder, parse_parts] at hs
  have hmem := mem_of_mem_split (List.mem_filter.mp hs).1 hc
  rw [toList_slashed, List.mem_map] at hmem
  obtain ⟨c, -, hc⟩ := hmem
  by_cases hback : c = '\\'
  · rw [if_pos hback] at hc
    exact absurd hc (by decide)
  · rw [if_neg hback] at hc
    exact hback hc

/-- The spaces at the end of a text are the end of the last component of its path. -/
theorem spaces_eq_nil {a : String} {spaces : List Char} (hspaces : ∀ c ∈ spaces, isSpace c = true)
    (hanc : PosixPath.IsAncestor (PosixPath.parse (a ++ String.ofList spaces)) (PosixPath.parse a)) :
    spaces = [] := by
  by_contra hne
  obtain ⟨front, last, hsplit⟩ : ∃ front last, split '/' a = front ++ [last] :=
    ⟨_, _, (List.dropLast_append_getLast (split_ne_nil a)).symm⟩
  have hslash : '/' ∉ spaces := by
    intro hmem
    have hspace := hspaces _ hmem
    rw [show isSpace '/' = false from by decide] at hspace
    cases hspace
  have hlast : '/' ∉ last.toList :=
    not_mem_of_mem_split (by rw [hsplit]; exact List.mem_append_right _ (List.mem_singleton_self last))
  have hnoSlash : ∀ s ∈ front ++ [last ++ String.ofList spaces], '/' ∉ s.toList := by
    intro s hs
    rcases List.mem_append.mp hs with hs | hs
    · have hmem : s ∈ split '/' a := by
        rw [hsplit]
        exact List.mem_append_left _ hs
      exact not_mem_of_mem_split hmem
    · rw [List.mem_singleton.mp hs, String.toList_append, String.toList_ofList, List.mem_append, not_or]
      exact ⟨hlast, hslash⟩
  have hsingle : ∀ t : String, joined [t] = t := fun t => String.intercalate_singleton
  have htext : a ++ String.ofList spaces = joined (front ++ [last ++ String.ofList spaces]) := by
    rw [← joined_split a, hsplit]
    by_cases hfront : front = []
    · rw [hfront, List.nil_append, List.nil_append, hsingle, hsingle]
    · rw [joined_append hfront (List.cons_ne_nil _ []), joined_append hfront (List.cons_ne_nil _ []),
        hsingle, hsingle]
      simp only [String.append_assoc]
  have hvalid : ValidPart (last ++ String.ofList spaces) := by
    obtain ⟨space, rest, rfl⟩ := List.exists_cons_of_ne_nil hne
    have hspace := hspaces space List.mem_cons_self
    refine ⟨by simp, fun hdot => ?_, hnoSlash _ (by simp)⟩
    have hmem : space ∈ (last ++ String.ofList (space :: rest)).toList := by simp
    rw [hdot] at hmem
    rw [List.mem_singleton.mp hmem] at hspace
    exact absurd hspace (by decide)
  obtain ⟨-, hparts⟩ := hanc
  rw [parse_parts, parse_parts, hsplit, htext, split_joined_of_noSlash hnoSlash (by simp),
    PosixPath.validParts, PosixPath.validParts, List.filter_append, List.filter_append,
    List.prefix_append_right_inj, List.filter_cons_of_pos (by simpa using hvalid)] at hparts
  have hmem := (List.mem_filter.mp (hparts.subset List.mem_cons_self)).1
  have heq := congrArg String.length (List.mem_singleton.mp hmem)
  have hpos := List.length_pos_iff.mpr hne
  rw [String.length_append, String.length_ofList] at heq
  omega

/-- A folder whose files are those that match it is plain. -/
theorem plain_of_paths (h : text.toList.head? = some '/') (hmark : hasMark text = false)
    (hpaths : ∀ p : PosixPath, hasMark p.asPosix = false →
      (sourcePathWithinPrefix p.asPosix text = true ↔ PosixPath.IsAncestor (PosixPath.parse text) p)) :
    PlainFolder text := by
  have hunmarked : ∀ s ∈ (PosixPath.parse text).parts, hasMark s = false := by
    intro s hs
    by_contra hne
    have hmarked := (hasMark_parse text).mp ⟨s, hs, by simpa using hne⟩
    rw [hmark] at hmarked
    cases hmarked
  -- Every rooted path is taken where the folder is cleaned to a root, though not all lie in one folder.
  have hrooted : (cleanedFolder text).parts = [] → ∀ p : PosixPath, hasMark p.asPosix = false →
      p.root ≠ .relative → PosixPath.IsAncestor (PosixPath.parse text) p := by
    intro hnil p hp hroot
    refine (hpaths p hp).mp ?_
    rw [sourcePathWithinPrefix_iff h, if_pos hnil]
    exact hroot
  have hcleanedParts : (cleanedFolder text).parts ≠ [] := by
    intro hnil
    have hone := hrooted hnil (PosixPath.parse "/x") (by decide +kernel) (by decide)
    have htwo := hrooted hnil (PosixPath.parse "//x") (by decide +kernel) (by decide)
    exact absurd (hone.1.symm.trans htwo.1) (by decide)
  have hnamed : (PosixPath.parse text).parts ≠ [] := by
    intro hnil
    rw [cleanedFolder_of_root h hnil] at hcleanedParts
    exact hcleanedParts hnil
  obtain ⟨spaces, htext, hspaces, hhead, htrimmed⟩ := strip_rooted h
  -- The cleaned folder matches itself.
  have hcleaned : PosixPath.IsAncestor (PosixPath.parse text) (cleanedFolder text) := by
    refine (hpaths _ ?_).mp ?_
    · by_contra hne
      have hmarked : hasMark (cleanedFolder text).asPosix = true := by simpa using hne
      rw [hasMark_asPosix, cleanedFolder, hasMark_parse, hasMark_slashed] at hmarked
      have hmarked' := hasMark_append_left (String.ofList spaces) hmarked
      rw [← htext, hmark] at hmarked'
      cases hmarked'
    · rw [sourcePathWithinPrefix_iff h, if_neg hcleanedParts]
      exact .inl rfl
  have hback : '\\' ∉ text.toList := by
    intro hmem
    obtain ⟨s, hs, hc⟩ := exists_part_of_mem hmem (by decide) (by decide)
    exact not_mem_cleaned_backslash (hcleaned.2.subset hs) hc
  have hnil : spaces = [] := by
    have hback' : '\\' ∉ (strip text).toList := by
      intro hmem
      rw [htext, String.toList_append] at hback
      exact hback (List.mem_append_left _ hmem)
    rw [cleanedFolder, slashed_of_not_mem hback'] at hcleaned
    refine spaces_eq_nil (a := strip text) hspaces ?_
    rw [← htext]
    exact hcleaned
  have hstrip : strip text = text := by
    have hempty : String.ofList ([] : List Char) = "" := rfl
    rw [hnil, hempty, String.append_empty] at htext
    exact htext.symm
  rw [hstrip] at htrimmed
  refine ⟨hnamed, fun c hc => ?_, htrimmed⟩
  have hwild : ¬ (c = '%' ∨ c = '_') := by
    intro hwild
    have hsame := cleanedFolder_eq h hback htrimmed
    have hanc := (hpaths (filledFile (PosixPath.parse text)) (filledFile_unmarked hunmarked)).mp (by
      rw [sourcePathWithinPrefix_iff h, if_neg hcleanedParts, hsame]
      exact .inr (filledFile_matches hnamed))
    have hparts := hanc.2
    rw [filledFile_parts] at hparts
    have hfill : (PosixPath.parse text).parts.map fillText = (PosixPath.parse text).parts :=
      ((List.prefix_of_prefix_length_le hparts (List.prefix_append _ _)
        (by rw [List.length_map])).eq_of_length (by rw [List.length_map])).symm
    obtain ⟨s, hs, hcs⟩ := exists_part_of_mem hc (by rcases hwild with rfl | rfl <;> decide)
      (by rcases hwild with rfl | rfl <;> decide)
    have heq : fillText s = s := by
      have hall := List.map_eq_map_iff.mp (hfill.trans (List.map_id _).symm)
      exact hall s hs
    rw [← heq, fillText, String.toList_ofList, List.mem_map] at hcs
    obtain ⟨d, -, hd⟩ := hcs
    by_cases hdw : d = '%' ∨ d = '_'
    · rw [if_pos hdw] at hd
      rcases hwild with rfl | rfl
      · exact absurd hd (by decide)
      · exact absurd hd (by decide)
    · rw [if_neg hdw] at hd
      exact hdw (hd ▸ hwild)
  exact ⟨fun h0 => hwild (.inl h0), fun h0 => hwild (.inr h0), fun h0 => hback (h0 ▸ hc)⟩

/-- Listing or counting the files of an absolute folder takes those that are the folder or lie under it,
for all tracked files, exactly when the text of the folder has a mark, so that no file in it is listed at
all, or the folder is plain: it is no root, and its text has no wildcard, no backslash and no space at its
end. -/
theorem listsFolder_iff (h : text.toList.head? = some '/') :
    ListsFolder text ↔ hasMark text = true ∨ PlainFolder text := by
  rw [listsFolder_iff_paths h]
  constructor
  · intro hpaths
    by_cases hmark : hasMark text = true
    · exact .inl hmark
    · exact .inr (plain_of_paths h (by simpa using hmark) hpaths)
  · rintro (hmark | hplain) p hp
    · exact paths_of_hasMark h hmark hp
    · exact paths_of_plain h hplain

end Files

/-- A folder of films. -/
theorem listsFolder_iff_films : "/media/My Films/".toList.head? = some '/' ∧
    ListsFolder "/media/My Films/" := by
  have hplain : ("/media/My Films/".toList.all fun c => c != '%' && c != '_' && c != '\\') = true := by
    decide +kernel
  refine ⟨by decide, (listsFolder_iff (by decide)).mpr (.inr ⟨by decide +kernel, fun c hc => ?_, fun c hc => ?_⟩)⟩
  · simpa only [Bool.and_eq_true, bne_iff_ne, and_assoc] using List.all_eq_true.mp hplain c hc
  · have hlast : "/media/My Films/".toList.getLast? = some '/' := by decide +kernel
    rw [hlast] at hc
    cases hc
    decide

/-- A file in a sibling of the folder `/media/a_b`. -/
def siblingFile : TrackedFile where
  id := "sibling"
  sourcePath := PosixPath.parse "/media/axb/film.mkv"
  createdAt := 0
  updatedAt := 0

/-- The files of a sibling are listed with those of a folder that has an underscore. -/
theorem underscore_lists_sibling :
    listFiles [siblingFile] { pathPrefix := some "/media/a_b" } = [siblingFile] ∧
    ¬ PosixPath.IsAncestor (PosixPath.parse "/media/a_b") siblingFile.sourcePath ∧
    ¬ ListsFolder "/media/a_b" := by
  refine ⟨by decide +kernel, by decide +kernel, fun hlists => ?_⟩
  have hlist := (hlists [siblingFile] {}).1
  exact absurd hlist (by decide +kernel)

end Encodr
