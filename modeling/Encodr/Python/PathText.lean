import Encodr.Python.Path
import Encodr.Python.Text

/-!
# The text of a path

`joined` is the text of the parts of a path, with slashes between them. Splitting it at the slashes
gives the parts back, so one path lies below another exactly where its text starts with the text of the
other and a slash.

* `split_joined`, `joined_inj`: the parts and their text.
* `asPosix_of_slash`, `asPosix_inj`: the text of a rooted path.
* `startsWith_asPosix_iff`, `dropWhile_drop_asPosix`: the paths below a path, and what they have below it.
* `parse_asPosix`: the text of a path is a text of that path.
-/

namespace Python

/-- The parts with slashes between them. -/
def joined (parts : List String) : String :=
  "/".intercalate parts

@[simp] theorem joined_nil : joined [] = "" := String.intercalate_nil

theorem joined_append {xs ys : List String} (hxs : xs ≠ []) (hys : ys ≠ []) :
    joined (xs ++ ys) = joined xs ++ "/" ++ joined ys :=
  String.intercalate_append_of_ne_nil hxs hys

theorem split_append_slash (a b : String) : split '/' (a ++ "/" ++ b) = split '/' a ++ split '/' b := by
  have hlist : (a ++ "/" ++ b).toList = a.toList ++ '/' :: b.toList := by simp
  rw [split, hlist, List.splitOn_append_cons_self, List.map_append]
  rfl

theorem split_joined_of_noSlash {parts : List String} (h : ∀ s ∈ parts, '/' ∉ s.toList)
    (hne : parts ≠ []) : split '/' (joined parts) = parts := by
  have hsplit := List.splitOn_intercalate '/' (fun l hl => by
    obtain ⟨s, hs, rfl⟩ := List.mem_map.mp hl
    exact h s hs) (by simpa using hne)
  have htext : (joined parts).toList = List.intercalate ['/'] (parts.map String.toList) := by
    rw [joined, String.toList_intercalate]
    rfl
  rw [split, htext, hsplit, List.map_map]
  exact List.map_id'' (fun s => String.ofList_toList) parts

theorem split_joined {parts : List String} (h : ∀ s ∈ parts, ValidPart s) (hne : parts ≠ []) :
    split '/' (joined parts) = parts :=
  split_joined_of_noSlash (fun s hs => (h s hs).2.2) hne

theorem joined_ne_empty {parts : List String} (h : ∀ s ∈ parts, ValidPart s) (hne : parts ≠ []) :
    joined parts ≠ "" := by
  intro hempty
  have hsplit := split_joined h hne
  rw [hempty] at hsplit
  have hpart := h "" (by rw [← hsplit]; exact List.mem_singleton_self "")
  exact hpart.1 rfl

/-- The text of parts does not start with a slash. -/
theorem joined_head {parts : List String} (h : ∀ s ∈ parts, ValidPart s) :
    (joined parts).toList.head? ≠ some '/' := by
  intro hhead
  by_cases hne : parts = []
  · subst hne
    simp at hhead
  · obtain ⟨tail, htail⟩ : ∃ tail, (joined parts).toList = '/' :: tail := by
      cases htext : (joined parts).toList with
      | nil => simp [htext] at hhead
      | cons c tail => exact ⟨tail, by simpa [htext] using hhead⟩
    have hsplit := split_joined h hne
    have htext : joined parts = "" ++ "/" ++ String.ofList tail := by
      rw [← String.toList_inj, htail]
      simp
    rw [htext, split_append_slash] at hsplit
    have hpart := h "" (by rw [← hsplit]; exact List.mem_append_left _ (List.mem_singleton_self ""))
    exact hpart.1 rfl

theorem joined_inj {xs ys : List String} (hxs : ∀ s ∈ xs, ValidPart s) (hys : ∀ s ∈ ys, ValidPart s)
    (h : joined xs = joined ys) : xs = ys := by
  by_cases hx : xs = []
  · subst hx
    by_contra hy
    exact joined_ne_empty hys (Ne.symm hy) h.symm
  · by_cases hy : ys = []
    · subst hy
      exact absurd h (joined_ne_empty hxs hx)
    · rw [← split_joined hxs hx, h, split_joined hys hy]

theorem joined_split (text : String) : joined (split '/' text) = text := by
  rw [← String.toList_inj, joined, String.toList_intercalate, split, List.map_map]
  have hmap : (text.toList.splitOn '/').map (String.toList ∘ String.ofList) = text.toList.splitOn '/' :=
    List.map_id'' (fun l => String.toList_ofList) _
  rw [hmap]
  exact List.intercalate_splitOn '/'

theorem split_ne_nil (text : String) : split '/' text ≠ [] := by
  simp [split]

/-- A text starts with another and a slash where it has the components of the other and more. -/
theorem startsWith_slash_iff {a b : String} :
    startsWith a (b ++ "/") = true ↔ ∃ rest, rest ≠ [] ∧ split '/' a = split '/' b ++ rest := by
  rw [startsWith, decide_eq_true_eq]
  constructor
  · rintro ⟨tail, htail⟩
    have htext : a = b ++ "/" ++ String.ofList tail := by
      rw [← String.toList_inj, ← htail]
      simp
    exact ⟨_, split_ne_nil _, htext ▸ split_append_slash b (String.ofList tail)⟩
  · rintro ⟨rest, hrest, hsplit⟩
    have htext : a = b ++ "/" ++ joined rest := by
      rw [← joined_split a, hsplit, joined_append (split_ne_nil b) hrest, joined_split]
    rw [htext]
    exact ⟨(joined rest).toList, by simp⟩

/-- The text of parts does not end with a slash. -/
theorem joined_getLast {parts : List String} (h : ∀ s ∈ parts, ValidPart s) :
    (joined parts).toList.getLast? ≠ some '/' := by
  intro hlast
  by_cases hne : parts = []
  · subst hne
    simp at hlast
  · obtain ⟨front, hfront⟩ := List.getLast?_eq_some_iff.mp hlast
    have htext : joined parts = String.ofList front ++ "/" ++ "" := by
      rw [← String.toList_inj, hfront]
      simp
    have hsplit := split_joined h hne
    rw [htext, split_append_slash] at hsplit
    have hpart := h "" (by rw [← hsplit]; exact List.mem_append_right _ (List.mem_singleton_self ""))
    exact hpart.1 rfl

theorem rstripSlash_eq {text : List Char} (h : text.getLast? ≠ some '/') : rstripSlash text = text := by
  have hdrop : text.reverse.dropWhile (· = '/') = text.reverse := by
    cases htext : text.reverse with
    | nil => rfl
    | cons c cs =>
      have hc : c ≠ '/' := by
        intro hc
        rw [← List.head?_reverse, htext, hc] at h
        exact h rfl
      rw [List.dropWhile_cons_of_neg (by simpa using hc)]
  rw [rstripSlash, hdrop, List.reverse_reverse]

theorem filter_validParts {parts : List String} (h : ∀ s ∈ parts, ValidPart s) :
    PosixPath.validParts parts = parts :=
  List.filter_eq_self.mpr fun s hs => decide_eq_true (h s hs)

theorem not_mem_of_mem_splitOn (sep : Char) (xs piece : List Char) (h : piece ∈ xs.splitOn sep) :
    sep ∉ piece := by
  induction xs generalizing piece with
  | nil => simp_all
  | cons x xs ih =>
    rw [List.splitOn_cons_eq_if_modifyHead] at h
    split at h
    · rcases List.mem_cons.mp h with rfl | h
      · simp
      · exact ih piece h
    · next hx =>
      cases hsplit : xs.splitOn sep with
      | nil => exact absurd hsplit (List.splitOn_ne_nil sep xs)
      | cons head pieces =>
        rw [hsplit, List.modifyHead_cons] at h
        rcases List.mem_cons.mp h with rfl | h
        · have hhead := ih head (by rw [hsplit]; exact List.mem_cons_self)
          have hne : x ≠ sep := by simpa using hx
          rw [List.mem_cons, not_or]
          exact ⟨Ne.symm hne, hhead⟩
        · exact ih piece (by rw [hsplit]; exact List.mem_cons_of_mem _ h)

theorem not_mem_of_mem_split {text s : String} (h : s ∈ split '/' text) : '/' ∉ s.toList := by
  obtain ⟨piece, hpiece, rfl⟩ := List.mem_map.mp h
  rw [String.toList_ofList]
  exact not_mem_of_mem_splitOn _ _ _ hpiece

/-- The last component of a text that ends without a slash. -/
theorem exists_split_append {stop : String} (h : '/' ∉ stop.toList) (text : String) :
    ∃ before last, split '/' (text ++ stop) = before ++ [last ++ stop] := by
  have hne := split_ne_nil text
  have hpieces : ∀ s ∈ split '/' text, '/' ∉ s.toList := fun s hs => not_mem_of_mem_split hs
  obtain ⟨before, last, hsplit⟩ := (List.eq_nil_or_concat' _).resolve_left hne
  refine ⟨before, last, ?_⟩
  rw [hsplit] at hpieces
  have htext : text ++ stop = joined (before ++ [last ++ stop]) := by
    rw [← joined_split text, hsplit]
    by_cases hnil : before = []
    · simp [hnil, joined]
    · rw [joined_append hnil (List.cons_ne_nil _ _), joined_append hnil (List.cons_ne_nil _ _)]
      simp [joined, String.append_assoc]
  rw [htext, split_joined_of_noSlash _ (by simp)]
  intro s hs
  rcases List.mem_append.mp hs with hs | hs
  · exact hpieces s (List.mem_append_left _ hs)
  · rw [List.mem_singleton.mp hs, String.toList_append, List.mem_append, not_or]
    exact ⟨hpieces last (by simp), h⟩

/-- The front of a text before the separator. -/
theorem prefix_splitOn_iff {sep : Char} {letters : List Char} (h : sep ∉ letters) (xs : List Char) :
    letters <+: xs ↔ ∃ piece, (xs.splitOn sep).head? = some piece ∧ letters <+: piece := by
  induction xs generalizing letters with
  | nil => simp
  | cons x xs ih =>
    rw [List.splitOn_cons_eq_if_modifyHead]
    cases letters with
    | nil =>
      obtain ⟨piece, pieces, hsplit⟩ := List.exists_cons_of_ne_nil
        (show (if (x == sep) = true then [] :: xs.splitOn sep else (xs.splitOn sep).modifyHead (x :: ·)) ≠ []
          from by split <;> simp [List.splitOn_ne_nil])
      exact ⟨fun _ => ⟨piece, by rw [hsplit]; rfl, List.nil_prefix⟩, fun _ => List.nil_prefix⟩
    | cons l letters =>
      rw [List.mem_cons, not_or] at h
      rw [List.cons_prefix_cons, ih h.2]
      by_cases hx : x = sep
      · rw [if_pos (by simpa using hx), hx]
        constructor
        · rintro ⟨rfl, -⟩
          exact absurd rfl h.1
        · rintro ⟨piece, hpiece, hletters⟩
          rw [List.head?_cons, Option.some.injEq] at hpiece
          rw [← hpiece] at hletters
          exact absurd (List.prefix_nil.mp hletters) (List.cons_ne_nil l letters)
      · rw [if_neg (by simpa using hx)]
        cases hsplit : xs.splitOn sep with
        | nil => exact absurd hsplit (List.splitOn_ne_nil sep xs)
        | cons head pieces => simp [List.cons_prefix_cons]

/-- Letters other than the separator stand in a text where they stand in one of its pieces. -/
theorem infix_splitOn_iff {sep : Char} {letters : List Char} (hne : letters ≠ []) (h : sep ∉ letters)
    (xs : List Char) : letters <:+: xs ↔ ∃ piece ∈ xs.splitOn sep, letters <:+: piece := by
  induction xs with
  | nil => simp [hne]
  | cons x xs ih =>
    rw [List.infix_cons_iff, prefix_splitOn_iff h, ih, List.splitOn_cons_eq_if_modifyHead]
    by_cases hx : x = sep
    · rw [if_pos (by simpa using hx)]
      simp [hne]
    · rw [if_neg (by simpa using hx)]
      cases hsplit : xs.splitOn sep with
      | nil => exact absurd hsplit (List.splitOn_ne_nil sep xs)
      | cons head pieces =>
        simp only [List.modifyHead_cons, List.head?_cons, Option.some.injEq, List.mem_cons,
          exists_eq_or_imp, exists_eq_left', List.infix_cons_iff, or_assoc]

theorem inText_iff_split {m : String} (hne : m ≠ "") (h : '/' ∉ m.toList) (text : String) :
    inText m text = true ↔ ∃ s ∈ split '/' text, inText m s = true := by
  have hne' : m.toList ≠ [] := by simpa using hne
  rw [inText, decide_eq_true_eq, infix_splitOn_iff hne' h]
  constructor
  · rintro ⟨piece, hpiece, hm⟩
    exact ⟨String.ofList piece, List.mem_map_of_mem hpiece, by
      rwa [inText, decide_eq_true_eq, String.toList_ofList]⟩
  · rintro ⟨s, hs, hm⟩
    obtain ⟨piece, hpiece, rfl⟩ := List.mem_map.mp hs
    rw [inText, decide_eq_true_eq, String.toList_ofList] at hm
    exact ⟨piece, hpiece, hm⟩

/-- Splitting after changing letters, where the separator is kept and made of no other letter. -/
theorem splitOn_map {f : Char → Char} {sep : Char} (h : ∀ c, f c = sep ↔ c = sep) (xs : List Char) :
    (xs.map f).splitOn sep = (xs.splitOn sep).map (List.map f) := by
  induction xs with
  | nil => rfl
  | cons x xs ih =>
    rw [List.map_cons, List.splitOn_cons_eq_if_modifyHead, List.splitOn_cons_eq_if_modifyHead, ih]
    by_cases hx : x = sep
    · rw [if_pos (by simpa using (h x).mpr hx), if_pos (by simpa using hx)]
      rfl
    · rw [if_neg (by simpa using fun hf => hx ((h x).mp hf)), if_neg (by simpa using hx)]
      cases xs.splitOn sep with
      | nil => rfl
      | cons head pieces => rfl

theorem split_lower (text : String) : split '/' (lower text) = (split '/' text).map lower := by
  have hslash : ∀ c, lowerChar c = '/' ↔ c = '/' := fun c =>
    ⟨fun h => lowerChar_eq_of_lt (by decide) h, fun h => by rw [h]; decide⟩
  rw [split, lower, String.toList_ofList, splitOn_map hslash, split, List.map_map, List.map_map]
  refine List.map_congr_left fun piece _ => ?_
  rw [Function.comp_apply, Function.comp_apply, lower, String.toList_ofList]

/-! ## Backslashes -/

section Slashed

variable {a : String} {parts : List String} {c : Char}

theorem toList_slashed (text : String) :
    (slashed text).toList = text.toList.map fun c => if c = '\\' then '/' else c := by
  rw [slashed, String.toList_ofList]

theorem slashed_append (a b : String) : slashed (a ++ b) = slashed a ++ slashed b := by
  rw [← String.toList_inj]
  simp only [toList_slashed, String.toList_append, List.map_append]

theorem slashed_of_not_mem (h : '\\' ∉ a.toList) : slashed a = a := by
  rw [← String.toList_inj, toList_slashed]
  refine (List.map_congr_left fun c hc => ?_).trans (List.map_id _)
  have hne : c ≠ '\\' := fun heq => h (heq ▸ hc)
  rw [if_neg hne]
  rfl

theorem mem_joined (h : c ∈ (joined parts).toList) : c = '/' ∨ ∃ s ∈ parts, c ∈ s.toList := by
  induction parts with
  | nil => simp at h
  | cons s parts ih =>
    by_cases hne : parts = []
    · subst hne
      exact .inr ⟨s, List.mem_singleton_self s, by simpa [joined] using h⟩
    · have hcons := joined_append (List.cons_ne_nil s []) hne
      rw [List.singleton_append, joined, joined, String.intercalate_singleton] at hcons
      rw [joined, hcons] at h
      simp only [String.toList_append, List.mem_append] at h
      rcases h with (h | h) | h
      · exact .inr ⟨s, List.mem_cons_self, h⟩
      · exact .inl (by simpa using h)
      · rcases ih h with h | ⟨t, ht, htc⟩
        · exact .inl h
        · exact .inr ⟨t, List.mem_cons_of_mem _ ht, htc⟩

theorem slashed_joined (h : ∀ s ∈ parts, '\\' ∉ s.toList) : slashed (joined parts) = joined parts := by
  refine slashed_of_not_mem fun hmem => ?_
  rcases mem_joined hmem with h' | ⟨s, hs, hc⟩
  · exact absurd h' (by decide)
  · exact h s hs hc

end Slashed

/-- The text of a root. -/
def Root.text : Root → String
  | .relative => ""
  | .slash => "/"
  | .doubleSlash => "//"

/-- The components that the text of a root adds to a path. -/
def Root.components : Root → List String
  | .relative => []
  | .slash => [""]
  | .doubleSlash => ["", ""]

namespace PosixPath

variable {p q : PosixPath}

theorem ext_parts (hroot : p.root = q.root) (h : p.parts = q.parts) : p = q := by
  obtain ⟨_, _, _⟩ := p
  obtain ⟨_, _, _⟩ := q
  obtain rfl := hroot
  obtain rfl := h
  rfl

/-- The text of a path that is rooted or has parts. -/
theorem asPosix_eq (h : p.root ≠ .relative ∨ p.parts ≠ []) :
    p.asPosix = p.root.text ++ joined p.parts := by
  unfold asPosix
  cases hroot : p.root with
  | relative =>
    have hne : p.parts ≠ [] := h.resolve_left fun hr => hr hroot
    simp only [if_neg hne, Root.text, joined, String.empty_append]
  | slash => rfl
  | doubleSlash => rfl

theorem asPosix_dot (hroot : p.root = .relative) (h : p.parts = []) : p.asPosix = "." := by
  simp only [asPosix, hroot, if_pos h]

/-- The components of the text of a path that has parts. -/
theorem split_asPosix (h : p.parts ≠ []) : split '/' p.asPosix = p.root.components ++ p.parts := by
  rw [asPosix_eq (.inr h)]
  cases p.root with
  | relative =>
    rw [Root.text, String.empty_append, split_joined p.parts_ok h]
    rfl
  | slash =>
    have htext : Root.slash.text ++ joined p.parts = "" ++ "/" ++ joined p.parts := by
      rw [← String.toList_inj]
      simp [Root.text]
    rw [htext, split_append_slash, split_joined p.parts_ok h]
    rfl
  | doubleSlash =>
    have htext : Root.doubleSlash.text ++ joined p.parts = "/" ++ "/" ++ joined p.parts := by
      rw [← String.toList_inj]
      simp [Root.text]
    rw [htext, split_append_slash, split_joined p.parts_ok h]
    rfl

/-- The text of a path is a text of that path. -/
theorem parse_asPosix (p : PosixPath) : parse p.asPosix = p := by
  by_cases h : p.parts = []
  · have hparts : ∀ root, PosixPath.mk root p.parts p.parts_ok = ⟨root, [], by simp⟩ := by
      intro root
      exact ext_parts rfl h
    obtain ⟨root, parts, hok⟩ := p
    rw [hparts root]
    cases root
    · decide
    · decide
    · decide
  · refine ext_parts ?_ ?_
    · show rootOf p.asPosix.toList = p.root
      rw [asPosix_eq (.inr h)]
      have hhead := joined_head p.parts_ok
      cases htext : (joined p.parts).toList with
      | nil => exact absurd (by simpa using htext) (joined_ne_empty p.parts_ok h)
      | cons c cs =>
        have hc : c ≠ '/' := fun hc => hhead (by rw [htext, hc]; rfl)
        rw [String.toList_append, htext]
        cases p.root with
        | relative => simp [Root.text, rootOf, hc]
        | slash => simp [Root.text, rootOf, hc]
        | doubleSlash => simp [Root.text, rootOf, hc]
    · show validParts (split '/' p.asPosix) = p.parts
      rw [split_asPosix h, validParts, List.filter_append, ← validParts, ← validParts,
        filter_validParts p.parts_ok]
      cases p.root
      · rfl
      · rfl
      · rfl

/-- Of two paths with one root, the one that has more of the parts has the longer text. -/
theorem length_asPosix_lt {rest : List String} (hroot : p.root = q.root) (habs : p.root ≠ .relative)
    (hrest : rest ≠ []) (h : q.parts = p.parts ++ rest) : p.asPosix.length < q.asPosix.length := by
  have hok : ∀ s ∈ rest, ValidPart s := fun s hs => q.parts_ok s (h ▸ List.mem_append_right _ hs)
  have hpos : 0 < (joined rest).length := by
    rw [← String.length_toList, List.length_pos_iff]
    simpa using joined_ne_empty hok hrest
  have hlt : (joined p.parts).length < (joined q.parts).length := by
    by_cases hnil : p.parts = []
    · rw [h, hnil, List.nil_append, joined_nil]
      exact hpos
    · rw [h, joined_append hnil hrest]
      simp only [String.length_append]
      omega
  rw [asPosix_eq (.inl habs), asPosix_eq (.inl (hroot ▸ habs)), hroot]
  simp only [String.length_append]
  omega

theorem ext_slash (hp : p.root = .slash) (hq : q.root = .slash) (h : p.parts = q.parts) : p = q := by
  obtain ⟨_, _, _⟩ := p
  obtain ⟨_, _, _⟩ := q
  obtain rfl := hp
  obtain rfl := hq
  obtain rfl := h
  rfl

theorem asPosix_of_slash (h : p.root = .slash) : p.asPosix = "/" ++ joined p.parts := by
  simp only [asPosix, h, joined]

theorem asPosix_inj (hp : p.root = .slash) (hq : q.root = .slash) (h : p.asPosix = q.asPosix) :
    p = q := by
  rw [asPosix_of_slash hp, asPosix_of_slash hq, String.append_right_inj] at h
  exact ext_slash hp hq (joined_inj p.parts_ok q.parts_ok h)

/-- A text starts with the text of a path and a slash where it is the text of a path below it. -/
theorem startsWith_asPosix_iff (hp : p.root = .slash) (hq : q.root = .slash) :
    startsWith p.asPosix (q.asPosix ++ "/") = true ↔
      q.parts ≠ [] ∧ ∃ rest, rest ≠ [] ∧ p.parts = q.parts ++ rest := by
  rw [asPosix_of_slash hp, asPosix_of_slash hq, startsWith, decide_eq_true_eq]
  constructor
  · rintro ⟨tail, htail⟩
    have htext : joined p.parts = joined q.parts ++ "/" ++ String.ofList tail := by
      rw [← String.toList_inj]
      have hlist : '/' :: ((joined q.parts).toList ++ '/' :: tail) = '/' :: (joined p.parts).toList := by
        simpa using htail
      simpa using (List.cons.inj hlist).2.symm
    have hne : p.parts ≠ [] := by
      intro hnil
      rw [hnil, joined_nil] at htext
      have hlist := congrArg String.toList htext
      simp at hlist
    have hq' : q.parts ≠ [] := by
      intro hnil
      rw [hnil, joined_nil] at htext
      exact joined_head p.parts_ok (by rw [htext]; simp)
    have hsplit := split_joined p.parts_ok hne
    rw [htext, split_append_slash, split_joined q.parts_ok hq'] at hsplit
    exact ⟨hq', _, by simp [split], hsplit.symm⟩
  · rintro ⟨hq', rest, hrest, hparts⟩
    rw [hparts, joined_append hq' hrest]
    exact ⟨(joined rest).toList, by simp⟩

/-- What a path has below another. -/
theorem dropWhile_drop_asPosix {rest : List String} (hp : p.root = .slash) (hq : q.root = .slash)
    (hparts : p.parts = q.parts ++ rest) :
    (p.asPosix.toList.drop q.asPosix.length).dropWhile (· = '/') = (joined rest).toList := by
  have hrest : ∀ s ∈ rest, ValidPart s := fun s hs =>
    p.parts_ok s (hparts ▸ List.mem_append_right _ hs)
  have hdrop : (joined rest).toList.dropWhile (· = '/') = (joined rest).toList := by
    cases htext : (joined rest).toList with
    | nil => rfl
    | cons c cs =>
      have hc : c ≠ '/' := fun hc => joined_head hrest (by rw [htext, hc]; rfl)
      rw [List.dropWhile_cons_of_neg (by simpa using hc)]
  rw [asPosix_of_slash hp, asPosix_of_slash hq, hparts]
  by_cases hnil : rest = []
  · rw [hnil, List.append_nil, ← String.length_toList, List.drop_length]
    rfl
  · by_cases hq' : q.parts = []
    · have hsplit : ("/" ++ joined rest).toList = ("/" ++ "").toList ++ (joined rest).toList := by simp
      rw [hq', List.nil_append, joined_nil, hsplit, ← String.length_toList, List.drop_left]
      exact hdrop
    · rw [joined_append hq' hnil]
      have hsplit : ("/" ++ (joined q.parts ++ "/" ++ joined rest)).toList =
          ("/" ++ joined q.parts).toList ++ '/' :: (joined rest).toList := by simp
      rw [hsplit, ← String.length_toList, List.drop_left, List.dropWhile_cons_of_pos (by simp)]
      exact hdrop

end PosixPath

end Python
