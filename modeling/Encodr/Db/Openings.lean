import Encodr.Db.Scheduling
import Encodr.Lib.Result
import Encodr.Python.Text

/-!
# When schedule windows open

A window is open from its start on each of its days to its end, on the same day or, over midnight, on
the next. In these terms a closed schedule opens at the start of a window, and a week is far enough to
look for it.

* `normaliseScheduleWindows_ok`: the windows that are accepted.
* `ScheduleWindow.Covers`, `allows_iff`: the membership test as intervals of local time.
* `nextOpening_exact`: in a zone with a constant offset, `next_schedule_opening` is the first instant at
  which the windows are open.
-/

namespace Encodr

open Python Lib

/-! ## Accepted windows -/

/-- What `normalise_schedule_windows` makes of a window: known days, times of the day. -/
structure ScheduleWindow.Normalised (window : ScheduleWindow) : Prop where
  nonempty : window.days ≠ []
  day_lt : ∀ d ∈ window.days, d < 7
  start_lt : window.startMinute < 1440
  end_lt : window.endMinute < 1440

/-- The `ValueError`s of `normalise_schedule_windows`. -/
inductive ScheduleError where
  | noDay
  | unsupportedDay (day : String)
  | timeFormat
deriving DecidableEq, Repr

def ScheduleError.message : ScheduleError → String
  | .noDay => "Each schedule window must include at least one day."
  | .unsupportedDay day => "Unsupported schedule day '" ++ day ++ "'."
  | .timeFormat => "Schedule times must use HH:MM format."

def dayOrder : List String := ["mon", "tue", "wed", "thu", "fri", "sat", "sun"]

/-- A window as a request has it. -/
structure RawScheduleWindow where
  days : List String
  startTime : String
  endTime : String
deriving DecidableEq, Repr

/-- The text before the first colon, and the text after it. -/
def splitColon (value : String) : Option (String × String) :=
  match split ':' value with
  | hour :: rest@(_ :: _) => some (hour, ":".intercalate rest)
  | _ => none

/-- `_parse_time`, in minutes; `int` is the built-in function of a text. -/
def parseTime (int : String → Option Int) (value : String) : Except ScheduleError Nat := do
  let (hourText, minuteText) ← found .timeFormat (splitColon value)
  let hour ← found .timeFormat (int hourText)
  let minute ← found .timeFormat (int minuteText)
  require (0 ≤ hour ∧ hour ≤ 23 ∧ 0 ≤ minute ∧ minute ≤ 59) .timeFormat
  return hour.toNat * 60 + minute.toNat

/-- The loop over the days of a window. -/
def cleanDays : List String → List Nat → Except ScheduleError (List Nat)
  | [], cleaned => return cleaned
  | day :: days, cleaned => do
    let index := dayOrder.idxOf (lower (strip day))
    require (index < dayOrder.length) (.unsupportedDay day)
    cleanDays days (if index ∈ cleaned then cleaned else cleaned ++ [index])

/-- One window in `normalise_schedule_windows`. -/
def normaliseScheduleWindow (int : String → Option Int) (raw : RawScheduleWindow) :
    Except ScheduleError ScheduleWindow := do
  require (raw.days ≠ []) .noDay
  let days ← cleanDays raw.days []
  let startMinute ← parseTime int (strip raw.startTime)
  let endMinute ← parseTime int (strip raw.endTime)
  return { days, startMinute, endMinute }

/-- `normalise_schedule_windows` of a list of windows; the empty list stands for `None`. -/
def normaliseScheduleWindows (int : String → Option Int) (raw : List RawScheduleWindow) :
    Except ScheduleError (List ScheduleWindow) :=
  raw.mapM (normaliseScheduleWindow int)

section Accepted

variable {int : String → Option Int}

theorem parseTime_lt {value : String} {n : Nat} (h : parseTime int value = .ok n) : n < 1440 := by
  simp only [parseTime, found_bind_ok, require_bind_ok, return_ok] at h
  obtain ⟨⟨_, _⟩, -, hour, -, minute, -, ⟨h0, h23, m0, m59⟩, rfl⟩ := h
  omega

/-- The loop keeps the days it has, and adds known days. -/
theorem cleanDays_ok {days : List String} {cleaned cleaned' : List Nat}
    (h : cleanDays days cleaned = .ok cleaned') (hlt : ∀ d ∈ cleaned, d < 7) :
    (∀ d ∈ cleaned', d < 7) ∧ (cleaned ≠ [] ∨ days ≠ [] → cleaned' ≠ []) := by
  induction days generalizing cleaned with
  | nil =>
    obtain rfl := Except.ok.inj h
    exact ⟨hlt, fun hne => hne.resolve_right fun h => h rfl⟩
  | cons day days ih =>
    rw [cleanDays, require_bind_ok] at h
    obtain ⟨hday, h⟩ := h
    have hadd : ∀ d ∈ (if dayOrder.idxOf (lower (strip day)) ∈ cleaned then cleaned
        else cleaned ++ [dayOrder.idxOf (lower (strip day))]), d < 7 := by
      intro d hd
      split at hd
      · exact hlt d hd
      · rcases List.mem_append.mp hd with hd | hd
        · exact hlt d hd
        · exact List.mem_singleton.mp hd ▸ hday
    refine ⟨(ih h hadd).1, fun _ => (ih h hadd).2 (.inl ?_)⟩
    split
    · next hmem => exact List.ne_nil_of_mem hmem
    · simp

theorem normaliseScheduleWindow_ok {raw : RawScheduleWindow} {window : ScheduleWindow}
    (h : normaliseScheduleWindow int raw = .ok window) : window.Normalised := by
  simp only [normaliseScheduleWindow, bind_ok, require_ok, return_ok] at h
  obtain ⟨_, hne, cleaned, hdays, startMinute, hstart, endMinute, hend, rfl⟩ := h
  obtain ⟨hlt, hnonempty⟩ := cleanDays_ok hdays (by simp)
  exact ⟨hnonempty (.inr hne), hlt, parseTime_lt hstart, parseTime_lt hend⟩

/-- The windows that are accepted have days, and times of the day. -/
theorem normaliseScheduleWindows_ok {raw : List RawScheduleWindow} {windows : List ScheduleWindow}
    (h : normaliseScheduleWindows int raw = .ok windows) : ∀ w ∈ windows, w.Normalised := by
  unfold normaliseScheduleWindows at h
  induction raw generalizing windows with
  | nil =>
    obtain rfl := Except.ok.inj h
    simp
  | cons raw raws ih =>
    rw [List.mapM_cons] at h
    simp only [bind_ok, return_ok] at h
    obtain ⟨window, hwindow, rest, hrest, rfl⟩ := h
    intro w hw
    rcases List.mem_cons.mp hw with rfl | hw
    · exact normaliseScheduleWindow_ok hwindow
    · exact ih hrest w hw

end Accepted

/-! ## Windows as intervals -/

/-- When `window` opens on a day, in local time. -/
def ScheduleWindow.opensAt (window : ScheduleWindow) (day : Int) : Int :=
  Encodr.days day + minutes window.startMinute

/-- When the window that opens on a day closes; over midnight this is on the next day. -/
def ScheduleWindow.closesAt (window : ScheduleWindow) (day : Int) : Int :=
  Encodr.days (if window.startMinute ≤ window.endMinute then day else day + 1) + minutes window.endMinute

/-- A local time lies in a window that opens on `day`. -/
structure ScheduleWindow.Covers (window : ScheduleWindow) (day localTime : Int) : Prop where
  day_mem : Calendar.weekdayOf day ∈ window.days
  opens : window.opensAt day ≤ localTime
  closes : localTime ≤ window.closesAt day

section Intervals

variable {window : ScheduleWindow} {day t u : Int}

theorem days_eq (n : Int) : days n = n * 86400000000 := by
  unfold days seconds
  omega

theorem minutes_eq (n : Nat) : minutes n = n * 60000000 := by
  unfold minutes seconds
  omega

/-- A window that is closed at `t` and open later opens in between. -/
theorem ScheduleWindow.Covers.opens_after (hu : window.Covers day u) (htu : t ≤ u)
    (ht : ¬ window.Covers day t) : t < window.opensAt day := by
  by_contra hle
  exact ht ⟨hu.day_mem, Int.not_lt.mp hle, Int.le_trans htu hu.closes⟩

/-- A window is open when it opens. -/
theorem ScheduleWindow.Normalised.covers_opensAt (h : window.Normalised)
    (hday : Calendar.weekdayOf day ∈ window.days) : window.Covers day (window.opensAt day) := by
  refine ⟨hday, Int.le_refl _, ?_⟩
  have hstart := h.start_lt
  unfold opensAt closesAt
  simp only [days_eq, minutes_eq]
  split
  · omega
  · omega

/-- The days on which a window that is open has opened: the day itself, or over midnight the day
before. -/
theorem exists_covers_iff (h : window.Normalised) :
    (∃ day, window.Covers day t) ↔
      if window.startMinute ≤ window.endMinute then
        Calendar.weekdayOf (t / days 1) ∈ window.days ∧ minutes window.startMinute ≤ t % days 1 ∧
          t % days 1 ≤ minutes window.endMinute
      else
        (Calendar.weekdayOf (t / days 1) ∈ window.days ∧ minutes window.startMinute ≤ t % days 1) ∨
          (Calendar.weekdayOf (t / days 1 - 1) ∈ window.days ∧ t % days 1 ≤ minutes window.endMinute) := by
  have hstart := h.start_lt
  have hend := h.end_lt
  simp only [days_eq, minutes_eq, Int.one_mul]
  constructor
  · rintro ⟨day, hday, hopens, hcloses⟩
    simp only [ScheduleWindow.opensAt, ScheduleWindow.closesAt, days_eq, minutes_eq] at hopens hcloses
    split
    · next hle =>
      rw [if_pos hle] at hcloses
      have heq : t / 86400000000 = day := by omega
      rw [heq]
      exact ⟨hday, by omega, by omega⟩
    · next hle =>
      rw [if_neg hle] at hcloses
      by_cases hsame : t / 86400000000 = day
      · left
        rw [hsame]
        exact ⟨hday, by omega⟩
      · right
        have heq : t / 86400000000 - 1 = day := by omega
        rw [heq]
        exact ⟨hday, by omega⟩
  · intro hopen
    split at hopen
    · next hle =>
      obtain ⟨hday, hopens, hcloses⟩ := hopen
      refine ⟨_, hday, ?_, ?_⟩
      · simp only [ScheduleWindow.opensAt, days_eq, minutes_eq]
        omega
      · simp only [ScheduleWindow.closesAt, if_pos hle, days_eq, minutes_eq]
        omega
    · next hle =>
      rcases hopen with ⟨hday, hopens⟩ | ⟨hday, hcloses⟩
      · refine ⟨_, hday, ?_, ?_⟩
        · simp only [ScheduleWindow.opensAt, days_eq, minutes_eq]
          omega
        · simp only [ScheduleWindow.closesAt, if_neg hle, days_eq, minutes_eq]
          omega
      · refine ⟨_, hday, ?_, ?_⟩
        · simp only [ScheduleWindow.opensAt, days_eq, minutes_eq]
          omega
        · simp only [ScheduleWindow.closesAt, if_neg hle, days_eq, minutes_eq]
          omega

/-- The openings on later days are later. -/
theorem lt_opensAt {n : Nat} (h : 1 ≤ n) : t < window.opensAt (t / days 1 + n) := by
  simp only [ScheduleWindow.opensAt, days_eq, minutes_eq, Int.one_mul]
  omega

/-- An opening after `t` is on the day of `t` or a later one. -/
theorem day_le_of_lt_opensAt (h : window.Normalised) (hlt : t < window.opensAt day) :
    t / days 1 ≤ day := by
  have hstart := h.start_lt
  simp only [ScheduleWindow.opensAt, days_eq, minutes_eq, Int.one_mul] at *
  omega

/-- Of two openings, the earlier is on the same day or an earlier one. -/
theorem day_le_of_opensAt_lt {window' : ScheduleWindow} {day' : Int} (h' : window'.Normalised)
    (hlt : window.opensAt day < window'.opensAt day') : day ≤ day' := by
  have hstart' := h'.start_lt
  simp only [ScheduleWindow.opensAt, days_eq, minutes_eq] at hlt
  omega

theorem minutes_le_iff {m n : Nat} : minutes m ≤ minutes n ↔ m ≤ n := by
  rw [minutes_eq, minutes_eq]
  omega

/-- The membership test: a window is open on a local day where it opened on it or the day before. -/
theorem allows_iff {calendar : Calendar} (h : window.Normalised) {now : Time} :
    calendar.allows now window = true ↔
      ∃ day, window.Covers day (now + calendar.utcoffset now) := by
  rw [exists_covers_iff h]
  unfold Calendar.allows
  simp only [Calendar.localDay, Calendar.clock, minutes_le_iff]
  split
  · rw [Bool.and_eq_true, Bool.and_eq_true, List.contains_iff_mem, and_assoc]
    exact and_congr_right' (and_congr decide_eq_true_iff decide_eq_true_iff)
  · rw [Bool.or_eq_true, Bool.and_eq_true, Bool.and_eq_true, List.contains_iff_mem, List.contains_iff_mem]
    exact or_congr (and_congr_right' decide_eq_true_iff) (and_congr_right' decide_eq_true_iff)

end Intervals

/-! ## The next opening -/

section Opening

variable {calendar : Calendar} {offset : Int} {windows : List ScheduleWindow} {now t u : Time}

/-- A weekday comes within the next seven days. -/
theorem exists_weekdayOf {d : Nat} (h : d < 7) (day : Int) :
    ∃ n : Nat, 1 ≤ n ∧ n ≤ 7 ∧ Calendar.weekdayOf (day + n) = d := by
  unfold Calendar.weekdayOf
  refine ⟨((d - (day + 4)) % 7).toNat + 1, by omega, by omega, by omega⟩

/-- The instants that are collected: the openings from now on, in the next seven days. -/
def openings (calendar : Calendar) (windows : List ScheduleWindow) (now : Time) : List Time :=
  (List.range 8).flatMap fun n => windows.filterMap (calendar.opening now n)

theorem mem_openings : t ∈ openings calendar windows now ↔
    ∃ n : Nat, n ≤ 7 ∧ ∃ w ∈ windows, Calendar.weekdayOf (calendar.localDay now + n) ∈ w.days ∧
      now ≤ t ∧ t = w.opensAt (calendar.localDay now + n) - calendar.utcoffset now := by
  have hopening : ∀ (n : Nat) (w : ScheduleWindow), calendar.opening now n w = some t ↔
      Calendar.weekdayOf (calendar.localDay now + n) ∈ w.days ∧ now ≤ t ∧
        t = w.opensAt (calendar.localDay now + n) - calendar.utcoffset now := by
    intro n w
    unfold Calendar.opening
    rw [Option.ite_none_right_eq_some, Bool.and_eq_true, List.contains_iff_mem, decide_eq_true_iff]
    constructor
    · rintro ⟨⟨hday, hle⟩, heq⟩
      obtain rfl := Option.some.inj heq
      exact ⟨hday, hle, rfl⟩
    · rintro ⟨hday, hle, rfl⟩
      exact ⟨⟨hday, hle⟩, rfl⟩
  simp only [openings, List.mem_flatMap, List.mem_range, List.mem_filterMap, hopening, Nat.lt_succ_iff]

/-- Where no window is open, the next opening is the first of the collected instants. -/
theorem nextOpening_eq (hne : windows ≠ []) (hclosed : calendar.allowNow windows now = false) :
    calendar.nextOpening windows now = (openings calendar windows now).min? := by
  unfold Calendar.nextOpening
  rw [if_neg hne, if_neg (by rw [hclosed]; decide)]
  rfl

theorem allowNow_iff (hwindows : ∀ w ∈ windows, w.Normalised) (hne : windows ≠ []) :
    calendar.allowNow windows t = true ↔
      ∃ w ∈ windows, ∃ day, w.Covers day (t + calendar.utcoffset t) := by
  unfold Calendar.allowNow
  rw [Bool.or_eq_true, List.any_eq_true, or_iff_right (by simpa using hne)]
  constructor
  · rintro ⟨w, hw, hallows⟩
    exact ⟨w, hw, (allows_iff (hwindows w hw)).mp hallows⟩
  · rintro ⟨w, hw, hcovers⟩
    exact ⟨w, hw, (allows_iff (hwindows w hw)).mpr hcovers⟩

/-- There is an opening in the next seven days. -/
theorem openings_ne_nil (hwindows : ∀ w ∈ windows, w.Normalised) (hne : windows ≠ []) :
    openings calendar windows now ≠ [] := by
  obtain ⟨w, rest, rfl⟩ := List.exists_cons_of_ne_nil hne
  have hw := hwindows w List.mem_cons_self
  obtain ⟨d, ds, hd⟩ := List.exists_cons_of_ne_nil hw.nonempty
  have hmem : d ∈ w.days := hd ▸ List.mem_cons_self
  obtain ⟨n, hn, hn7, hday⟩ := exists_weekdayOf (hw.day_lt d hmem) (calendar.localDay now)
  refine List.ne_nil_of_mem (mem_openings.mpr
    ⟨n, hn7, w, List.mem_cons_self, hday.symm ▸ hmem, ?_, rfl⟩)
  -- it is on a later day
  exact Int.le_of_lt (Int.lt_sub_right_of_add_lt (lt_opensAt hn))

/-- An opening from now on that comes before a collected one is collected. -/
theorem opensAt_mem_openings (hwindows : ∀ w ∈ windows, w.Normalised)
    (ht : t ∈ openings calendar windows now) {w : ScheduleWindow} {day : Int} (hw : w ∈ windows)
    (hday : Calendar.weekdayOf day ∈ w.days) (hlt : now + calendar.utcoffset now < w.opensAt day)
    (hle : w.opensAt day - calendar.utcoffset now < t) :
    w.opensAt day - calendar.utcoffset now ∈ openings calendar windows now := by
  obtain ⟨n, hn, w', hw', -, -, rfl⟩ := mem_openings.mp ht
  have hfrom : calendar.localDay now ≤ day := day_le_of_lt_opensAt (hwindows w hw) hlt
  have hto : day ≤ calendar.localDay now + n :=
    day_le_of_opensAt_lt (hwindows w' hw') (by simpa using hle)
  obtain ⟨m, hm⟩ := Int.eq_ofNat_of_zero_le (Int.sub_nonneg_of_le hfrom)
  have hday' : day = calendar.localDay now + m := by omega
  refine mem_openings.mpr ⟨m, by omega, w, hw, hday' ▸ hday, ?_, hday' ▸ rfl⟩
  exact Int.le_of_lt (Int.lt_sub_right_of_add_lt hlt)

/-- An opening is an instant at which the windows are open. -/
theorem allowNow_of_mem_openings (hoffset : ∀ t, calendar.utcoffset t = offset)
    (hwindows : ∀ w ∈ windows, w.Normalised) (ht : t ∈ openings calendar windows now) :
    calendar.allowNow windows t = true := by
  obtain ⟨n, -, w, hw, hday, -, rfl⟩ := mem_openings.mp ht
  refine (allowNow_iff hwindows (List.ne_nil_of_mem hw)).mpr ⟨w, hw, calendar.localDay now + n, ?_⟩
  have hcovers := (hwindows w hw).covers_opensAt hday
  rwa [hoffset, hoffset, Int.sub_add_cancel]

end Opening

/-- In a zone with a constant offset, `next_schedule_opening` of accepted windows is the first instant
from now on at which they are open. -/
theorem nextOpening_exact {calendar : Calendar} {offset : Int}
    (hoffset : ∀ t, calendar.utcoffset t = offset) {windows : List ScheduleWindow}
    (hwindows : ∀ w ∈ windows, w.Normalised) (now : Time) :
    (calendar.nextOpening windows now = none ↔ windows = []) ∧
    ∀ t, calendar.nextOpening windows now = some t →
      now ≤ t ∧ calendar.allowNow windows t = true ∧
      ∀ u, now ≤ u → u < t → calendar.allowNow windows u = false := by
  by_cases hne : windows = []
  · have hnone : calendar.nextOpening windows now = none := by rw [Calendar.nextOpening, if_pos hne]
    exact ⟨iff_of_true hnone hne, fun t ht => by rw [hnone] at ht; cases ht⟩
  · cases hnow : calendar.allowNow windows now with
    | true =>
      have hopening : calendar.nextOpening windows now = some now := by
        rw [Calendar.nextOpening, if_neg hne, if_pos hnow]
      rw [hopening]
      refine ⟨iff_of_false nofun hne, fun t ht => ?_⟩
      obtain rfl := Option.some.inj ht
      exact ⟨le_refl _, hnow, fun u hle hlt => absurd hlt (not_lt.mpr hle)⟩
    | false =>
      rw [nextOpening_eq hne hnow]
      obtain ⟨t, ht⟩ : ∃ t, (openings calendar windows now).min? = some t :=
        Option.ne_none_iff_exists'.mp fun hnone =>
          openings_ne_nil hwindows hne (List.min?_eq_none_iff.mp hnone)
      obtain ⟨hmem, hmin⟩ := List.min?_eq_some_iff.mp ht
      refine ⟨iff_of_false (by rw [ht]; nofun) hne, fun t' ht' => ?_⟩
      obtain rfl := Option.some.inj (ht.symm.trans ht')
      refine ⟨?_, allowNow_of_mem_openings hoffset hwindows hmem, fun u hnowu hut => ?_⟩
      · obtain ⟨_, _, _, _, _, hle, _⟩ := mem_openings.mp hmem
        exact hle
      · -- were a window open before, it would have opened after now, and this is an opening before `t`
        by_contra hu
        obtain ⟨w, hw, day, hcovers⟩ :=
          (allowNow_iff hwindows hne).mp (Bool.eq_true_of_not_eq_false hu)
        have hclosed : ¬ w.Covers day (now + calendar.utcoffset now) := fun h => by
          have hopen : calendar.allowNow windows now = true :=
            (allowNow_iff hwindows hne).mpr ⟨w, hw, day, h⟩
          rw [hnow] at hopen
          cases hopen
        have hshift : now + calendar.utcoffset now ≤ u + calendar.utcoffset u := by
          rw [hoffset, hoffset]
          exact Int.add_le_add_right hnowu _
        have hafter := hcovers.opens_after hshift hclosed
        have hbefore : w.opensAt day - calendar.utcoffset now ≤ u := by
          rw [hoffset]
          exact Int.sub_right_le_of_le_add (by simpa [hoffset] using hcovers.opens)
        have hlt := lt_of_le_of_lt hbefore hut
        exact not_lt.mpr (hmin _ (opensAt_mem_openings hwindows hmem hw hcovers.day_mem hafter hlt)) hlt

/-- Thursday noon, one hour ahead: a window that opens on Friday at 22:30 and closes after midnight. -/
theorem nextOpening_exact_friday :
    Calendar.nextOpening ⟨fun _ => seconds 3600⟩ [⟨[4], 1350, 90⟩] (seconds 39600) =
        some (days 1 + seconds 77400) ∧
      ∀ u, seconds 39600 ≤ u → u < days 1 + seconds 77400 →
        Calendar.allowNow ⟨fun _ => seconds 3600⟩ [⟨[4], 1350, 90⟩] u = false := by
  have hwindows : ∀ w ∈ [(⟨[4], 1350, 90⟩ : ScheduleWindow)], w.Normalised := by
    intro w hw
    obtain rfl := List.mem_singleton.mp hw
    exact ⟨by decide, by decide, by decide, by decide⟩
  have hopening : Calendar.nextOpening ⟨fun _ => seconds 3600⟩ [⟨[4], 1350, 90⟩] (seconds 39600) =
      some (days 1 + seconds 77400) := by decide +kernel
  exact ⟨hopening, ((nextOpening_exact (fun _ => rfl) hwindows (seconds 39600)).2 _ hopening).2.2⟩

end Encodr
