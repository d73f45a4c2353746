import Encodr.Db.Models

/-!
# Schedule windows

`schedule_windows_allow_now` and `next_schedule_opening`. The days of a window count from Monday.
A window is read on the local clock; how far it is ahead of the clock of the rows is the parameter
of `Calendar`.
-/

namespace Encodr

/-- The local time zone: how far local time is ahead at a point in time. -/
structure Calendar where
  utcoffset : Time → Int

/-- A time of the day in minutes. -/
def minutes (n : Nat) : Int := seconds (n * 60)

namespace Calendar

variable (calendar : Calendar)

/-- The number of the local day. Day 0 is 1 January 1970, a Thursday. -/
def localDay (now : Time) : Int := (now + calendar.utcoffset now) / days 1

/-- `current.time()`. -/
def clock (now : Time) : Int := (now + calendar.utcoffset now) % days 1

/-- The weekday of a day, as an index of `DAY_ORDER`. -/
def weekdayOf (day : Int) : Nat := ((day + 3) % 7).toNat

/-- `window` is open at `now`. -/
def allows (now : Time) (window : ScheduleWindow) : Bool :=
  let day := calendar.localDay now
  let clock := calendar.clock now
  let start := minutes window.startMinute
  let stop := minutes window.endMinute
  if start ≤ stop then
    window.days.contains (weekdayOf day) && start ≤ clock && clock ≤ stop
  else
    -- a window over midnight belongs to the day on which it starts
    (window.days.contains (weekdayOf day) && start ≤ clock) ||
      (window.days.contains (weekdayOf (day - 1)) && clock ≤ stop)

/-- `schedule_windows_allow_now`. -/
def allowNow (windows : List ScheduleWindow) (now : Time) : Bool :=
  windows.isEmpty || windows.any (calendar.allows now)

/-- When `window` opens in the `offset`-th day from `now`. -/
def opening (now : Time) (offset : Nat) (window : ScheduleWindow) : Option Time :=
  let day := calendar.localDay now + offset
  let at_ := days day + minutes window.startMinute - calendar.utcoffset now
  if window.days.contains (weekdayOf day) && now ≤ at_ then some at_ else none

/-- `next_schedule_opening`. -/
def nextOpening (windows : List ScheduleWindow) (now : Time) : Option Time :=
  if windows = [] then none
  else if calendar.allowNow windows now then some now
  else ((List.range 8).flatMap fun offset => windows.filterMap (calendar.opening now offset)).min?

end Calendar

end Encodr
