import SRPanel.Lib.Table
import Mathlib.Data.Int.Order.Basic
import Mathlib.Data.List.Sort
import Mathlib.Algebra.BigOperators.Group.List.Basic

/-!
# The usage charts

Two readers of the samples that a synchronisation records: the chart of a subscription page
(`dailyUsage`) and the one of the panel (`clientUsageSeries`). A day is the number of days since the
epoch, which stands for the date text of the source; both order the days alike.
-/

namespace SRPanel

/-- A row of `ClientUsage`, as the charts select it. -/
structure UsageSample where
  /-- the column `at`, in milliseconds -/
  takenAt : ℤ
  up : ℤ
  down : ℤ
  deriving DecidableEq

/-- `SubUsagePoint`. -/
structure SubUsagePoint where
  date : ℤ
  up : ℤ
  down : ℤ
  total : ℤ
  deriving DecidableEq

/-- A row of `clientUsageSeries`. -/
structure DayUsage where
  day : ℤ
  up : ℤ
  down : ℤ
  deriving DecidableEq

/-- `DAY`. -/
def DAY : ℤ := 86400000

/-- `d.toISOString().slice(0, 10)`. -/
def isoDay (t : ℤ) : ℤ := t / DAY

/-- The traffic of a sample, up and down. -/
def UsageSample.traffic (s : UsageSample) : ℤ × ℤ := (s.up, s.down)

/-- `cumulative`: no sample is smaller than the one before it. -/
def cumulative : List UsageSample → Bool
  | s :: s' :: rest => decide (s.up + s.down ≤ s'.up + s'.down) && cumulative (s' :: rest)
  | _ => true

/-- What a sample adds to its day: the growth since the sample before it, or the sample itself. -/
def growth (cumulative : Bool) (prev : Option UsageSample) (s : UsageSample) : ℤ × ℤ :=
  if cumulative then
    (max 0 (s.up - (prev.map UsageSample.up).getD s.up),
      max 0 (s.down - (prev.map UsageSample.down).getD s.down))
  else (s.up, s.down)

/-- The loop of `dailyUsage`. -/
def tally (cumulative : Bool) : (prev : Option UsageSample) → List UsageSample → Table ℤ (ℤ × ℤ) →
    Table ℤ (ℤ × ℤ)
  | _, [], byDay => byDay
  | prev, s :: rest, byDay =>
      let key := isoDay s.takenAt
      let row := (byDay.get? key).getD (0, 0)
      tally cumulative (some s) rest (byDay.set key (row + growth cumulative prev s))

/-- `dailyUsage`. -/
def dailyUsage (samples : List UsageSample) : List SubUsagePoint :=
  if samples = [] then []
  else
    ((tally (cumulative samples) none samples .empty).rows.map fun r =>
      (⟨r.1, r.2.1, r.2.2, r.2.1 + r.2.2⟩ : SubUsagePoint)).insertionSort fun a b => a.date ≤ b.date

/-- The chart of `buildSubscription`: the query takes the first 400 samples of the window. -/
def subscriptionUsage (samples : List UsageSample) : List SubUsagePoint :=
  dailyUsage (samples.take 400)

/-- The days of `clientUsageSeries`, from the first to today. -/
def seriesDays (now : ℤ) (days : ℕ) : List ℤ :=
  (List.range days).reverse.map fun (i : ℕ) => isoDay (now - i * DAY)

/-- One row of the loop of `clientUsageSeries`: a row whose day is not in the series is left out. -/
def addToSeries (series : List DayUsage) (s : UsageSample) : List DayUsage :=
  series.map fun d => if d.day = isoDay s.takenAt then ⟨d.day, d.up + s.up, d.down + s.down⟩ else d

/-- `clientUsageSeries`, over the rows of its window. -/
def clientUsageSeries (now : ℤ) (days : ℕ) (rows : List UsageSample) : List DayUsage :=
  rows.foldl addToSeries ((seriesDays now days).map fun day => ⟨day, 0, 0⟩)

end SRPanel
