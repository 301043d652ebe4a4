/-
Metrics: what was done, counted.

A series is one counter.  Series of one family differ in their labels; the duration of
runs is a family of its own, of which the single durations are kept.  A series exists
from the moment it is first counted, if only by zero.

A counter knows exactly what has been added to it.  What it shows has 53 significant bits,
as all numbers of the exposition format have, and is the exact total as long as that is
below 2 to the power of 53.
-/
import ZoneKeeper.Text
import ZoneKeeper.Change

namespace ZoneKeeper

/-- A counter. -/
inductive Series
  /-- Runs by outcome. -/
  | applies (outcome : String)
  /-- Record sets sent by way of change. -/
  | rrsetsPatched (changeType : String)
  /-- Reverse names written or removed. -/
  | ptrOperations (operation : String)
  /-- Reverse zones created. -/
  | reverseZonesCreated
  /-- Failed runs by kind of failure. -/
  | errors (kind : String)
  /-- Failed requests by category and reason. -/
  | apiErrors (category reason : String)
deriving DecidableEq, Repr

/-- A family of series. -/
structure Family where
  name : String
  help : String
  isHistogram : Bool
deriving DecidableEq, Repr

namespace Series

/-- The family of a series. -/
def family : Series → Family
  | applies _ => ⟨"zonesync_applies_total", "Total number of zone apply calls by outcome", false⟩
  | rrsetsPatched _ => ⟨"zonesync_rrsets_patched_total",
      "Total number of RRsets sent to the control API by changetype", false⟩
  | ptrOperations _ =>
    ⟨"zonesync_ptr_operations_total", "Total number of automatic PTR operations", false⟩
  | reverseZonesCreated => ⟨"zonesync_reverse_zones_created_total",
      "Total number of reverse zones created by auto-PTR", false⟩
  | errors _ => ⟨"zonesync_errors_total", "Total number of errors by category", false⟩
  | apiErrors .. =>
    ⟨"zonesync_api_errors_total", "Total number of failed control API requests", false⟩

/-- The labels of a series, in order of their names. -/
def labels : Series → List (String × String)
  | applies outcome => [("outcome", outcome)]
  | rrsetsPatched changeType => [("changetype", changeType)]
  | ptrOperations operation => [("operation", operation)]
  | reverseZonesCreated => []
  | errors kind => [("error_type", kind)]
  | apiErrors category reason => [("category", category), ("reason", reason)]

end Series

/-! ### Counters -/

/-- The nearest number with 53 significant bits, and the even one of two that are as near. -/
def nearestShown (n : Nat) : Nat :=
  let step := 1 <<< (n.log2 - 52)
  let below := n / step
  let beyond := n % step
  if 2 * beyond < step ∨ (2 * beyond = step ∧ below % 2 = 0) then below * step
  else (below + 1) * step

theorem nearestShown_of_lt {n : Nat} (h : n < 9007199254740992) : nearestShown n = n := by
  have hlog : n.log2 < 53 := by
    rcases Nat.eq_zero_or_pos n with rfl | hpos
    · decide
    · exact (Nat.log2_lt (by omega)).mpr h
  have hstep : n.log2 - 52 = 0 := by omega
  simp [nearestShown, hstep, Nat.mod_one]

/-- What has been added to a series. -/
structure Counter where
  /-- All that has been added. -/
  total : Nat
  /-- The value that is shown. -/
  shown : Nat
deriving DecidableEq, Repr

/-- A counter to which nothing has been added. -/
def Counter.zero : Counter := ⟨0, 0⟩

/-- The counter with `n` more. -/
def Counter.add (counter : Counter) (n : Nat) : Counter :=
  ⟨counter.total + n, nearestShown (counter.shown + nearestShown n)⟩

/-- A counter goes on showing its total while that has at most 53 bits. -/
theorem Counter.shown_add {counter : Counter} {n : Nat} (hshown : counter.shown = counter.total)
    (h : counter.total + n < 9007199254740992) :
    (counter.add n).shown = (counter.add n).total := by
  simp only [Counter.add]
  rw [nearestShown_of_lt (n := n) (by omega), hshown, nearestShown_of_lt h]

/-- The counters and the durations of runs. -/
structure Metrics where
  /-- The series that exist. -/
  counters : List (Series × Counter)
  /-- The outcome of every run with its duration in nanoseconds. -/
  durations : List (String × Nat)
deriving Repr

namespace Metrics

/-- Nothing has been counted. -/
def empty : Metrics := ⟨[], []⟩

/-- The value of a series; one that does not exist counts as zero. -/
def value (metrics : Metrics) (series : Series) : Nat :=
  ((metrics.counters.lookup series).getD .zero).total

/-- The counters with `n` added to one of them. -/
def addTo (series : Series) (n : Nat) : List (Series × Counter) → List (Series × Counter)
  | [] => [(series, Counter.zero.add n)]
  | (other, counter) :: rest =>
    if other = series then (other, counter.add n) :: rest
    else (other, counter) :: addTo series n rest

/-- One counter goes up by `n`. -/
def count (metrics : Metrics) (series : Series) (n : Nat) : Metrics :=
  { metrics with counters := addTo series n metrics.counters }

/-- One more run took its time. -/
def observe (metrics : Metrics) (outcome : String) (nanoseconds : Nat) : Metrics :=
  { metrics with durations := metrics.durations ++ [(outcome, nanoseconds)] }

/-- The number of runs with an outcome. -/
def observations (metrics : Metrics) (outcome : String) : Nat :=
  metrics.durations.countP fun (o, _) => o = outcome

/-- The family of the durations. -/
def durationFamily : Family :=
  ⟨"zonesync_apply_duration_seconds", "Duration of zone apply calls in seconds", true⟩

/-- What is shown of a family's series under its labels, for every counter and every outcome. -/
def samples (metrics : Metrics) : List (String × List (String × String) × Nat) :=
  metrics.counters.map (fun (series, counter) =>
      (series.family.name, series.labels, counter.shown)) ++
    (metrics.durations.map Prod.fst).eraseDups.map fun outcome =>
      (durationFamily.name, [("outcome", outcome)], metrics.observations outcome)

/-! ### The exposition format -/

/-- A label value between quotes. -/
def escapeLabel (s : String) : String :=
  String.ofList <| s.toList.flatMap fun c =>
    match c with
    | '\\' => ['\\', '\\']
    | '"' => ['\\', '"']
    | '\n' => ['\\', 'n']
    | c => [c]

/-- A name with its labels. -/
def sampleName (name : String) (labels : List (String × String)) : String :=
  if labels.isEmpty then name
  else
    let pairs := labels.map fun (label, value) => s!"{label}=\"{escapeLabel value}\""
    name ++ "\x7b" ++ ",".intercalate pairs ++ "\x7d"

/-- A duration in seconds, without zeros at the end of the fraction. -/
def seconds (nanoseconds : Nat) : String :=
  let whole := toString (nanoseconds / 1000000000)
  let fraction := Text.padStart 9 '0' (toString (nanoseconds % 1000000000))
  let digits := Text.dropEndWhile (· == '0') fraction.toList
  if digits.isEmpty then whole else whole ++ "." ++ String.ofList digits

/-- The upper bounds of the histogram's buckets, with their texts, in nanoseconds. -/
def buckets : List (String × Nat) :=
  [("0.001", 1000000), ("0.01", 10000000), ("0.1", 100000000), ("0.5", 500000000),
    ("1", 1000000000), ("2", 2000000000), ("5", 5000000000), ("10", 10000000000),
    ("30", 30000000000)]

/-- The lines of one outcome's histogram. -/
def histogramLines (metrics : Metrics) (outcome : String) : List String :=
  let times := (metrics.durations.filter fun (o, _) => o = outcome).map Prod.snd
  let sample (suffix : String) (labels : List (String × String)) (value : String) : String :=
    sampleName (durationFamily.name ++ suffix) labels ++ " " ++ value
  buckets.map (fun (text, bound) =>
      sample "_bucket" [("outcome", outcome), ("le", text)]
        (toString (times.countP (· ≤ bound)))) ++
    [sample "_bucket" [("outcome", outcome), ("le", "+Inf")] (toString times.length),
      sample "_sum" [("outcome", outcome)] (seconds (times.foldl (· + ·) 0)),
      sample "_count" [("outcome", outcome)] (toString times.length)]

/-- The order of label values, first difference first. -/
def labelsAtMost : List (String × String) → List (String × String) → Bool
  | [], _ => true
  | _ :: _, [] => false
  | (_, v) :: vs, (_, w) :: ws => v < w || (v == w && labelsAtMost vs ws)

/-- The two lines that introduce a family. -/
def header (family : Family) : List String :=
  let kind := if family.isHistogram then "histogram" else "counter"
  [s!"# HELP {family.name} {family.help}", s!"# TYPE {family.name} {kind}"]

/-- The lines of a family: its introduction and its series in order of their labels. -/
def familyLines (metrics : Metrics) (family : Family) : List String :=
  if family.isHistogram then
    let outcomes := (metrics.durations.map Prod.fst).eraseDups.mergeSort fun a b => decide (a ≤ b)
    header family ++ outcomes.flatMap metrics.histogramLines
  else
    let own := metrics.counters.filter fun (series, _) => series.family = family
    let sorted := own.mergeSort fun (s, _) (t, _) => labelsAtMost s.labels t.labels
    header family ++ sorted.map fun (series, counter) =>
      s!"{sampleName family.name series.labels} {counter.shown}"

/-- The families that have series, in order of their names. -/
def families (metrics : Metrics) : List Family :=
  let counted := metrics.counters.map fun (series, _) => series.family
  let timed := if metrics.durations.isEmpty then [] else [durationFamily]
  (counted ++ timed).eraseDups.mergeSort fun f g => decide (f.name ≤ g.name)

/-- The lines of the exposition format. -/
def lines (metrics : Metrics) : List String :=
  metrics.families.flatMap metrics.familyLines

end Metrics
end ZoneKeeper
