import OpcBridge.Lib.Aggregate
import OpcBridge.Lib.Digits
import Mathlib.Data.Finset.Sort

/-!
# Summaries and buckets, from the raw table and from a resolution tier

`query_summary` and `query_buckets` read the raw table or, where `choose_resolution_tier` finds one,
the continuous aggregate of a tier; the outer query is the same. The view has a row for each bucket
and tag, made from the rows that have a value. Values are numbers of any ordered field: the rounding
of sums in double precision is not modelled, the printing of the range ends is.

Which of several rows with the latest time `last` and `ORDER BY ts_ms DESC LIMIT 1` take is up to the
database (`LastRow`).
-/

namespace OpcBridge.Historian

open Lib

/-! ## Names -/

def identifierChar (c : Char) : Bool :=
  ('a' ≤ c && c ≤ 'z') || ('A' ≤ c && c ≤ 'Z') || ('0' ≤ c && c ≤ '9') || c == '_'

def sqlIdentifierSafeName (value : String) : String :=
  if value.isEmpty then "tag_samples"
  else String.ofList (value.toList.map fun c => if identifierChar c then c else '_')

structure ResolutionTier where
  resolutionMs : Int
  retentionMs : Int
  /-- The loader makes it at least a second. -/
  resolution_pos : 0 < resolutionMs
deriving DecidableEq

/-- The name that the queries give the view of a tier. -/
def queriedView (table : String) (tier : ResolutionTier) : String :=
  table ++ "_cagg_v1_" ++ toString tier.resolutionMs

/-- The name under which `configure_timescale` creates it. -/
def createdView (table : String) (tier : ResolutionTier) : String :=
  sqlIdentifierSafeName (table ++ "_cagg_v1_" ++ toString tier.resolutionMs)

/-! ## Rows -/

/-- All of a row but its value. -/
structure RowKey where
  tsMs : Int
  connectionId : String
  tagName : String
  datatype : Option String := none
  quality : Option Int := none
deriving DecidableEq

structure StoredRow (K : Type) where
  key : RowKey
  /-- `value_double` -/
  value : Option K

/-- `ORDER BY ts DESC LIMIT 1`: one of the rows with the latest time. -/
structure LastRow where
  pick : {α : Type} → (α → Int) → List α → Option α
  pick_mem : ∀ {α : Type} (time : α → Int) (l : List α) (a : α), pick time l = some a →
    a ∈ l ∧ ∀ b ∈ l, time b ≤ time a
  pick_ne_none : ∀ {α : Type} (time : α → Int) (l : List α), l ≠ [] → pick time l ≠ none

structure TagQuery where
  connectionId : String
  tagName : String
  fromMs : Int
  toMs : Int
  goodOnly : Bool

def TagQuery.ofTag (q : TagQuery) (k : RowKey) : Bool :=
  k.connectionId == q.connectionId && k.tagName == q.tagName

/-- `quality IS NULL OR quality = 1` -/
def RowKey.good (k : RowKey) : Bool := k.quality == none || k.quality == some 1

/-- The `WHERE` of the query of the raw table, the test of the value apart. -/
def TagQuery.selects (q : TagQuery) (k : RowKey) : Bool :=
  q.ofTag k && decide (q.fromMs ≤ k.tsMs) && decide (k.tsMs ≤ q.toMs) && (!q.goodOnly || k.good)

/-- A row of the common table expression `filtered` (or `combined`). -/
structure FilteredRow (K : Type) where
  tsMs : Int
  datatype : Option String
  n : Nat
  minV : Option K
  maxV : Option K
  weighted : Option K
  lastV : Option K

section
variable {K : Type}

/-- The rows that have a value. -/
def valued (rows : List (StoredRow K)) : List (RowKey × K) :=
  rows.filterMap fun row => row.value.map fun v => (row.key, v)

def rawRow (x : RowKey × K) : FilteredRow K where
  tsMs := x.1.tsMs
  datatype := x.1.datatype
  n := 1
  minV := some x.2
  maxV := some x.2
  weighted := some x.2
  lastV := some x.2

def filteredRaw (q : TagQuery) (rows : List (StoredRow K)) : List (FilteredRow K) :=
  ((valued rows).filter fun x => q.selects x.1).map rawRow

end

/-! ## The continuous aggregate -/

/-- Monday, 3 January 2000: `time_bucket` counts its buckets from there. -/
def timeBucketOrigin : Int := 946857600000

def timeBucket (resolutionMs tsMs : Int) : Int :=
  timeBucketOrigin + (tsMs - timeBucketOrigin) / resolutionMs * resolutionMs

structure BucketKey where
  bucket : Int
  connectionId : String
  tagName : String
deriving DecidableEq

def RowKey.bucketKey (tier : ResolutionTier) (k : RowKey) : BucketKey where
  bucket := timeBucket tier.resolutionMs k.tsMs
  connectionId := k.connectionId
  tagName := k.tagName

structure ViewRow (K : Type) where
  key : BucketKey
  sampleCount : Nat
  minValue : Option K
  maxValue : Option K
  avgValue : Option K
  lastValue : Option K

/-- `(static_cast<double>(ms) / 1000.0)` as the stream prints it. -/
def printedSeconds (ms : Int) : ℚ := roundDigits 10 6 (roundDigits 2 53 (roundDigits 2 53 ms / 1000))

/-- A range end of the query of a tier, in milliseconds. -/
def printedMs (ms : Int) : ℚ := printedSeconds ms * 1000

/-- `to_timestamp` takes the seconds, from 4714 BC to the year 294276. -/
def isTimestamp (seconds : ℚ) : Bool :=
  decide (-210866803200 ≤ seconds) && decide (seconds < 9224318016000)

/-- The `WHERE` of the query of a tier. -/
def TagQuery.selectsBucket (q : TagQuery) (b : BucketKey) : Bool :=
  b.connectionId == q.connectionId && b.tagName == q.tagName &&
    decide (printedMs q.fromMs ≤ b.bucket) && decide ((b.bucket : ℚ) ≤ printedMs q.toMs)

section
variable {K : Type} [Field K] [LinearOrder K]

def viewRow (last : LastRow) (g : BucketKey × List (RowKey × K)) : ViewRow K where
  key := g.1
  sampleCount := g.2.length
  minValue := (g.2.map Prod.snd).min?
  maxValue := (g.2.map Prod.snd).max?
  avgValue := mean? (g.2.map Prod.snd)
  lastValue := (last.pick (fun x => x.1.tsMs) g.2).map Prod.snd

def continuousAggregate (last : LastRow) (tier : ResolutionTier) (rows : List (StoredRow K)) :
    List (ViewRow K) :=
  (groupBy (fun x => x.1.bucketKey tier) (valued rows)).map (viewRow last)

def tierRow (row : ViewRow K) : FilteredRow K where
  tsMs := row.key.bucket
  datatype := none
  n := row.sampleCount
  minV := row.minValue
  maxV := row.maxValue
  weighted := row.avgValue.map (· * (row.sampleCount : K))
  lastV := row.lastValue

def filteredTier (last : LastRow) (tier : ResolutionTier) (q : TagQuery)
    (rows : List (StoredRow K)) : List (FilteredRow K) :=
  ((continuousAggregate last tier rows).filter fun row => q.selectsBucket row.key).map tierRow

/-! ## The queries -/

structure SummaryResult (K : Type) where
  count : Nat
  min : Option K
  max : Option K
  avg : Option K
  last : Option K
  datatype : Option String

/-- `sum(weighted)/NULLIF(sum(n),0)` -/
def weightedMean (rows : List (FilteredRow K)) : Option K :=
  let n := (rows.map FilteredRow.n).sum
  if n = 0 then none else some ((rows.filterMap FilteredRow.weighted).sum / (n : K))

def summarize (last : LastRow) (rows : List (FilteredRow K)) : SummaryResult K where
  count := (rows.map FilteredRow.n).sum
  min := (rows.filterMap FilteredRow.minV).min?
  max := (rows.filterMap FilteredRow.maxV).max?
  avg := weightedMean rows
  last := (last.pick FilteredRow.tsMs rows).bind FilteredRow.lastV
  datatype := ((last.pick FilteredRow.tsMs rows).bind FilteredRow.datatype).filter (· ≠ "")

def chooseResolutionTier (tiers : List ResolutionTier) (now fromMs maxResolutionMs : Int) :
    Option ResolutionTier :=
  let age := max 0 (now - fromMs)
  let kept (tier : ResolutionTier) : Bool :=
    decide (tier.retentionMs = 0) || decide (age ≤ tier.retentionMs)
  match tiers.find? fun tier => decide (tier.resolutionMs ≤ maxResolutionMs) && kept tier with
  | some tier => some tier
  | none => tiers.find? kept

/-- The rows that the query of a tier finds; none if the database refuses it. -/
def queryTier (last : LastRow) (table : String) (tier : ResolutionTier) (q : TagQuery)
    (rows : List (StoredRow K)) : Option (List (FilteredRow K)) :=
  if queriedView table tier = createdView table tier ∧ isTimestamp (printedSeconds q.fromMs) ∧
      isTimestamp (printedSeconds q.toMs) then
    some (filteredTier last tier q rows)
  else none

def queryRows (last : LastRow) (table : String) (tier : Option ResolutionTier) (q : TagQuery)
    (rows : List (StoredRow K)) : Option (List (FilteredRow K)) :=
  match tier with
  | some tier => queryTier last table tier q rows
  | none => some (filteredRaw q rows)

def maxInt64 : Int := 9223372036854775807

def querySummary (last : LastRow) (table : String) (tiers : List ResolutionTier) (now : Int)
    (q : TagQuery) (rows : List (StoredRow K)) : Option (SummaryResult K) :=
  (queryRows last table (chooseResolutionTier tiers now q.fromMs maxInt64) q rows).map
    (summarize last)

structure BucketPoint (K : Type) where
  bucketStartMs : Int
  bucketEndMs : Int
  count : Nat
  min : Option K
  max : Option K
  avg : Option K

/-- `((ts_ms-from)/bucket)::bigint`, which rounds towards zero. -/
def bucketIdx (q : TagQuery) (bucketMs tsMs : Int) : Int := (tsMs - q.fromMs).tdiv bucketMs

def bucketPoint (q : TagQuery) (bucketMs : Int) (rows : List (FilteredRow K)) (idx : Int) :
    BucketPoint K :=
  let grouped := rows.filter fun row => bucketIdx q bucketMs row.tsMs = idx
  { bucketStartMs := q.fromMs + idx * bucketMs
    bucketEndMs := min q.toMs (q.fromMs + idx * bucketMs + bucketMs)
    count := (grouped.map FilteredRow.n).sum
    min := (grouped.filterMap FilteredRow.minV).min?
    max := (grouped.filterMap FilteredRow.maxV).max?
    avg := weightedMean grouped }

def clampLimit (limit : Int) : Nat :=
  let limit := if limit < 1 then 1000 else limit
  (if limit > 100000 then 100000 else limit).toNat

def bucketPoints (q : TagQuery) (bucketMs limit : Int) (rows : List (FilteredRow K)) :
    List (BucketPoint K) :=
  (((rows.map fun row => bucketIdx q bucketMs row.tsMs).toFinset.sort (· ≤ ·)).take
    (clampLimit limit)).map (bucketPoint q bucketMs rows)

def queryBuckets (last : LastRow) (table : String) (tiers : List ResolutionTier) (now : Int)
    (q : TagQuery) (bucketMs limit : Int) (rows : List (StoredRow K)) :
    Option (List (BucketPoint K)) :=
  if bucketMs ≤ 0 then none
  else
    (queryRows last table (chooseResolutionTier tiers now q.fromMs bucketMs) q rows).map
      (bucketPoints q bucketMs limit)

end

end OpcBridge.Historian
