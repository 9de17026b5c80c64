import OpcBridge.Lib.Bins
import OpcBridge.Lib.Run
import OpcBridge.Lib.Aggregate
import OpcBridge.Hmi.TrendExpression
import Mathlib.Algebra.Order.Floor.Ring
import Mathlib.Data.List.Sort
import Mathlib.Data.Rat.Floor

/-!
# The rolling trend cache

`TrendCache` keeps one entry for each series that a saved trend shows: rows of one width, each with
a summary of the samples of its time. `reconcile` takes over the scopes and puts the rows of every
entry into rows of the entry's new width, `sample` adds one value to each entry, `query` puts the
rows of an entry into buckets. The model is over what a row holds (`Holding`): the code's summaries
(`Summary`), or the samples themselves (`Mark`), of which the summaries are taken.
-/

namespace OpcBridge.Hmi

open Lib

/-- The connection or quality and the tag name, as `tagKey` pairs them. -/
abbrev TrendKey := JsString × JsString

/-! ## Scopes -/

structure Scope where
  connectionId : JsString
  name : JsString
  expression : Option JsString := none
  dependencies : Option (List TrendKey) := none
  retention : ℚ

/-- A map of scopes, in the order of insertion. -/
structure Scopes where
  list : List (TrendKey × Scope)
  once : (list.map Prod.fst).Nodup

namespace Scopes

def empty : Scopes := ⟨[], List.nodup_nil⟩

def find (scopes : Scopes) (key : TrendKey) : Option Scope := scopes.list.lookup key

def size (scopes : Scopes) : Nat := scopes.list.length

/-- `inputs()`, before the bound is checked. -/
def inputs (scopes : Scopes) : List TrendKey :=
  distinct <| scopes.list.flatMap fun s => s.2.dependencies.getD [(s.2.connectionId, s.2.name)]

/-- The compiled expressions of the scopes that have one. -/
def expressions (scopes : Scopes) : Except String (List (TrendKey × Parsed)) :=
  (scopes.list.filterMap fun s => (s.2.expression.filter (· ≠ [])).map (s.1, ·)).mapM fun e =>
    (compile e.2).map (e.1, ·)

/-- `MAX_TAGS` -/
def maxTags : Nat := 256

/-- `MAX_BUCKETS` -/
def maxBuckets : Nat := 250000

def perTag (scopes : Scopes) : Nat := max 1 (min 6000 (maxBuckets / max 1 scopes.size))

end Scopes

/-- The width of the rows for a retention and so many rows. -/
def rowWidth (retention : ℚ) (perTag : Nat) : Int := max 1000 (⌈retention / perTag / 1000⌉ * 1000)

/-! ## Readings -/

inductive TagValue
  | number (x : ℚ)
  | boolean (b : Bool)
  /-- A text, an object, null or nothing. -/
  | other

inductive Quality
  | number (x : ℚ)
  | text (s : JsString)
  | missing

def Quality.good : Quality → Bool
  | .number x => x == 1
  | .text s => s == js "GOOD"
  | .missing => false

/-- A row of the answer of `/tags/query`; the flags are false only where the answer says so. -/
structure TagRow where
  connectionId : JsString
  name : JsString
  enabled : Bool := true
  hasSnapshot : Bool := true
  quality : Quality := .missing
  pollingState : Option JsString := none
  value : TagValue := .other

/-- `Number(value)` of a good and current value. -/
def TagRow.reading (row : TagRow) : Option ℚ :=
  if row.enabled && row.hasSnapshot && row.quality.good &&
      (row.pollingState.filter (· ≠ [])).all (· == js "active") then
    match row.value with
    | .number x => some x
    | .boolean b => some (if b then 1 else 0)
    | .other => none
  else none

/-- The values of expressions, with the numbers and texts that go in and the numbers that come
out. -/
structure TrendValues (V : Type) extends Values V where
  ofNumber : ℚ → V
  ofText : JsString → V
  number : V → Option ℚ

section
variable {V : Type} (values : TrendValues V) (rows : List TagRow)

/-- The map `found`: the last row of a key. -/
def found (key : TrendKey) : Option TagRow :=
  (rows.filter fun row => (row.connectionId, row.name) == key).getLast?

def access (_ : List Access) : Access → Except String V
  | .read connection tag =>
    match (found rows (connection, tag)).bind TagRow.reading with
    | some x => .ok (values.ofNumber x)
    | none => .error "Expression input unavailable."
  | .quality connection tag =>
    .ok (values.ofText (js (if (found rows (connection, tag)).any (·.quality.good) then "GOOD"
      else "BAD")))

/-- The value of a series if it is `good`. -/
def readingOf (expressions : List (TrendKey × Parsed)) (key : TrendKey) : Option ℚ :=
  match expressions.lookup key with
  | some (tree, _) =>
    match evaluate values.toValues (access values rows) tree with
    | (_, .ok value) => values.number value
    | (_, .error _) => none
  | none => (found rows key).bind TagRow.reading

end

/-! ## Entries -/

/-- What a row can hold: one value or missing value of a time, a gap marker, and what two rows held
together. -/
class Holding (σ : Type) where
  point (time : Int) (value : Option ℚ) : σ
  gap (time : Int) : σ
  combine (a b : σ) : σ

structure Summary where
  count : Nat
  sum : ℚ
  min : Option ℚ
  max : Option ℚ
  bad : Nat
deriving DecidableEq

/-- The other one where one is null. -/
def merge (f : ℚ → ℚ → ℚ) : Option ℚ → Option ℚ → Option ℚ
  | none, b => b
  | a, none => a
  | some a, some b => some (f a b)

/-- `combine` -/
def Summary.combine (a b : Summary) : Summary where
  count := a.count + b.count
  sum := a.sum + b.sum
  min := merge Min.min a.min b.min
  max := merge Max.max a.max b.max
  bad := a.bad + b.bad

instance : Holding Summary where
  point _ value :=
    { count := if value.isSome then 1 else 0, sum := value.getD 0, min := value, max := value,
      bad := if value.isSome then 0 else 1 }
  gap _ := { count := 0, sum := 0, min := none, max := none, bad := 1 }
  combine := Summary.combine

section
variable {σ : Type} [Holding σ]

/-- The last two fields are kept for the statements and read by nothing: the samples that were
taken, and the rows that retention or the limit took away. -/
structure Entry (σ : Type) where
  rows : List (Bin σ) := []
  startedAt : Int
  width : Int := 1000
  retention : ℚ := 0
  limit : Nat := 1
  taken : List (Int × Option ℚ) := []
  pruned : List (Bin σ) := []
deriving DecidableEq

namespace Entry

def current (now : Int) (retention : ℚ) (row : Bin σ) : Bool := now - retention ≤ row.t

/-- The rows in rows of a new width, sorted. -/
def merged (now : Int) (retention : ℚ) (width : Int) (entry : Entry σ) : List (Bin σ) :=
  (Bin.rebin Holding.combine width (entry.rows.filter (current now retention))).insertionSort
    (·.t ≤ ·.t)

/-- What `reconcile` makes of the entry of a scope. -/
def reconcile (now : Int) (perTag : Nat) (retention : ℚ) (entry : Entry σ) : Entry σ :=
  let width := rowWidth retention perTag
  let merged := entry.merged now retention width
  { entry with
    rows := merged.drop (merged.length - perTag)
    width
    retention
    limit := perTag
    pruned := entry.pruned ++ entry.rows.filter (fun row => !current now retention row) ++
      merged.take (merged.length - perTag) }

/-- The markers after a last row if the next one is further away. -/
def gaps (width last t : Int) : List (Bin σ) :=
  if last + width < t then
    ⟨last + width, Holding.gap (last + width)⟩ ::
      if last + width < t - width then [⟨t - width, Holding.gap (t - width)⟩] else []
  else []

/-- The rows with the point. -/
def push (time : Int) (value : Option ℚ) (entry : Entry σ) : List (Bin σ) :=
  let t := binStart entry.width time
  let point := Holding.point time value
  match entry.rows.getLast? with
  | none => [⟨t, point⟩]
  | some last =>
    if last.t = t then entry.rows.dropLast ++ [⟨last.t, Holding.combine last.cell point⟩]
    else entry.rows ++ gaps entry.width last.t t ++ [⟨t, point⟩]

def stale (cutoff : ℚ) (row : Bin σ) : Bool := row.t < cutoff

/-- What `sample` makes of an entry. -/
def sample (time : Int) (value : Option ℚ) (entry : Entry σ) : Entry σ :=
  if value = none ∧ entry.rows = [] then entry
  else
    let rows := entry.push time value
    let kept := rows.drop (rows.length - entry.limit)
    let cutoff := time - entry.retention
    { entry with
      rows := kept.dropWhile (stale cutoff)
      taken := entry.taken ++ [(time, value)]
      pruned := entry.pruned ++ rows.take (rows.length - entry.limit) ++
        kept.takeWhile (stale cutoff) }

end Entry

/-! ## The cache -/

/-- Without the transport, the status texts and the checkpoint file. -/
structure TrendCache (σ : Type) where
  scopes : Scopes := .empty
  expressions : List (TrendKey × Parsed) := []
  entries : List (TrendKey × Entry σ) := []

namespace TrendCache

def entryKey (e : TrendKey × Entry σ) : Option TrendKey := some e.1

def entry (cache : TrendCache σ) (key : TrendKey) : Option (Entry σ) :=
  (Keyed.lookup entryKey cache.entries key).map Prod.snd

/-- One turn of the loop over the scopes. -/
def visit (now : Int) (perTag : Nat) (entries : List (TrendKey × Entry σ))
    (s : TrendKey × Scope) : List (TrendKey × Entry σ) :=
  let entry := ((Keyed.lookup entryKey entries s.1).map Prod.snd).getD { startedAt := now }
  Keyed.put entryKey entries s.1 (s.1, entry.reconcile now perTag s.2.retention)

/-- An error leaves the entries as they are; too many inputs also leave the scopes. -/
def reconcile (now : Int) (scopes : Scopes) (cache : TrendCache σ) : TrendCache σ :=
  if Scopes.maxTags < scopes.inputs.length then cache
  else match scopes.expressions with
    | .error _ => { cache with scopes }
    | .ok expressions =>
      let entries := cache.entries.filter fun e => (scopes.find e.1).isSome
      { scopes, expressions, entries := scopes.list.foldl (visit now scopes.perTag) entries }

def sample {V : Type} (values : TrendValues V) (time : Int) (rows : List TagRow)
    (cache : TrendCache σ) : TrendCache σ :=
  { cache with entries := cache.entries.map fun e =>
      (e.1, e.2.sample time (readingOf values rows cache.expressions e.1)) }

end TrendCache

inductive TrendEvent
  | reconcile (now : Int) (scopes : Scopes)
  | sample (time : Int) (rows : List TagRow)

def TrendEvent.time : TrendEvent → Int
  | .reconcile now _ => now
  | .sample time _ => time

def TrendCache.step {V : Type} (values : TrendValues V) (cache : TrendCache σ) :
    TrendEvent → TrendCache σ
  | .reconcile now scopes => cache.reconcile now scopes
  | .sample time rows => cache.sample values time rows

end

/-! ## Queries -/

structure Bucket where
  bucketStart : Int
  bucketEnd : Int
  count : Nat
  avg : Option ℚ
  min : Option ℚ
  max : Option ℚ
  quality : Nat
deriving DecidableEq

def Summary.bucket (p : Summary) (bucketStart bucketEnd : Int) : Bucket where
  bucketStart
  bucketEnd
  count := p.count
  avg := if p.bad ≠ 0 then none else if p.count ≠ 0 then some (p.sum / p.count) else none
  min := if p.bad ≠ 0 then none else p.min
  max := if p.bad ≠ 0 then none else p.max
  quality := if p.bad ≠ 0 then 0 else 1

/-- The width of the buckets of a query. -/
def bucketWidth {σ : Type} (entry : Option (Entry σ)) (first last : ℚ) : Int :=
  max ((entry.map Entry.width).getD 1000) (⌈(last - first) / 1200 / 1000⌉ * 1000)

def Entry.inRange {σ : Type} (first last : ℚ) (row : Bin σ) : Bool :=
  !(row.t < first || last < row.t)

structure TrendAnswer where
  collecting : Bool
  startedAt : Option Int
  retention : ℚ
  buckets : List Bucket

/-- `query(connection, tag, from, to)`, without the status texts. -/
def TrendCache.query (cache : TrendCache Summary) (key : TrendKey) (first last : ℚ) :
    TrendAnswer where
  collecting := (cache.scopes.find key).isSome
  startedAt := ((cache.entry key).map Entry.startedAt).filter (· ≠ 0)
  retention := ((cache.entry key).map Entry.retention).getD 0
  buckets :=
    let width := bucketWidth (cache.entry key) first last
    let rows := ((cache.entry key).map Entry.rows).getD []
    (Bin.rebin Holding.combine width (rows.filter (Entry.inRange first last))).map fun p =>
      p.cell.bucket p.t (p.t + width)

end OpcBridge.Hmi
