import Mathlib.Data.List.Dedup
import Mathlib.Data.List.Count
import Mathlib.Data.List.Sort
import OpcBridge.Core.Text

/-!
# Database sync

`run_sync_job_v2`: the latest row of each item and period is selected on both sides, the keys of
both sides are compared in the order of their texts, and missing rows are inserted on the other
side. A table is the list of its rows, in the order in which the database returns equal ones; a row
has the mapped columns. Times are microseconds of the wall clock since 1970. A period is given by
its first second; its text has a fixed length, so that the text of a key determines its item and its
period.

The answers of the two databases are given with the run. A transaction that is not committed leaves
its table alone. The displayed rows of a comparison are left out. `outcomes` and `committing` are
not in the program: what became of each key, and whether a commit was tried.
-/

namespace OpcBridge.Logger

open OpcBridge

/-! ## Tables and jobs -/

structure SyncRow where
  time : Int
  item : String
  values : List (Option String)
  deriving DecidableEq

/-- Database A or database B. -/
inductive Side
  | a
  | b
  deriving DecidableEq

inductive DbType
  | mysql
  | odbc
  | unsupported
  deriving DecidableEq

structure SyncJob where
  sourceTable : String
  sourceTimeColumn : String
  sourceItemColumn : String
  destinationTable : String
  destinationTimeColumn : String
  destinationItemColumn : String
  lookbackDays : Nat
  matchIntervalMinutes : Nat
  bidirectional : Bool
  allTags : Bool
  tags : List String
  mappings : List (String × String)

/-- A job with its databases, the range if one is given, and the clocks of the databases. -/
structure SyncCall where
  job : SyncJob
  type : Side → DbType
  range : Option (Int × Int)
  now : Side → Int

/-- An item and the first second of a period. -/
abbrev SyncKey := String × Int

/-- The text of a period, `DATE_FORMAT` or `CONVERT`. -/
class PeriodText where
  text : Int → String

/-! ## Selection -/

def second : Int := 1000000

/-- The first second of the period of a time, as each database computes it. -/
def period (type : DbType) (minutes : Nat) (time : Int) : Int :=
  if minutes = 0 then time / second
  else
    let seconds : Int := minutes * 60
    match type with
    -- `FLOOR(TIMESTAMPDIFF(SECOND,..)/n)*n`; the difference is cut off towards zero
    | .mysql => time.tdiv second / seconds * seconds
    -- `DATEDIFF_BIG(second,..)/n*n`; the quotient is cut off towards zero
    | _ => (time / second).tdiv seconds * seconds

namespace SyncCall
variable (c : SyncCall)

def key (side : Side) (r : SyncRow) : SyncKey :=
  (r.item, period (c.type side) c.job.matchIntervalMinutes r.time)

/-- The `WHERE` clause of a side. -/
def selects (side : Side) (r : SyncRow) : Bool :=
  (match c.range with
    | some (start, stop) => decide (start ≤ r.time ∧ r.time < stop)
    | none => decide (c.now side - c.job.lookbackDays * (86400 * second) ≤ r.time)) &&
  (c.job.allTags || decide (r.item ∈ c.job.tags))

/-- The rows of the latest time of each item and period. -/
def latest (side : Side) (table : List SyncRow) : List SyncRow :=
  let selected := table.filter (c.selects side)
  selected.filter fun r => selected.all fun r' => c.key side r' ≠ c.key side r ∨ r'.time ≤ r.time

/-- The candidate of a key; of equal ones the last remains in the map. -/
def candidate (side : Side) (table : List SyncRow) (k : SyncKey) : Option SyncRow :=
  ((c.latest side table).filter fun r => c.key side r = k).getLast?

def rowLimit : Nat := 1000000

def keyText [PeriodText] (k : SyncKey) : String := k.1 ++ "\u001F" ++ PeriodText.text k.2

/-- The keys of both sides in the order of their texts. -/
def keys [PeriodText] (tableA tableB : List SyncRow) : List SyncKey :=
  (((c.latest .a tableA).map (c.key .a) ++ (c.latest .b tableB).map (c.key .b)).dedup).insertionSort
    fun k k' => keyText k ≤ keyText k'

end SyncCall

/-! ## Keys -/

/-- What becomes of a key. -/
inductive KeyOutcome
  | inserted (side : Side) (row : SyncRow)
  /-- Only on side B of a job in one direction. -/
  | bOnly
  | matching
  | conflict
  | failed (side : Side) (row : SyncRow) (error : String)
  deriving DecidableEq

/-- What the databases answer. -/
structure SyncReplies where
  connect : Side → Option String := fun _ => none
  lock : Option String := none
  query : Side → Option String := fun _ => none
  begins : Option String := none
  /-- The error of an insert into a table. -/
  rejects : Side → List SyncRow → SyncRow → Option String := fun _ _ _ => none
  commit : Side → Option String := fun _ => none

structure SyncCounts where
  examined : Nat := 0
  selected : Nat := 0
  inserted : Nat := 0
  skipped : Nat := 0
  failed : Nat := 0
  aToB : Nat := 0
  bToA : Nat := 0
  matching : Nat := 0
  conflicts : Nat := 0

/-- The tables inside the transactions, and what was counted. -/
structure SyncState where
  a : List SyncRow
  b : List SyncRow
  counts : SyncCounts := {}
  outcomes : List (SyncKey × KeyOutcome) := []

def SyncState.table (s : SyncState) : Side → List SyncRow
  | .a => s.a
  | .b => s.b

/-- `insert_candidate`, with the status that the result gives. -/
def SyncReplies.attempt (replies : SyncReplies) (side : Side) (table : List SyncRow)
    (row : SyncRow) : KeyOutcome :=
  match replies.rejects side table row with
  | none => .inserted side row
  | some error =>
    if row ∈ table then .matching
    else if table.any fun r => r.time = row.time ∧ r.item = row.item then .conflict
    else .failed side row error

/-- The status of a key with its candidates; a dry run does not insert. -/
def keyOutcome (c : SyncCall) (replies : SyncReplies) (dryRun : Bool) (s : SyncState) :
    Option SyncRow → Option SyncRow → KeyOutcome
  | some a, none => if dryRun then .inserted .b a else replies.attempt .b s.b a
  | none, some b =>
    if !c.job.bidirectional then .bOnly
    else if dryRun then .inserted .a b else replies.attempt .a s.a b
  | some a, some b =>
    if 0 < c.job.matchIntervalMinutes ∨ a.values = b.values then .matching else .conflict
  | none, none => .conflict

def SyncCounts.add (n : SyncCounts) (dryRun : Bool) : KeyOutcome → SyncCounts
  | .inserted .b _ => { n with aToB := n.aToB + 1, inserted := n.inserted + if dryRun then 0 else 1 }
  | .inserted .a _ => { n with bToA := n.bToA + 1, inserted := n.inserted + if dryRun then 0 else 1 }
  | .bOnly => { n with skipped := n.skipped + 1 }
  | .matching => { n with matching := n.matching + 1, skipped := n.skipped + 1 }
  | .conflict => { n with conflicts := n.conflicts + 1, skipped := n.skipped + 1 }
  -- the direction of a failed insert stays counted
  | .failed .b _ _ => { n with aToB := n.aToB + 1, failed := n.failed + 1 }
  | .failed .a _ _ => { n with bToA := n.bToA + 1, failed := n.failed + 1 }

def SyncState.add (s : SyncState) (dryRun : Bool) (k : SyncKey) (o : KeyOutcome) : SyncState :=
  let s := { s with counts := s.counts.add dryRun o, outcomes := s.outcomes ++ [(k, o)] }
  match o with
  | .inserted .a row => if dryRun then s else { s with a := s.a ++ [row] }
  | .inserted .b row => if dryRun then s else { s with b := s.b ++ [row] }
  | _ => s

/-- The loop over the keys, with the loaded candidates. It stops at a failed insert. -/
def syncLoop (c : SyncCall) (replies : SyncReplies) (dryRun : Bool)
    (candidate : Side → SyncKey → Option SyncRow) : List SyncKey → SyncState → SyncState
  | [], s => s
  | k :: ks, s =>
    let o := keyOutcome c replies dryRun s (candidate .a k) (candidate .b k)
    match o with
    | .failed .. => s.add dryRun k o
    | _ => syncLoop c replies dryRun candidate ks (s.add dryRun k o)

/-! ## The run -/

structure SyncResult where
  ok : Bool
  counts : SyncCounts := {}
  error : String := ""
  outcomes : List (SyncKey × KeyOutcome) := []
  committing : Bool := false
  /-- The tables after the run. -/
  a : List SyncRow
  b : List SyncRow

def identifierPart : List Char → Bool
  | [] => false
  | ch :: chs => (isAlpha ch || ch == '_') && chs.all fun ch => isAlnum ch || ch == '_'

/-- A name, or two with a dot between them. -/
def syncIdentifierValid (value : String) : Bool :=
  match value.toList.span (· != '.') with
  | (part, []) => identifierPart part
  | (part, _ :: rest) => identifierPart part && identifierPart rest

/-- The checks before the databases are connected. -/
def SyncCall.problem (c : SyncCall) : Option String :=
  let identifiers := [c.job.sourceTable, c.job.sourceTimeColumn, c.job.sourceItemColumn,
    c.job.destinationTable, c.job.destinationTimeColumn, c.job.destinationItemColumn] ++
    c.job.mappings.flatMap fun m => [m.1, m.2]
  if c.type .a = .unsupported ∨ c.type .b = .unsupported then
    some "Database Sync supports MySQL and SQL Server (ODBC) databases"
  else if c.job.mappings = [] then some "At least one value mapping is required"
  else if !c.job.allTags ∧ c.job.tags = [] then some "Select all tags or at least one tag"
  else
    (identifiers.find? fun identifier => !syncIdentifierValid identifier).map fun identifier =>
      "Invalid or missing table/column identifier: " ++ identifier

/-- The rows of a side, or the error of its query. -/
def SyncCall.loadSide (c : SyncCall) (replies : SyncReplies) (side : Side)
    (table : List SyncRow) : Except String (List SyncRow) :=
  let name := match side with
    | .a => "Database A"
    | .b => "Database B"
  match replies.query side with
  | some error => .error (name ++ " query failed: " ++ error)
  | none =>
    if SyncCall.rowLimit < (c.latest side table).length then
      .error (name ++
        " comparison exceeds 1,000,000 tag/period records; reduce the lookback period")
    else .ok (c.latest side table)

/-- The error of the first failed insert. -/
def failureOf [PeriodText] (outcomes : List (SyncKey × KeyOutcome)) : Option String :=
  outcomes.findSome? fun
    | (k, .failed side row error) =>
      some ((match side with
          | .a => "Database A"
          | .b => "Database B") ++ " insert failed for tag '" ++ row.item ++ "' in period " ++
        PeriodText.text k.2 ++ ": " ++
        if error = "" then "database rejected the row" else error)
    | _ => none

/-- The connections, the locks and the queries of both sides: the number of the rows, or the error
with the rows that were counted before. -/
def SyncCall.load (c : SyncCall) (replies : SyncReplies) (tableA tableB : List SyncRow) :
    Except (String × Nat) Nat :=
  match c.problem, replies.connect .a, replies.connect .b, replies.lock with
  | some error, _, _, _ => .error (error, 0)
  | none, some error, _, _ => .error ("Database A " ++ error, 0)
  | none, none, some error, _ => .error ("Database B " ++ error, 0)
  | none, none, none, some error =>
    .error (if error = "" then "Another node is already comparing or running this sync job"
      else error, 0)
  | none, none, none, none =>
    match c.loadSide replies .a tableA with
    | .error error => .error (error, 0)
    | .ok rowsA =>
      match c.loadSide replies .b tableB with
      | .error error => .error (error, rowsA.length)
      | .ok rowsB => .ok (rowsA.length + rowsB.length)

variable [PeriodText]

/-- The candidates of both sides. -/
def SyncCall.candidates (c : SyncCall) (tableA tableB : List SyncRow) (side : Side) :
    SyncKey → Option SyncRow :=
  match side with
  | .a => c.candidate .a tableA
  | .b => c.candidate .b tableB

/-- The loop of a run. -/
def SyncCall.loop (c : SyncCall) (replies : SyncReplies) (dryRun : Bool)
    (tableA tableB : List SyncRow) (examined : Nat) : SyncState :=
  let keys := c.keys tableA tableB
  syncLoop c replies dryRun (c.candidates tableA tableB) keys
    { a := tableA, b := tableB, counts := { examined, selected := keys.length } }

/-- What a run does after both sides are loaded. -/
def SyncCall.compare (c : SyncCall) (replies : SyncReplies) (dryRun : Bool)
    (tableA tableB : List SyncRow) (examined : Nat) : SyncResult :=
  let s := c.loop replies dryRun tableA tableB examined
  if dryRun then
    { ok := true, counts := { s.counts with inserted := s.counts.aToB + s.counts.bToA }
      outcomes := s.outcomes, a := tableA, b := tableB }
  else
    match replies.begins with
    | some error =>
      { ok := false, counts := { examined, selected := (c.keys tableA tableB).length }
        error := "Could not start database transactions: " ++ error, a := tableA, b := tableB }
    | none =>
      match failureOf s.outcomes with
      | some error =>
        { ok := false, counts := { s.counts with inserted := 0 }, error, outcomes := s.outcomes
          a := tableA, b := tableB }
      | none =>
        let failed (error : String) (a : List SyncRow) : SyncResult :=
          { ok := false, counts := s.counts, outcomes := s.outcomes, committing := true, a
            b := tableB
            error := "A database commit failed; review both databases before retrying: " ++ error }
        match replies.commit .a with
        | some error => failed error tableA
        | none =>
          match replies.commit .b with
          | some error => failed error s.a
          | none =>
            { ok := true, counts := s.counts, outcomes := s.outcomes, committing := true
              a := s.a, b := s.b }

/-- `run_sync_job_v2` -/
def SyncCall.run (c : SyncCall) (replies : SyncReplies) (dryRun : Bool)
    (tableA tableB : List SyncRow) : SyncResult :=
  match c.load replies tableA tableB with
  | .error (error, examined) =>
    { ok := false, counts := { examined }, error, a := tableA, b := tableB }
  | .ok examined => c.compare replies dryRun tableA tableB examined

end OpcBridge.Logger
