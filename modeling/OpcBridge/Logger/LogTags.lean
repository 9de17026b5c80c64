import OpcBridge.Logger.Columns
import OpcBridge.Logger.JobTags

/-!
# Inserting tags

`insert_tags_for_job` of `opcbridge-logger/opcbridge_logger.cpp`: one statement for each tag of a
list that the job includes. A tag that a member of another type makes unreadable is left out with an
error, and the loop goes on with the next one (`attempts_insertTags`).
-/

namespace OpcBridge.Logger

open Alarms (Json JsonLib ok_of_bind)

/-- The operations of the machine and of the database client. -/
class LogLib [Floats] where
  /-- `sql_string_literal` -/
  literal : String → String
  /-- `epoch_ms_to_datetime`, in the time zone of the machine. -/
  datetime : Int → String
  /-- `std::stod` of a text that it uses to the end; `none` for another text or an exception. -/
  stodAll : String → Option F64
  /-- `std::to_string` of a double. -/
  printFixed : F64 → String

section
variable [Floats]

/-- The fields of a job that decide what is read and written for its tags. -/
structure LogJob where
  name : String
  tags : JobTags
  columns : LogColumns := {}
  /-- `tag_descriptions_by_key` -/
  descriptions : List (String × String) := []
  /-- `tag_description_globs_by_conn` -/
  descriptionGlobs : List (String × List (String × String)) := []
  /-- `tag_output_names_by_key` -/
  outputNames : List (String × String) := []
  /-- `tag_output_globs_by_conn` -/
  outputGlobs : List (String × List (String × String)) := []
  freshMaxAgeMs : Int := 0
  freshTimeoutMs : Int := 1000

/-- `job_tag_description` -/
def jobTagDescription (job : LogJob) (connectionId tagName : String) : String :=
  match job.descriptions.lookup (makeTagKey connectionId tagName) with
  | some description => description
  | none =>
    (((job.descriptionGlobs.lookup connectionId).getD []).find? fun pat =>
      globMatch pat.1 tagName).elim "" Prod.snd

/-- `job_tag_output_name` -/
def jobTagOutputName (job : LogJob) (connectionId tagName : String) : String :=
  match (job.outputNames.lookup (makeTagKey connectionId tagName)).filter (· ≠ "") with
  | some name => name
  | none =>
    (((job.outputGlobs.lookup connectionId).getD []).find? fun pat =>
      globMatch pat.1 tagName && pat.2 ≠ "").elim tagName Prod.snd

variable [JsonLib] [LogLib]

/-- The number and the text of a value; one of them is there. -/
def valueFields : Json → Option F64 × Option String
  | .bool b => (some (Floats.ofInt (if b then 1 else 0)), none)
  | .string s =>
    match LogLib.stodAll s with
    | some x => (some x, none)
    | none => (none, some s)
  | v =>
    match v.number with
    | some x => (some x, none)
    | none => (none, some (JsonLib.dump v))

theorem valueFields_string {s : String} {x : F64} (h : LogLib.stodAll s = some x) :
    valueFields (.string s) = (some x, none) := by
  simp [valueFields, h]

/-- `NULL` for a value that is not there. -/
def orNull {α : Type} (text : α → String) : Option α → String
  | some x => text x
  | none => "NULL"

/-- A text that is not empty. -/
def literalOrNull (s : String) : String := if s = "" then "NULL" else LogLib.literal s

/-- A tag and the statement that is attempted for it. -/
structure TagInsert where
  tag : String × String
  sql : String

/-- The literal for `value_numeric`. -/
def numericText (value : Option F64 × Option String) : String := orNull LogLib.printFixed value.1

def datatypeOf (t : Json) : Except String String :=
  match t.member "datatype" (!·.isNull) with
  | some v => v.getString
  | none => .ok ""

def qualityOf (t : Json) : Except String (Option Int) :=
  match t.member "quality" (!·.isNull) with
  | some v => v.getInt.map some
  | none => .ok none

/-- The statement for a tag that the job includes. -/
def includedInsert (job : LogJob) (t time : Json) (conn name : String) :
    Except String TagInsert := do
  let outputName := jobTagOutputName job conn name
  let time ← time.getLong
  let datatype ← datatypeOf t
  let quality ← qualityOf t
  let value := (t.find "value").elim (none, none) valueFields
  .ok ⟨(conn, name), logInsertSql LogLib.literal job.columns
    [LogLib.literal job.name, toString time, LogLib.literal (LogLib.datetime time),
      LogLib.literal conn, LogLib.literal (if outputName = "" then name else outputName),
      literalOrNull (jobTagDescription job conn name), literalOrNull datatype,
      numericText value, orNull LogLib.literal value.2,
      orNull toString quality, "CURRENT_TIMESTAMP"]⟩

/-- One round of the loop: an exception, nothing for a tag that is not logged, or a statement. -/
def tagInsert (job : LogJob) (t : Json) : Except String (Option TagInsert) :=
  match t.find "connection_id", t.find "name", t.find "timestamp_ms" with
  | some conn, some name, some time => do
    let conn ← conn.getString
    let name ← name.getString
    if jobIncludesTag job.tags conn name then
      (includedInsert job t time conn name).map some
    else .ok none
  | _, _, _ => .ok none

/-- What is counted and reported, and the statements that were attempted. -/
structure InsertRun where
  inserted : Nat := 0
  error : Option String := none
  attempts : List TagInsert := []

/-- `answer n` is the error of the `n`th statement. -/
def InsertRun.step (job : LogJob) (answer : Nat → Option String) (run : InsertRun) (t : Json) :
    InsertRun :=
  match tagInsert job t with
  | .error what => { run with error := some ("Error processing tag JSON: " ++ what) }
  | .ok none => run
  | .ok (some x) =>
    match answer run.attempts.length with
    | some err =>
      { run with
        error := some ("MySQL insert error: " ++ err)
        attempts := run.attempts ++ [x] }
    | none => { run with inserted := run.inserted + 1, attempts := run.attempts ++ [x] }

/-- `insert_tags_for_job` -/
def insertTagsForJob (job : LogJob) (answer : Nat → Option String) : Json → InsertRun
  | .array tags => tags.foldl (InsertRun.step job answer) {}
  | _ => { error := some "JSON 'tags' is not an array." }

/-! ## The attempts -/

/-- The statement for a tag, if there is one. -/
def attempt (job : LogJob) (t : Json) : Option TagInsert := ((tagInsert job t).toOption).join

variable {job : LogJob} {t : Json}

theorem includedInsert_tag {time : Json} {conn name : String} {x : TagInsert}
    (h : includedInsert job t time conn name = .ok x) : x.tag = (conn, name) := by
  obtain ⟨_, -, h⟩ := ok_of_bind h
  obtain ⟨_, -, h⟩ := ok_of_bind h
  obtain ⟨_, -, h⟩ := ok_of_bind h
  rw [← Except.ok.inj h]

theorem exists_includedInsert {time : Json} {conn name : String} :
    (∃ x, includedInsert job t time conn name = .ok x) ↔
      (∃ n, time.getLong = .ok n) ∧ (∃ s, datatypeOf t = .ok s) ∧ ∃ q, qualityOf t = .ok q := by
  unfold includedInsert
  constructor
  · intro ⟨x, h⟩
    obtain ⟨n, hn, h⟩ := ok_of_bind h
    obtain ⟨s, hs, h⟩ := ok_of_bind h
    obtain ⟨q, hq, h⟩ := ok_of_bind h
    exact ⟨⟨n, hn⟩, ⟨s, hs⟩, q, hq⟩
  · intro ⟨⟨n, hn⟩, ⟨s, hs⟩, q, hq⟩
    rw [hn, hs, hq]
    exact ⟨_, rfl⟩

theorem attempts_step (answer : Nat → Option String) (run : InsertRun) :
    (run.step job answer t).attempts = run.attempts ++ (attempt job t).toList := by
  unfold InsertRun.step attempt
  split
  · rename_i heq
    simp [heq, Except.toOption]
  · rename_i heq
    simp [heq, Except.toOption]
  · rename_i heq
    rw [heq]
    split <;> rfl

/-- Whatever the database answers, the readable tags are attempted in order, and no other. -/
theorem attempts_insertTags (answer : Nat → Option String) (tags : List Json) :
    (insertTagsForJob job answer (.array tags)).attempts = tags.filterMap (attempt job) := by
  have hgen : ∀ run : InsertRun, (tags.foldl (InsertRun.step job answer) run).attempts =
      run.attempts ++ tags.filterMap (attempt job) := by
    induction tags with
    | nil => simp
    | cons t tags ih =>
      intro run
      rw [List.foldl_cons, ih, attempts_step, List.append_assoc, List.filterMap_cons]
      cases attempt job t with
      | none => rfl
      | some x => rfl
  exact hgen {}

end

end OpcBridge.Logger
