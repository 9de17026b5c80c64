import OpcBridge.Historian.Recording

/-!
# The statement of a batch

`PgWriter::insert_batch` of `opcbridge-historian/src/main.cpp` up to its statement: one row of
literals for each sample of the batch. If one text cannot be escaped, then there is no statement for
the whole batch.
-/

namespace OpcBridge.Historian

open Lib

/-- The operations of the machine and of the database client. -/
class PgLib [Floats] where
  /-- `PQescapeLiteral`; none is a null pointer. -/
  escapeLiteral : String → Option String
  /-- `std::to_string` of a double. -/
  printFixed : F64 → String

def sqlIdentQuoted (ident : String) : String :=
  String.ofList ('"' :: (ident.toList.flatMap fun c => if c = '"' then [c, c] else [c]) ++ ['"'])

section
variable [Floats] [PgLib]

def literalText (s : String) : Except String String :=
  match PgLib.escapeLiteral s with
  | some literal => .ok literal
  | none => .error "PQescapeLiteral failed"

/-- A text that may be missing, with what follows its literal. -/
def optionalText (suffix : String) : Option String → Except String String
  | some s => (literalText s).map (· ++ suffix)
  | none => .ok "NULL"

/-- The literal for `value_double`. -/
def doubleText : Option F64 → String
  | some x => if Floats.isFinite x then PgLib.printFixed x else "NULL"
  | none => "NULL"

/-- The row of a sample. -/
def sampleValues (s : Sample) : Except String String := do
  let conn ← literalText s.connectionId
  let name ← literalText s.tagName
  let datatype ← optionalText "" s.datatype
  let text ← optionalText "" s.valueText
  let json ← optionalText "::jsonb" s.valueJson
  let source ← literalText s.source
  let seconds := Floats.div (Floats.ofInt s.tsMs) (Floats.ofInt 1000)
  .ok ("(" ++ ",".intercalate ["to_timestamp(" ++ PgLib.printFixed seconds ++ ")", toString s.tsMs,
    conn, name, datatype, s.quality.elim "NULL" toString, doubleText s.valueDouble, text, json,
    source] ++ ")")

/-- Nothing is sent for an empty batch. -/
def insertBatchSql (table : String) (batch : List Sample) : Except String (Option String) :=
  if batch.isEmpty then .ok none
  else do
    let rows ← batch.mapM sampleValues
    .ok (some ("INSERT INTO " ++ sqlIdentQuoted table ++
      " (ts, ts_ms, connection_id, tag_name, datatype, quality, value_double, value_text, " ++
      "value_json, source) VALUES " ++ ",".intercalate rows ++ ";"))

end

end OpcBridge.Historian
