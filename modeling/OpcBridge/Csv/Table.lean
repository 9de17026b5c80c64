import OpcBridge.Core.Text
import OpcBridge.Lib.Assign
import OpcBridge.Lib.Lines
import Mathlib.Data.String.Basic

/-!
# Tables from delimited text

`parse_csv_table`: the delimiter is guessed from the first line that is not blank, a character loop
with a quote state cuts the text into rows, the first row gives the headers, and the rows below it
become maps from header to cell. `csv_get` finds a cell under any spelling of its header.
-/

namespace OpcBridge.Csv

open Lib

/-! ## Headers -/

/-- One character of the loop: blanks become one underscore, other characters than letters, digits
and underscores are dropped. -/
def normalizeStep (s : List Char × Bool) (ch : Char) : List Char × Bool :=
  if isSpace ch then (if s.2 then s.1 else s.1 ++ ['_'], true)
  else
    let c := lowerChar ch
    if ('a' ≤ c ∧ c ≤ 'z') ∨ ('0' ≤ c ∧ c ≤ '9') ∨ c = '_' then (s.1 ++ [c], c == '_') else s

def csvNormalizeHeaderKey (key : String) : String :=
  String.ofList ((trimCopy key).toList.foldl normalizeStep ([], false)).1

example : csvNormalizeHeaderKey " PLC  Tag-Name (raw) " = "plc_tagname_raw" := by decide

/-! ## The delimiter -/

/-- The first line that is not blank. -/
def firstNonEmpty (input : List Char) : List Char :=
  ((lines input).find? fun line => trimChars line ≠ []).getD []

def detectDelimiter (line : List Char) : Char :=
  let commas := line.count ','
  let tabs := line.count '\t'
  let semis := line.count ';'
  if commas < tabs ∧ semis ≤ tabs then '\t'
  else if commas < semis ∧ tabs < semis then ';'
  else ','

/-! ## Rows -/

structure CsvState where
  rows : List (List String) := []
  row : List String := []
  field : List Char := []
  inQuotes : Bool := false
deriving DecidableEq

namespace CsvState

def push (s : CsvState) (ch : Char) : CsvState := { s with field := s.field ++ [ch] }

def pushField (s : CsvState) : CsvState :=
  { s with row := s.row ++ [String.ofList s.field], field := [] }

/-- A blank row of one field before the first row is skipped. -/
def pushRow (s : CsvState) : CsvState :=
  if s.row.length = 1 ∧ (s.row.all fun cell => trimCopy cell = "") ∧ s.rows = [] then
    { s with row := [] }
  else { s with rows := s.rows ++ [s.row], row := [] }

end CsvState

def csvScan (delimiter : Char) : CsvState → List Char → CsvState
  | s, [] => s
  | s, ch :: rest =>
    if s.inQuotes then
      if ch = '"' then
        match rest with
        | '"' :: rest => csvScan delimiter (s.push '"') rest
        | rest => csvScan delimiter { s with inQuotes := false } rest
      else csvScan delimiter (s.push ch) rest
    else if ch = '"' then csvScan delimiter { s with inQuotes := true } rest
    else if ch = delimiter then csvScan delimiter s.pushField rest
    else if ch = '\r' then csvScan delimiter s rest
    else if ch = '\n' then csvScan delimiter s.pushField.pushRow rest
    else csvScan delimiter (s.push ch) rest

/-- The rows of a text; the last one counts only if it has a cell. -/
def csvRows (delimiter : Char) (input : List Char) : List (List String) :=
  let s := (csvScan delimiter {} input).pushField
  if s.row.any (· ≠ "") then s.pushRow.rows else s.rows

/-! ## The table -/

abbrev CsvRecord := SortedMap String String

structure CsvTable where
  headers : List String := []
  records : List CsvRecord := []

/-- A row under the headers: missing cells are empty, further ones are ignored. -/
def rowCells (headers row : List String) : List String :=
  (List.range headers.length).map fun i => row.getD i ""

def parseCsvTable (input : String) : CsvTable :=
  match csvRows (detectDelimiter (firstNonEmpty input.toList)) input.toList with
  | [] => {}
  | first :: rows =>
    let headers := first.map trimCopy
    { headers := headers
      records := rows.filterMap fun row =>
        let cells := rowCells headers row
        if cells.any fun cell => trimCopy cell ≠ "" then
          some (SortedMap.ofList (headers.zip cells))
        else none }

def csvGet (row : CsvRecord) (key : String) : String :=
  match row.find key with
  | some value => value
  | none =>
    ((row.entries.find? fun x => csvNormalizeHeaderKey x.1 = csvNormalizeHeaderKey key).map
      Prod.snd).getD ""

def csvHasHeader (table : CsvTable) (key : String) : Bool :=
  table.headers.any fun h => csvNormalizeHeaderKey h = csvNormalizeHeaderKey key

end OpcBridge.Csv
