import Mathlib.Data.List.Forall2

/-!
# Delimited text

The texts of a table by RFC 4180, for a delimiter `d`: a field is written as it is or between quotes
with its own quotes doubled, the latter at least where it holds a delimiter, a quote, a carriage
return or a line feed; a row joins its fields with the delimiter; a line ends with LF or CRLF, which
the last line may leave out. Blank lines may come first.
-/

namespace Lib

variable {d : Char}

/-- A character that a field without quotes may hold. -/
def PlainChar (d c : Char) : Prop := c ≠ d ∧ c ≠ '"' ∧ c ≠ '\r' ∧ c ≠ '\n'

instance (d c : Char) : Decidable (PlainChar d c) := inferInstanceAs (Decidable (_ ∧ _))

def doubleQuotes (cell : List Char) : List Char :=
  cell.flatMap fun c => if c = '"' then ['"', '"'] else [c]

inductive FieldText (d : Char) : List Char → List Char → Prop
  | plain {cell : List Char} (h : ∀ c ∈ cell, PlainChar d c) : FieldText d cell cell
  | quoted (cell : List Char) : FieldText d cell ('"' :: (doubleQuotes cell ++ ['"']))

inductive RowText (d : Char) : List (List Char) → List Char → Prop
  | last {cell text : List Char} (h : FieldText d cell text) : RowText d [cell] text
  | cons {cell text rest : List Char} {cells : List (List Char)} (h : FieldText d cell text)
      (hrest : RowText d cells rest) : RowText d (cell :: cells) (text ++ d :: rest)

inductive LineEnd : List Char → Prop
  | lf : LineEnd ['\n']
  | crlf : LineEnd ['\r', '\n']

inductive RowsText (d : Char) : List (List (List Char)) → List Char → Prop
  | last {row : List (List Char)} {text : List Char} (h : RowText d row text) :
      RowsText d [row] text
  | lastEnd {row : List (List Char)} {text e : List Char} (h : RowText d row text)
      (he : LineEnd e) : RowsText d [row] (text ++ e)
  | cons {row : List (List Char)} {rows : List (List (List Char))} {text e rest : List Char}
      (h : RowText d row text) (he : LineEnd e) (hrest : RowsText d rows rest) :
      RowsText d (row :: rows) (text ++ (e ++ rest))

/-- Rows after blank lines. -/
inductive TableText (d : Char) (blank : Char → Bool) : List (List (List Char)) → List Char → Prop
  | rows {rows : List (List (List Char))} {text : List Char} (h : RowsText d rows text) :
      TableText d blank rows text
  | blankLine {rows : List (List (List Char))} {line e text : List Char}
      (hline : ∀ c ∈ line, blank c = true ∧ PlainChar d c) (he : LineEnd e)
      (h : TableText d blank rows text) : TableText d blank rows (line ++ (e ++ text))

@[simp] theorem doubleQuotes_nil : doubleQuotes [] = [] := rfl

theorem doubleQuotes_cons (c : Char) (cell : List Char) :
    doubleQuotes (c :: cell) = (if c = '"' then ['"', '"'] else [c]) ++ doubleQuotes cell := by
  simp [doubleQuotes]

/-- What follows a field does not begin with a quote. -/
def AfterField (rest : List Char) : Prop := rest.head? ≠ some '"'

theorem LineEnd.after {e : List Char} (h : LineEnd e) (rest : List Char) : AfterField (e ++ rest) := by
  cases h with
  | lf => simp [AfterField]
  | crlf => simp [AfterField]

/-! ## Characters of a row -/

theorem FieldText.not_mem {cell text : List Char} (h : FieldText d cell text) {c : Char}
    (hquote : c ≠ '"') (hcell : c ∉ cell) : c ∉ text := by
  cases h with
  | plain h => exact hcell
  | quoted =>
    have hdoubled : c ∉ doubleQuotes cell := by
      intro hmem
      obtain ⟨x, hx, hc⟩ := List.mem_flatMap.1 hmem
      split at hc
      · simp [hquote] at hc
      · exact hcell (List.mem_singleton.1 hc ▸ hx)
    simp [hquote, hdoubled]

/-- The delimiters between the fields. -/
theorem RowText.count_delimiter {cells : List (List Char)} {text : List Char}
    (h : RowText d cells text) (hd : d ≠ '"') (hcells : ∀ cell ∈ cells, d ∉ cell) :
    text.count d + 1 = cells.length := by
  induction h with
  | last h =>
    rw [List.count_eq_zero.2 (h.not_mem hd (hcells _ List.mem_cons_self))]
    rfl
  | cons h hrest ih =>
    rw [List.forall_mem_cons] at hcells
    rw [List.count_append, List.count_eq_zero.2 (h.not_mem hd hcells.1), List.count_cons_self,
      List.length_cons, ← ih hcells.2]
    omega

theorem RowText.not_mem {cells : List (List Char)} {text : List Char} (h : RowText d cells text)
    {c : Char} (hd : c ≠ d) (hquote : c ≠ '"') (hcells : ∀ cell ∈ cells, c ∉ cell) :
    c ∉ text := by
  induction h with
  | last h => exact h.not_mem hquote (hcells _ List.mem_cons_self)
  | cons h hrest ih =>
    rw [List.forall_mem_cons] at hcells
    rw [List.mem_append, List.mem_cons, not_or, not_or]
    exact ⟨h.not_mem hquote hcells.1, hd, ih hcells.2⟩

theorem FieldText.mem {cell text : List Char} (h : FieldText d cell text) {c : Char}
    (hc : c ∈ cell) : c ∈ text := by
  cases h with
  | plain h => exact hc
  | quoted =>
    have hdoubled : c ∈ doubleQuotes cell := by
      refine List.mem_flatMap.2 ⟨c, hc, ?_⟩
      split
      · rename_i hquote
        simp [hquote]
      · exact List.mem_singleton_self c
    simp [hdoubled]

theorem RowText.mem {cells : List (List Char)} {text : List Char} (h : RowText d cells text)
    {c : Char} {cell : List Char} (hcell : cell ∈ cells) (hc : c ∈ cell) : c ∈ text := by
  induction h with
  | last h =>
    obtain rfl := List.mem_singleton.1 hcell
    exact h.mem hc
  | cons h hrest ih =>
    rw [List.mem_append]
    rcases List.mem_cons.1 hcell with rfl | hmore
    · exact .inl (h.mem hc)
    · exact .inr (List.mem_cons_of_mem _ (ih hmore))

end Lib
