import OpcBridge.Csv.Table
import OpcBridge.Lib.Rfc4180

/-!
# Reading what was written

`parseCsvTable` on a text that RFC 4180 gives for a table: the loop finds the fields again, whatever
is quoted, and drops a last row without any character, which holds no value. So the table has the
headers and the rows with a value (`parseCsvTable_rendering`).
-/

namespace OpcBridge.Csv

open Lib

/-! ## The loop -/

section
variable {d : Char} {s : CsvState} {rest : List Char}

theorem csvScan_cons (s : CsvState) (ch : Char) (rest : List Char) :
    csvScan d s (ch :: rest) =
      if s.inQuotes then
        if ch = '"' then
          match rest with
          | '"' :: rest => csvScan d (s.push '"') rest
          | rest => csvScan d { s with inQuotes := false } rest
        else csvScan d (s.push ch) rest
      else if ch = '"' then csvScan d { s with inQuotes := true } rest
      else if ch = d then csvScan d s.pushField rest
      else if ch = '\r' then csvScan d s rest
      else if ch = '\n' then csvScan d s.pushField.pushRow rest
      else csvScan d (s.push ch) rest :=
  (csvScan.eq_def d s (ch :: rest)).trans rfl

theorem csvScan_close (hq : s.inQuotes = true) (hrest : AfterField rest) :
    csvScan d s ('"' :: rest) = csvScan d { s with inQuotes := false } rest := by
  rw [csvScan_cons, if_pos hq, if_pos rfl]
  cases rest with
  | nil => rfl
  | cons c rest =>
    have hc : c ≠ '"' := by
      rintro rfl
      exact hrest rfl
    split
    · rename_i heq
      cases heq
      exact absurd rfl hc
    · rfl

theorem scan_plain (s : CsvState) (hq : s.inQuotes = false) {cell : List Char}
    (h : ∀ c ∈ cell, PlainChar d c) (rest : List Char) :
    csvScan d s (cell ++ rest) = csvScan d { s with field := s.field ++ cell } rest := by
  induction cell generalizing s with
  | nil => simp
  | cons c cell ih =>
    rw [List.forall_mem_cons] at h
    obtain ⟨⟨hd, hquote, hcr, hlf⟩, hcell⟩ := h
    rw [List.cons_append, csvScan_cons, if_neg (by simp [hq]), if_neg hquote, if_neg hd, if_neg hcr,
      if_neg hlf]
    refine (ih (s.push c) hq hcell).trans ?_
    simp [CsvState.push]

theorem scan_quoted (s : CsvState) (hq : s.inQuotes = true) (cell : List Char)
    (hrest : AfterField rest) :
    csvScan d s (doubleQuotes cell ++ '"' :: rest) =
      csvScan d { s with field := s.field ++ cell, inQuotes := false } rest := by
  induction cell generalizing s with
  | nil =>
    rw [doubleQuotes_nil, List.nil_append, csvScan_close hq hrest]
    simp
  | cons c cell ih =>
    rw [doubleQuotes_cons]
    by_cases hc : c = '"'
    · subst hc
      rw [if_pos rfl, List.append_assoc, List.cons_append, List.cons_append, List.nil_append,
        csvScan_cons, if_pos hq, if_pos rfl]
      refine (ih (s.push '"') hq).trans ?_
      simp [CsvState.push]
    · rw [if_neg hc, List.append_assoc, List.cons_append, List.nil_append, csvScan_cons,
        if_pos hq,
        if_neg hc]
      refine (ih (s.push c) hq).trans ?_
      simp [CsvState.push]

theorem scan_field (hq : s.inQuotes = false) (hfield : s.field = []) {cell text : List Char}
    (h : FieldText d cell text) (hrest : AfterField rest) :
    csvScan d s (text ++ rest) = csvScan d { s with field := cell } rest := by
  cases h with
  | plain h =>
    rw [scan_plain s hq h, hfield]
    rfl
  | quoted =>
    rw [List.cons_append, csvScan_cons, if_neg (by simp [hq]), if_pos rfl, List.append_assoc,
      List.cons_append, List.nil_append]
    refine (scan_quoted { s with inQuotes := true } rfl cell hrest).trans ?_
    rw [hfield, ← hq]
    rfl

theorem scan_row (s : CsvState) (hd : d ≠ '"') (hq : s.inQuotes = false) (hfield : s.field = [])
    {cells : List (List Char)} {text : List Char} (h : RowText d cells text)
    (hrest : AfterField rest) :
    ∃ init last, cells = init ++ [last] ∧ csvScan d s (text ++ rest) =
      csvScan d { s with row := s.row ++ init.map String.ofList, field := last } rest := by
  induction h generalizing s with
  | last h =>
    refine ⟨[], _, rfl, ?_⟩
    rw [scan_field hq hfield h hrest]
    simp
  | @cons cell text more cells h hmore ih =>
    have hafter : AfterField (d :: (more ++ rest)) := by simpa [AfterField] using hd
    obtain ⟨init, last, rfl, hscan⟩ := ih { s with field := cell }.pushField hq rfl
    refine ⟨cell :: init, last, rfl, ?_⟩
    rw [List.append_assoc, List.cons_append, scan_field hq hfield h hafter, csvScan_cons,
      if_neg (by simp [hq]), if_neg hd, if_pos rfl, hscan]
    simp [CsvState.pushField]

theorem scan_lineEnd (s : CsvState) (hcr : d ≠ '\r') (hlf : d ≠ '\n')
    (hq : s.inQuotes = false) {e : List Char}
    (he : LineEnd e) (rest : List Char) :
    csvScan d s (e ++ rest) = csvScan d s.pushField.pushRow rest := by
  have hnewline : csvScan d s ('\n' :: rest) = csvScan d s.pushField.pushRow rest := by
    rw [csvScan_cons, if_neg (by simp [hq]), if_neg (by decide), if_neg (Ne.symm hlf),
      if_neg (by decide), if_pos rfl]
  cases he with
  | lf => exact hnewline
  | crlf =>
    rw [List.cons_append, csvScan_cons, if_neg (by simp [hq]), if_neg (by decide),
      if_neg (Ne.symm hcr), if_pos rfl]
    exact hnewline

end

/-- The delimiters that are tried. -/
def Delimiter (d : Char) : Prop := d = ',' ∨ d = '\t' ∨ d = ';'

theorem Delimiter.ne {d : Char} (h : Delimiter d) : d ≠ '"' ∧ d ≠ '\r' ∧ d ≠ '\n' := by
  rcases h with rfl | rfl | rfl <;> decide

/-! ## Rows -/

/-- The cells of a row of characters. -/
def cellsOf (row : List (List Char)) : List String := row.map String.ofList

section
variable {d : Char}

/-- What the end of the input makes of the state. -/
def finish (s : CsvState) : List (List String) :=
  if s.pushField.row.any (· ≠ "") then s.pushField.pushRow.rows else s.pushField.rows

theorem csvRows_eq (d : Char) (input : List Char) :
    csvRows d input = finish (csvScan d {} input) := rfl

theorem pushRow_rows {rows : List (List String)} {init : List (List Char)} {last : List Char}
    (hwidth : 2 ≤ (init ++ [last]).length) :
    CsvState.pushRow (CsvState.pushField
      { rows := rows, row := [] ++ init.map String.ofList, field := last }) =
      { rows := rows ++ [cellsOf (init ++ [last])] } := by
  have hlength : ¬ (init.map String.ofList ++ [String.ofList last]).length = 1 := by
    rw [List.length_append, List.length_singleton] at hwidth
    rw [List.length_append, List.length_singleton, List.length_map]
    omega
  simp only [CsvState.pushField, CsvState.pushRow, List.nil_append, hlength, false_and, if_false,
    cellsOf, List.map_append, List.map_singleton]

/-- All rows come back, up to a last one without a character. -/
theorem finish_rows (hd : Delimiter d) {rows : List (List (List Char))} {text : List Char}
    (h : RowsText d rows text) (hwidth : ∀ row ∈ rows, 2 ≤ row.length)
    (before : List (List String)) :
    ∃ kept, finish (csvScan d { rows := before } text) = before ++ kept.map cellsOf ∧
      (kept = rows ∨ ∃ last, rows = kept ++ [last] ∧ ∀ cell ∈ last, cell = []) := by
  obtain ⟨hquote, hcr, hlf⟩ := hd.ne
  induction h generalizing before with
  | @last row text h =>
    have hrow := hwidth row List.mem_cons_self
    obtain ⟨init, last, rfl, hscan⟩ := scan_row { rows := before } hquote rfl rfl h
      (show AfterField [] by simp [AfterField])
    rw [List.append_nil] at hscan
    rw [hscan, csvScan, finish, pushRow_rows hrow]
    split
    · exact ⟨[init ++ [last]], rfl, .inl rfl⟩
    · rename_i hempty
      refine ⟨[], by simp [CsvState.pushField], .inr ⟨_, rfl, fun cell hcell => ?_⟩⟩
      have hall : ∀ cell ∈ init ++ [last], String.ofList cell = "" := by
        simpa [CsvState.pushField, or_imp, forall_and] using hempty
      exact String.ofList_injective (hall cell hcell)
  | @lastEnd row text e h he =>
    have hrow := hwidth row List.mem_cons_self
    obtain ⟨init, last, rfl, hscan⟩ := scan_row { rows := before } hquote rfl rfl h
      (show AfterField e by cases he <;> simp [AfterField])
    have hend := scan_lineEnd { rows := before, row := [] ++ init.map String.ofList, field := last }
      hcr hlf rfl he []
    rw [List.append_nil] at hend
    refine ⟨[init ++ [last]], ?_, .inl rfl⟩
    rw [hscan, hend, pushRow_rows hrow, csvScan]
    simp [finish, CsvState.pushField]
  | @cons row rows text e rest h he hrest ih =>
    rw [List.forall_mem_cons] at hwidth
    obtain ⟨init, last, rfl, hscan⟩ := scan_row { rows := before } hquote rfl rfl h (he.after rest)
    obtain ⟨kept, hfinish, hkept⟩ := ih hwidth.2 (before ++ [cellsOf (init ++ [last])])
    refine ⟨(init ++ [last]) :: kept, ?_, ?_⟩
    · rw [hscan, scan_lineEnd _ hcr hlf rfl he, pushRow_rows hwidth.1, hfinish]
      simp
    · rcases hkept with rfl | ⟨row, rfl, hempty⟩
      · exact .inl rfl
      · exact .inr ⟨row, rfl, hempty⟩

end

/-! ## The header line -/

/-- The headers of a table: two at least, without a delimiter, a quote or the end of a line, and
told apart by their keys. -/
structure CsvHeaders (headers : List String) : Prop where
  two : 2 ≤ headers.length
  nonempty : ∀ h ∈ headers, h ≠ ""
  plain : ∀ h ∈ headers, ∀ c ∈ [',', '\t', ';', '"', '\r', '\n'], c ∉ h.toList
  distinct : (headers.map csvNormalizeHeaderKey).Nodup

@[simp] theorem csvNormalizeHeaderKey_trim (h : String) :
    csvNormalizeHeaderKey (trimCopy h) = csvNormalizeHeaderKey h := by
  unfold csvNormalizeHeaderKey
  rw [trimCopy_trimCopy]

/-- One of two headers is not blank. -/
theorem CsvHeaders.exists_char {headers : List String} (h : CsvHeaders headers) :
    ∃ name ∈ headers, ∃ c ∈ name.toList, isSpace c = false := by
  by_contra hnone
  have hblank : ∀ name ∈ headers, csvNormalizeHeaderKey name = "" := by
    intro name hname
    have hall : ∀ c ∈ name.toList, isSpace c = true := fun c hc =>
      Bool.of_not_eq_false fun hspace => hnone ⟨name, hname, c, hc, hspace⟩
    unfold csvNormalizeHeaderKey
    rw [trimCopy_eq_empty.2 hall]
    rfl
  have hsame : headers.map csvNormalizeHeaderKey = List.replicate headers.length "" := by
    refine List.eq_replicate_iff.2 ⟨List.length_map .., fun key hkey => ?_⟩
    obtain ⟨name, hname, rfl⟩ := List.mem_map.1 hkey
    exact hblank name hname
  have hdistinct := h.distinct
  rw [hsame, List.nodup_replicate] at hdistinct
  have htwo := h.two
  omega

section
variable {d : Char} {headers : List String} {text : List Char}

/-- The cells of a row of texts. -/
def charsOf (row : List String) : List (List Char) := row.map String.toList

@[simp] theorem cellsOf_charsOf (row : List String) : cellsOf (charsOf row) = row := by
  simp [cellsOf, charsOf, List.map_map, Function.comp_def]

theorem CsvHeaders.not_mem (h : CsvHeaders headers) {c : Char}
    (hc : c ∈ [',', '\t', ';', '"', '\r', '\n']) : ∀ cell ∈ charsOf headers, c ∉ cell := by
  intro cell hcell
  obtain ⟨name, hname, rfl⟩ := List.mem_map.1 hcell
  exact h.plain name hname c hc

/-- The delimiter of the header line is found, also with a carriage return behind it. -/
theorem detect_header (hd : Delimiter d) (h : CsvHeaders headers)
    (htext : RowText d (charsOf headers) text) {back : List Char}
    (hback : back = [] ∨ back = ['\r']) : detectDelimiter (text ++ back) = d := by
  have hmem : d ∈ [',', '\t', ';', '"', '\r', '\n'] := by
    rcases hd with rfl | rfl | rfl <;> decide
  have hcount := htext.count_delimiter hd.ne.1 (h.not_mem hmem)
  have hlength : (charsOf headers).length = headers.length := List.length_map ..
  have htwo := h.two
  have hother : ∀ c, Delimiter c → c ≠ d → text.count c = 0 := by
    intro c hc hne
    have hc' : c ∈ [',', '\t', ';', '"', '\r', '\n'] := by
      rcases hc with rfl | rfl | rfl <;> decide
    exact List.count_eq_zero.2 (htext.not_mem hne hc.ne.1 (h.not_mem hc'))
  have hsame : ∀ c, Delimiter c → (text ++ back).count c = text.count c := by
    intro c hc
    have hzero : back.count c = 0 := by
      rcases hback with rfl | rfl
      · rfl
      · exact List.count_eq_zero.2 (by simpa using hc.ne.2.1)
    rw [List.count_append, hzero, Nat.add_zero]
  unfold detectDelimiter
  dsimp only
  rw [hsame ',' (.inl rfl), hsame '\t' (.inr (.inl rfl)), hsame ';' (.inr (.inr rfl))]
  rcases hd with rfl | rfl | rfl
  · have htab := hother '\t' (.inr (.inl rfl)) (by decide)
    have hsemi := hother ';' (.inr (.inr rfl)) (by decide)
    rw [if_neg (by omega), if_neg (by omega)]
  · have hcomma := hother ',' (.inl rfl) (by decide)
    have hsemi := hother ';' (.inr (.inr rfl)) (by decide)
    rw [if_pos (by omega)]
  · have hcomma := hother ',' (.inl rfl) (by decide)
    have htab := hother '\t' (.inr (.inl rfl)) (by decide)
    rw [if_neg (by omega), if_pos (by omega)]

/-- The line of the headers is the first that is not blank. -/
theorem firstNonEmpty_rows (h : CsvHeaders headers) (hd : Delimiter d)
    {records : List (List (List Char))} (htext : RowsText d (charsOf headers :: records) text) :
    detectDelimiter (firstNonEmpty text) = d := by
  have hline : ∀ line back rest, RowText d (charsOf headers) line → (back = [] ∨ back = ['\r']) →
      detectDelimiter (firstNonEmpty (line ++ back ++ '\n' :: rest)) = d ∧
        detectDelimiter (firstNonEmpty line) = d := by
    intro line back rest hrow hback
    obtain ⟨name, hname, c, hc, hspace⟩ := h.exists_char
    have hmem : c ∈ line := hrow.mem (List.mem_map_of_mem hname) hc
    have htrim : ∀ more, trimChars (line ++ more) ≠ [] := by
      intro more hnil
      have hblank := trimChars_eq_nil.1 hnil c (List.mem_append_left _ hmem)
      rw [hspace] at hblank
      cases hblank
    have hlf : '\n' ∉ line := hrow.not_mem (Ne.symm hd.ne.2.2) (by decide)
      (h.not_mem (by decide))
    have hlf' : '\n' ∉ line ++ back := by
      rw [List.mem_append, not_or]
      refine ⟨hlf, ?_⟩
      rcases hback with rfl | rfl <;> decide
    constructor
    · rw [firstNonEmpty, lines_append hlf', List.find?_cons_of_pos (by simpa using htrim back)]
      exact detect_header hd h hrow hback
    · have hself := htrim []
      rw [List.append_nil] at hself
      rw [firstNonEmpty, lines_of_not_mem hlf (List.ne_nil_of_mem hmem),
        List.find?_cons_of_pos (by simpa using hself)]
      have hdetect := detect_header hd h hrow (.inl rfl)
      rwa [List.append_nil] at hdetect
  cases htext with
  | last hrow => exact (hline text [] [] hrow (.inl rfl)).2
  | @lastEnd _ line e hrow he =>
    cases he with
    | lf =>
      have hfirst := (hline line [] [] hrow (.inl rfl)).1
      rwa [List.append_nil] at hfirst
    | crlf =>
      have hfirst := (hline line ['\r'] [] hrow (.inr rfl)).1
      rwa [List.append_assoc] at hfirst
  | @cons _ _ line e rest hrow he hrest =>
    cases he with
    | lf =>
      have hfirst := (hline line [] rest hrow (.inl rfl)).1
      rwa [List.append_nil] at hfirst
    | crlf =>
      have hfirst := (hline line ['\r'] rest hrow (.inr rfl)).1
      rwa [List.append_assoc] at hfirst

end

/-! ## Blank lines -/

section
variable {d : Char} {line e text : List Char}

theorem firstNonEmpty_blankLine (hline : ∀ c ∈ line, isSpace c = true ∧ PlainChar d c)
    (he : LineEnd e) : firstNonEmpty (line ++ (e ++ text)) = firstNonEmpty text := by
  have hblank : ∀ back, (∀ c ∈ back, isSpace c = true) → '\n' ∉ line ++ back →
      firstNonEmpty (line ++ back ++ '\n' :: text) = firstNonEmpty text := by
    intro back hback hlf
    have htrim : trimChars (line ++ back) = [] := by
      refine trimChars_eq_nil.2 fun c hc => ?_
      rcases List.mem_append.1 hc with hc | hc
      · exact (hline c hc).1
      · exact hback c hc
    rw [firstNonEmpty, lines_append hlf, List.find?_cons_of_neg (by simp [htrim])]
    rfl
  have hlf : '\n' ∉ line := fun hc => (hline _ hc).2.2.2.2 rfl
  cases he with
  | lf =>
    have h := hblank [] (by simp) (by simpa using hlf)
    rwa [List.append_nil] at h
  | crlf =>
    have h := hblank ['\r'] (by decide) (by simpa using hlf)
    rwa [List.append_assoc] at h

theorem csvScan_blankLine (hd : Delimiter d)
    (hline : ∀ c ∈ line, isSpace c = true ∧ PlainChar d c) (he : LineEnd e) :
    csvScan d {} (line ++ (e ++ text)) = csvScan d {} text := by
  have hblank : trimCopy (String.ofList line) = "" := by
    rw [trimCopy_eq_empty, String.toList_ofList]
    exact fun c hc => (hline c hc).1
  rw [scan_plain {} rfl (fun c hc => (hline c hc).2), scan_lineEnd _ hd.ne.2.1 hd.ne.2.2 rfl he]
  simp [CsvState.pushField, CsvState.pushRow, hblank]

end

section
variable {d : Char} {headers : List String} {rows : List (List (List Char))} {text : List Char}

theorem detect_table (hd : Delimiter d) (h : CsvHeaders headers)
    {records : List (List (List Char))}
    (htext : TableText d isSpace (charsOf headers :: records) text) :
    detectDelimiter (firstNonEmpty text) = d := by
  generalize hrows : charsOf headers :: records = rows at htext
  induction htext with
  | rows htext =>
    subst hrows
    exact firstNonEmpty_rows h hd htext
  | blankLine hline he htext ih =>
    rw [firstNonEmpty_blankLine hline he]
    exact ih

theorem csvRows_table (hd : Delimiter d) (hwidth : ∀ row ∈ rows, 2 ≤ row.length)
    (htext : TableText d isSpace rows text) :
    ∃ kept, csvRows d text = kept.map cellsOf ∧
      (kept = rows ∨ ∃ last, rows = kept ++ [last] ∧ ∀ cell ∈ last, cell = []) := by
  induction htext with
  | rows htext =>
    rw [csvRows_eq]
    exact finish_rows hd htext hwidth []
  | blankLine hline he htext ih =>
    rw [csvRows_eq, csvScan_blankLine hd hline he]
    exact ih

end

/-! ## The records -/

/-- A record with a cell that is not blank. -/
def hasValue (cells : List String) : Bool := cells.any fun cell => trimCopy cell ≠ ""

def recordOf (headers cells : List String) : CsvRecord :=
  SortedMap.ofList ((headers.map trimCopy).zip cells)

theorem rowCells_eq {headers row : List String} (h : row.length = headers.length) :
    rowCells headers row = row := by
  apply List.ext_getElem
  · simp [rowCells, h]
  · intro i hi hi'
    simp [rowCells, hi']

theorem filterMap_records {headers : List String} {rows : List (List String)}
    (hwidth : ∀ row ∈ rows, row.length = headers.length) :
    (rows.filterMap fun row =>
      let cells := rowCells (headers.map trimCopy) row
      if cells.any fun cell => trimCopy cell ≠ "" then
        some (SortedMap.ofList ((headers.map trimCopy).zip cells))
      else none) = (rows.filter hasValue).map (recordOf headers) := by
  induction rows with
  | nil => rfl
  | cons row rows ih =>
    rw [List.forall_mem_cons] at hwidth
    have hcells : rowCells (headers.map trimCopy) row = row :=
      rowCells_eq (by rw [List.length_map, hwidth.1])
    have hmore := ih hwidth.2
    by_cases hvalue : hasValue row = true
    · rw [List.filter_cons_of_pos hvalue, List.map_cons, ← hmore, List.filterMap_cons_some]
      dsimp only
      rw [hcells]
      exact if_pos hvalue
    · rw [List.filter_cons_of_neg hvalue, ← hmore, List.filterMap_cons_none]
      dsimp only
      rw [hcells]
      exact if_neg hvalue

theorem hasValue_of_empty {row : List (List Char)} (h : ∀ cell ∈ row, cell = []) :
    hasValue (cellsOf row) = false := by
  apply List.any_eq_false.2
  intro cell hcell
  obtain ⟨chars, hchars, rfl⟩ := List.mem_map.1 hcell
  obtain rfl := h chars hchars
  decide

/-- A header under any spelling leads to the cell below it. -/
theorem csvGet_recordOf {headers cells : List String} (h : CsvHeaders headers)
    (hwidth : cells.length = headers.length) {i : Nat} {name cell key : String}
    (hname : headers[i]? = some name) (hcell : cells[i]? = some cell)
    (hkey : csvNormalizeHeaderKey key = csvNormalizeHeaderKey name) :
    csvGet (recordOf headers cells) key = cell := by
  have hlength : (headers.map trimCopy).length = cells.length := by
    rw [List.length_map, hwidth]
  have hkeys : ((headers.map trimCopy).map csvNormalizeHeaderKey).Nodup := by
    rw [List.map_map, show csvNormalizeHeaderKey ∘ trimCopy = csvNormalizeHeaderKey from
      funext csvNormalizeHeaderKey_trim]
    exact h.distinct
  have hnodup : (((headers.map trimCopy).zip cells).map Prod.fst).Nodup := by
    rw [List.map_fst_zip (le_of_eq hlength)]
    exact hkeys.of_map _
  have hentry : ∀ x, x ∈ (recordOf headers cells).entries ↔
      x ∈ (headers.map trimCopy).zip cells := by
    rintro ⟨k, v⟩
    rw [recordOf, SortedMap.mem_ofList, lastValue_of_nodup hnodup]
  -- an entry under a key of the same normal form is the one of this header
  have hsame : ∀ x ∈ (recordOf headers cells).entries,
      csvNormalizeHeaderKey x.1 = csvNormalizeHeaderKey key → x.2 = cell := by
    intro x hx hnormal
    obtain ⟨j, hj⟩ := List.mem_iff_getElem?.1 ((hentry x).1 hx)
    obtain ⟨hj₁, hj₂⟩ := List.getElem?_zip_eq_some.1 hj
    have hnormal' : ((headers.map trimCopy).map csvNormalizeHeaderKey)[j]? =
        ((headers.map trimCopy).map csvNormalizeHeaderKey)[i]? := by
      rw [List.getElem?_map, hj₁, List.getElem?_map, List.getElem?_map, hname]
      simp [hnormal, hkey]
    have hji : j = i := by
      refine (List.getElem?_inj ?_ hkeys).1 hnormal'
      obtain ⟨hlt, -⟩ := List.getElem?_eq_some_iff.1 hj₁
      rwa [List.length_map]
    subst hji
    rw [hcell] at hj₂
    exact (Option.some.inj hj₂).symm
  unfold csvGet
  split
  · rename_i value hfind
    exact hsame (key, value) (SortedMap.find_eq_some.1 hfind) rfl
  · obtain ⟨x, hx⟩ : ∃ x, (recordOf headers cells).entries.find?
        (fun x => csvNormalizeHeaderKey x.1 = csvNormalizeHeaderKey key) = some x := by
      apply Option.isSome_iff_exists.1
      rw [List.find?_isSome]
      refine ⟨(trimCopy name, cell), (hentry _).2 ?_, by simp [hkey]⟩
      apply List.mem_of_getElem?
      exact List.getElem?_zip_eq_some.2 ⟨by rw [List.getElem?_map, hname]; rfl, hcell⟩
    rw [hx]
    exact hsame x (List.mem_of_find?_eq_some hx) (by simpa using List.find?_some hx)

/-- The rows are the headers and records that hold the same values. -/
theorem csvRows_headers {d : Char} (hd : Delimiter d) {headers : List String}
    (hheaders : CsvHeaders headers) {records : List (List String)}
    (hwidth : ∀ cells ∈ records, cells.length = headers.length) {text : List Char}
    (htext : TableText d isSpace ((headers :: records).map charsOf) text) :
    ∃ more, csvRows d text = headers :: more ∧ (∀ row ∈ more, row ∈ records) ∧
      more.filter hasValue = records.filter hasValue := by
  have hrows : ∀ row ∈ (headers :: records).map charsOf, 2 ≤ row.length := by
    intro row hrow
    obtain ⟨cells, hcells, rfl⟩ := List.mem_map.1 hrow
    have htwo := hheaders.two
    rw [charsOf, List.length_map]
    rcases List.mem_cons.1 hcells with rfl | hcells
    · exact htwo
    · rw [hwidth cells hcells]
      exact htwo
  have hback : ((headers :: records).map charsOf).map cellsOf = headers :: records := by
    simp [List.map_map, Function.comp_def]
  obtain ⟨kept, hkept, hall⟩ := csvRows_table hd hrows htext
  rcases hall with rfl | ⟨last, hsplit, hempty⟩
  · exact ⟨records, by rw [hkept, hback], fun row hrow => hrow, rfl⟩
  · rw [hsplit, List.map_append, List.map_singleton] at hback
    cases hmore : kept.map cellsOf with
    | nil =>
      -- the headers are not all empty
      rw [hmore] at hback
      obtain ⟨hlast, -⟩ := List.cons.inj hback
      obtain ⟨name, hname, c, hc, -⟩ := hheaders.exists_char
      rw [← hlast] at hname
      obtain ⟨chars, hchars, rfl⟩ := List.mem_map.1 hname
      obtain rfl := hempty chars hchars
      simp at hc
    | cons first more =>
      rw [hmore] at hback
      obtain ⟨rfl, htail⟩ := List.cons.inj hback
      have hrecords : more ++ [cellsOf last] = records := htail
      refine ⟨more, hkept.trans hmore, fun row hrow => ?_, ?_⟩
      · rw [← hrecords]
        exact List.mem_append_left _ hrow
      · rw [← hrecords, List.filter_append,
          List.filter_cons_of_neg (by simp [hasValue_of_empty hempty]), List.filter_nil,
          List.append_nil]

/-- **A table is read back from every text that RFC 4180 gives for it**: its headers without blanks
around them, the records that hold a value in their order, and each cell under every spelling of its
header. -/
theorem parseCsvTable_rendering {d : Char} (hd : Delimiter d) {headers : List String}
    (hheaders : CsvHeaders headers) {records : List (List String)}
    (hwidth : ∀ cells ∈ records, cells.length = headers.length) {text : List Char}
    (htext : TableText d isSpace ((headers :: records).map charsOf) text) :
    (parseCsvTable (String.ofList text)).headers = headers.map trimCopy ∧
      (parseCsvTable (String.ofList text)).records =
        (records.filter hasValue).map (recordOf headers) ∧
      ∀ cells ∈ records, hasValue cells = true →
        ∀ (i : Nat) (name cell key : String), headers[i]? = some name → cells[i]? = some cell →
          csvNormalizeHeaderKey key = csvNormalizeHeaderKey name →
            csvGet (recordOf headers cells) key = cell := by
  have hdetect : detectDelimiter (firstNonEmpty text) = d := detect_table hd hheaders htext
  obtain ⟨more, hrows, hmem, hfilter⟩ := csvRows_headers hd hheaders hwidth htext
  have htable : parseCsvTable (String.ofList text) =
      { headers := headers.map trimCopy
        records := (records.filter hasValue).map (recordOf headers) } := by
    unfold parseCsvTable
    rw [String.toList_ofList, hdetect, hrows, ← hfilter]
    dsimp only
    rw [← filterMap_records fun row hrow => hwidth row (hmem row hrow)]
  rw [htable]
  exact ⟨rfl, rfl, fun cells hcells _ _ _ _ _ hname hcell hkey =>
    csvGet_recordOf hheaders (hwidth cells hcells) hname hcell hkey⟩

theorem rendering_read :
    let table := parseCsvTable "\r\nName;\"PLC Tag\"\r\nx;\"a;\"\"b\"\n ;"
    table.headers = ["Name", "PLC Tag"] ∧
      table.records = [recordOf ["Name", "PLC Tag"] ["x", "a;\"b"]] ∧
      csvGet (recordOf ["Name", "PLC Tag"] ["x", "a;\"b"]) "plc_tag" = "a;\"b" := by
  have hplain : ∀ cell : List Char, (∀ c ∈ cell, PlainChar ';' c) → FieldText ';' cell cell :=
    fun _ => FieldText.plain
  have hheaders : CsvHeaders ["Name", "PLC Tag"] := by
    constructor <;> decide
  have hfirst : RowText ';' (charsOf ["Name", "PLC Tag"]) "Name;\"PLC Tag\"".toList :=
    .cons (hplain "Name".toList (by decide)) (.last (.quoted "PLC Tag".toList))
  have hsecond : RowText ';' (charsOf ["x", "a;\"b"]) "x;\"a;\"\"b\"".toList :=
    .cons (hplain "x".toList (by decide)) (.last (.quoted "a;\"b".toList))
  have hthird : RowText ';' (charsOf [" ", ""]) " ;".toList :=
    .cons (hplain " ".toList (by decide)) (.last (hplain "".toList (by decide)))
  have htext : TableText ';' isSpace
      ((["Name", "PLC Tag"] :: [["x", "a;\"b"], [" ", ""]]).map charsOf)
      "\r\nName;\"PLC Tag\"\r\nx;\"a;\"\"b\"\n ;".toList :=
    .blankLine (fun c (hc : c ∈ ([] : List Char)) => absurd hc List.not_mem_nil) .crlf
      (.rows (.cons hfirst .crlf (.cons hsecond .lf (.last hthird))))
  obtain ⟨hnames, hrecords, hget⟩ :=
    parseCsvTable_rendering (.inr (.inr rfl)) hheaders (by decide) htext
  rw [String.ofList_toList] at hnames hrecords
  have hkey : csvNormalizeHeaderKey "PLC Tag" = "plc_tag" := by decide
  have hself : csvNormalizeHeaderKey "plc_tag" = "plc_tag" := by decide
  refine ⟨hnames, hrecords, ?_⟩
  exact hget ["x", "a;\"b"] List.mem_cons_self (by decide) 1 "PLC Tag" "a;\"b" "plc_tag" rfl rfl
    (hself.trans hkey.symm)

end OpcBridge.Csv
