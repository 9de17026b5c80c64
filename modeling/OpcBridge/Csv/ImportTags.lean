import OpcBridge.Csv.ImportRow
import OpcBridge.Lib.Keyed

/-!
# Importing tags from CSV

`POST /config/tags/import_csv`: each row deletes the tag of its name, or edits it, made new where
there is none. The file is the value of its text, which is written and read back by the JSON library.

On a file with distinct names a row changes the tag of its name alone (`importRow_done`). So every
name goes through the rows that carry it (`importTable_by_name`), and a second import of the same
table leaves the same tags (`importTable_twice`).
-/

namespace OpcBridge.Csv

open Lib Alarms

section
variable [Floats]

/-! ## Tag files -/

abbrev TagObject := SortedMap String Json

/-- An element of the array of a tag file. -/
inductive TagEntry [Floats]
  | object (tag : TagObject)
  | other (value : Json)

/-- The members of a tag file that the import looks at. -/
structure TagFile [Floats] where
  connectionId : String
  /-- `none` where there is no array. -/
  tags : Option (List TagEntry)

/-- The name of an element, where it has a text for one. -/
def entryName : TagEntry → Option String
  | .object tag =>
    match tag.find "name" with
    | some (.string name) => some name
    | _ => none
  | .other _ => none

/-- `value("name", "")` does not throw. -/
def TagEntry.Readable : TagEntry → Prop
  | .object tag => ∀ value, tag.find "name" = some value → ∃ name, value = .string name
  | .other _ => True

/-- Names are texts and distinct. -/
structure DistinctNames (tags : List TagEntry) : Prop where
  readable : ∀ entry ∈ tags, entry.Readable
  keyed : Keyed entryName tags

/-! ## The loop -/

/-- The index of the tag with the name, the length where there is none; `none` where a name is not a
text. -/
def locate (name : String) : List TagEntry → Option Nat
  | [] => some 0
  | .other _ :: tags => (locate name tags).map (· + 1)
  | .object tag :: tags =>
    match tag.find "name" with
    | none => if "" = name then some 0 else (locate name tags).map (· + 1)
    | some (.string s) => if s = name then some 0 else (locate name tags).map (· + 1)
    | some _ => none

structure ImportState [Floats] where
  tags : List TagEntry
  upserts : Nat := 0
  created : Nat := 0
  updated : Nat := 0
  deleted : Nat := 0
  skipped : Nat := 0

/-- The tag that a row starts from. -/
def baseOf (tags : List TagEntry) (idx : Nat) (name : String) : TagObject :=
  match tags[idx]? with
  | some (.object tag) => tag
  | some (.other _) => SortedMap.ofList []
  | none => SortedMap.ofList [("name", .string name)]

def rowName (row : CsvRecord) : String := trimCopy (csvGet row "name")

variable (toInt : F64 → Int) (historian : Bool)

def importRow (s : ImportState) (row : CsvRecord) : Option ImportState :=
  if rowName row = "" then some { s with skipped := s.skipped + 1 }
  else
    match locate (rowName row) s.tags with
    | none => none
    | some idx =>
      if csvIsDeleteAction (csvGet row "action") then
        if idx < s.tags.length then
          some { s with tags := s.tags.eraseIdx idx, deleted := s.deleted + 1 }
        else some s
      else
        let tag := (baseOf s.tags idx (rowName row)).edited (rowEdits toInt row historian)
        if idx < s.tags.length then
          some { s with
            tags := s.tags.set idx (.object tag), updated := s.updated + 1
            upserts := s.upserts + 1 }
        else
          some { s with
            tags := s.tags ++ [.object tag], created := s.created + 1, upserts := s.upserts + 1 }

def importRows : ImportState → List CsvRecord → Option ImportState
  | s, [] => some s
  | s, row :: rows => (importRow toInt historian s row).bind fun s => importRows s rows

/-- The request for a connection over its tag file, `none` where there is no file; without an answer
it fails. -/
def importTable (connectionId : String) (file : Option TagFile) (table : CsvTable) :
    Option ImportState :=
  if table.records = [] then none
  else
    match file with
    | none => importRows toInt (hasHistorianColumns table) { tags := [] } table.records
    | some file =>
      if file.connectionId ≠ connectionId then none
      else importRows toInt (hasHistorianColumns table) { tags := file.tags.getD [] } table.records

/-- The file that the request writes. -/
def ImportState.file (s : ImportState) (connectionId : String) : TagFile where
  connectionId := connectionId
  tags := some s.tags

/-! ## Names -/

/-- The tag of a name. -/
def tagOf (tags : List TagEntry) (name : String) : Option TagObject :=
  match Keyed.lookup entryName tags name with
  | some (.object tag) => some tag
  | _ => none

/-- What a row asks for a name. -/
def ordersOf (row : CsvRecord) (name : String) : List (Option (List TagEdit)) :=
  if rowName row = name ∧ name ≠ "" then
    [if csvIsDeleteAction (csvGet row "action") then none else some (rowEdits toInt row historian)]
  else []

/-- A tag after the orders for its name. -/
def revised (name : String) (orders : List (Option (List TagEdit))) (tag : Option TagObject) :
    Option TagObject :=
  orders.foldl (revise (SortedMap.ofList [("name", .string name)])) tag

/-- No row of the table has the name of the element. -/
def unnamed (rows : List CsvRecord) (entry : TagEntry) : Bool :=
  rows.all fun row => rowName row = "" || entryName entry ≠ some (rowName row)

/-- Where a tag of the name stands, or would be appended. -/
structure Located (tags : List TagEntry) (name : String) (idx : Nat) : Prop where
  lookup : tags[idx]? = Keyed.lookup entryName tags name
  drop : tags.eraseIdx idx = Keyed.drop entryName tags name
  put : ∀ entry, (if idx < tags.length then tags.set idx entry else tags ++ [entry]) =
    Keyed.put entryName tags name entry

theorem Located.here {entry : TagEntry} {tags : List TagEntry} {name : String}
    (h : entryName entry = some name) : Located (entry :: tags) name 0 where
  lookup := by rw [Keyed.lookup_cons, if_pos h]; rfl
  drop := by rw [Keyed.drop, if_pos h]; rfl
  put := fun e => by rw [Keyed.put, if_pos h, if_pos (by simp)]; rfl

theorem Located.there {entry : TagEntry} {tags : List TagEntry} {name : String} {idx : Nat}
    (h : entryName entry ≠ some name) (hidx : Located tags name idx) :
    Located (entry :: tags) name (idx + 1) where
  lookup := by rw [Keyed.lookup_cons, if_neg h, List.getElem?_cons_succ, hidx.lookup]
  drop := by rw [Keyed.drop, if_neg h, List.eraseIdx_cons_succ, hidx.drop]
  put := fun e => by
    rw [Keyed.put, if_neg h, ← hidx.put]
    simp only [List.length_cons, Nat.add_lt_add_iff_right, List.set_cons_succ, List.cons_append]
    split <;> rfl

theorem locate_spec {tags : List TagEntry} {name : String} (hname : name ≠ "")
    (h : ∀ entry ∈ tags, entry.Readable) : ∃ idx, locate name tags = some idx ∧
      Located tags name idx := by
  induction tags with
  | nil => exact ⟨0, rfl, ⟨rfl, rfl, fun _ => rfl⟩⟩
  | cons entry tags ih =>
    obtain ⟨idx, hlocate, hidx⟩ := ih fun e he => h e (List.mem_cons_of_mem _ he)
    have hlater : entryName entry ≠ some name → ∃ i, (locate name tags).map (· + 1) = some i ∧
        Located (entry :: tags) name i := fun hne => ⟨idx + 1, by rw [hlocate]; rfl, hidx.there hne⟩
    cases entry with
    | other value => exact hlater (by simp [entryName])
    | object tag =>
      have hread := h _ List.mem_cons_self
      unfold locate
      cases hfind : tag.find "name" with
      | none =>
        rw [if_neg (Ne.symm hname)]
        exact hlater (by simp [entryName, hfind])
      | some value =>
        obtain ⟨text, rfl⟩ := hread value hfind
        dsimp only
        split
        · rename_i heq
          exact ⟨0, rfl, .here (by rw [entryName, hfind, heq])⟩
        · rename_i hne
          exact hlater (by simpa [entryName, hfind] using hne)

theorem baseOf_name {tags : List TagEntry} {name : String} {idx : Nat} (h : Located tags name idx) :
    baseOf tags idx name = ((tagOf tags name).getD (SortedMap.ofList [("name", .string name)])) ∧
      (baseOf tags idx name).find "name" = some (.string name) := by
  unfold baseOf tagOf
  rw [h.lookup]
  cases hlookup : Keyed.lookup entryName tags name with
  | none => exact ⟨rfl, by rw [SortedMap.find_ofList]; rfl⟩
  | some entry =>
    have hkey := (Keyed.mem_of_lookup hlookup).2
    cases entry with
    | other value => cases hkey
    | object tag =>
      refine ⟨rfl, ?_⟩
      dsimp only [entryName] at hkey
      split at hkey
      · rename_i hfind
        rw [hfind, Option.some.inj hkey]
      · cases hkey

/-- An edited tag keeps its name. -/
theorem edited_name {tag : TagObject} {name : String} (h : tag.find "name" = some (.string name))
    (row : CsvRecord) :
    entryName (.object (tag.edited (rowEdits toInt row historian))) = some name := by
  have hnone : lastValue "name" (rowEdits toInt row historian) = none := by
    rw [lastValue_eq_none]
    intro hmem
    obtain ⟨e, he, hname⟩ := List.mem_map.1 hmem
    exact keepName_rowEdits toInt row historian e he hname
  rw [entryName, SortedMap.find_edited, hnone, Option.getD_none, h]

theorem readable_of_name {entry : TagEntry} {name : String} (h : entryName entry = some name) :
    entry.Readable := by
  cases entry with
  | other value => trivial
  | object tag =>
    intro value hvalue
    simp only [entryName, hvalue] at h
    split at h
    · exact ⟨_, Option.some.inj ‹_›⟩
    · cases h

/-! ## One row -/

/-- What rows ask for a name, in their order. -/
def ordersFor (rows : List CsvRecord) (name : String) : List (Option (List TagEdit)) :=
  rows.flatMap fun row => ordersOf toInt historian row name

/-- The counters add up. -/
structure Tallied (s s' : ImportState) : Prop where
  upserts : s'.upserts + s.created + s.updated = s.upserts + s'.created + s'.updated
  total : s'.tags.length + s'.deleted + s.created = s.tags.length + s.deleted + s'.created

/-- What rows do on a file with distinct names. -/
structure RowsDone (rows : List CsvRecord) (s s' : ImportState) : Prop where
  names : DistinctNames s'.tags
  tag : ∀ name, tagOf s'.tags name =
    revised name (ordersFor toInt historian rows name) (tagOf s.tags name)
  others : ∀ table, rows ⊆ table → s'.tags.filter (unnamed table) = s.tags.filter (unnamed table)
  tallied : Tallied s s'

variable {toInt historian}

theorem unnamed_of_name {rows : List CsvRecord} {row : CsvRecord} (h : row ∈ rows)
    (hname : rowName row ≠ "") (entry : TagEntry) (hentry : entryName entry = some (rowName row)) :
    unnamed rows entry = false := by
  rw [← Bool.not_eq_true, unnamed, List.all_eq_true]
  intro hall
  simpa [hname, hentry] using hall row h

section
variable {s s' : ImportState} (h : DistinctNames s.tags) {row : CsvRecord}
  (hname : rowName row ≠ "") (htallied : Tallied s s') {idx : Nat}
  (hidx : Located s.tags (rowName row) idx)
include h hname htallied hidx

theorem delete_done (hdelete : csvIsDeleteAction (csvGet row "action") = true)
    (htags : s'.tags = Keyed.drop entryName s.tags (rowName row)) :
    RowsDone toInt historian [row] s s' where
  names := by
    rw [htags]
    refine ⟨fun e he => ?_, Keyed.drop_keyed h.keyed⟩
    rw [← hidx.drop] at he
    exact h.readable e (List.mem_of_mem_eraseIdx he)
  tag name := by
    unfold tagOf
    rw [htags, Keyed.lookup_drop h.keyed, ordersFor, List.flatMap_singleton, ordersOf]
    by_cases heq : rowName row = name
    · rw [if_pos heq, if_pos ⟨heq, heq ▸ hname⟩, if_pos hdelete]
      rfl
    · rw [if_neg heq, if_neg fun hx => heq hx.1]
      rfl
  others table hsub :=
    htags ▸ Keyed.filter_drop (unnamed_of_name (hsub List.mem_cons_self) hname)
  tallied := htallied

theorem edit_done (hedit : ¬ csvIsDeleteAction (csvGet row "action") = true)
    (htags : s'.tags = Keyed.put entryName s.tags (rowName row) (.object
      ((baseOf s.tags idx (rowName row)).edited (rowEdits toInt row historian)))) :
    RowsDone toInt historian [row] s s' := by
  obtain ⟨hbase, hfind⟩ := baseOf_name hidx
  have hkey := edited_name toInt historian hfind row
  refine ⟨?_, fun name => ?_, fun table hsub => ?_, htallied⟩
  · rw [htags]
    refine ⟨fun e he => ?_, Keyed.put_keyed h.keyed hkey⟩
    rw [← hidx.put] at he
    split at he
    · exact (List.mem_or_eq_of_mem_set he).elim (h.readable e) (· ▸ readable_of_name hkey)
    · rcases List.mem_append.1 he with he | he
      · exact h.readable e he
      · exact List.mem_singleton.1 he ▸ readable_of_name hkey
  · unfold tagOf
    rw [htags, Keyed.lookup_put hkey, ordersFor, List.flatMap_singleton, ordersOf]
    by_cases heq : rowName row = name
    · rw [if_pos heq, if_pos ⟨heq, heq ▸ hname⟩, if_neg hedit, hbase]
      subst heq
      rfl
    · rw [if_neg heq, if_neg fun hx => heq hx.1]
      rfl
  · rw [htags]
    exact Keyed.filter_put (unnamed_of_name (hsub List.mem_cons_self) hname) hkey

end

theorem importRow_done {s : ImportState} (h : DistinctNames s.tags) (row : CsvRecord) :
    ∃ s', importRow toInt historian s row = some s' ∧ RowsDone toInt historian [row] s s' := by
  by_cases hname : rowName row = ""
  · refine ⟨{ s with skipped := s.skipped + 1 }, by rw [importRow, if_pos hname], h, fun name => ?_,
      fun _ _ => rfl, rfl, rfl⟩
    rw [ordersFor, List.flatMap_singleton, ordersOf,
      if_neg fun hx => hx.2 (hx.1.symm.trans hname)]
    rfl
  · obtain ⟨idx, hlocate, hidx⟩ := locate_spec hname h.readable
    have hdrop := hidx.drop
    unfold importRow
    rw [if_neg hname, hlocate]
    dsimp only
    split
    · rename_i hdelete
      split
      · rename_i hlt
        refine ⟨_, rfl, delete_done h hname ⟨rfl, ?_⟩ hidx hdelete hidx.drop⟩
        have := List.length_eraseIdx_of_lt hlt
        dsimp only
        omega
      · rename_i hge
        rw [List.eraseIdx_of_length_le (by omega)] at hdrop
        exact ⟨_, rfl, delete_done h hname ⟨rfl, rfl⟩ hidx hdelete hdrop⟩
    · rename_i hedit
      have hput := hidx.put (.object
        ((baseOf s.tags idx (rowName row)).edited (rowEdits toInt row historian)))
      split
      · rename_i hlt
        rw [if_pos hlt] at hput
        refine ⟨_, rfl, edit_done h hname ⟨?_, by simp⟩ hidx hedit hput⟩
        dsimp only
        omega
      · rename_i hge
        rw [if_neg hge] at hput
        refine ⟨_, rfl, edit_done h hname ⟨?_, ?_⟩ hidx hedit hput⟩
        · dsimp only
          omega
        · simp
          omega

/-! ## The table -/

theorem RowsDone.trans {rows rows' : List CsvRecord} {s t s' : ImportState}
    (h : RowsDone toInt historian rows s t) (h' : RowsDone toInt historian rows' t s') :
    RowsDone toInt historian (rows ++ rows') s s' where
  names := h'.names
  tag name := by
    have happend : ordersFor toInt historian (rows ++ rows') name =
      ordersFor toInt historian rows name ++ ordersFor toInt historian rows' name :=
        List.flatMap_append
    rw [h'.tag, h.tag, happend]
    exact List.foldl_append.symm
  others table hsub := (h'.others table fun _ hr => hsub (List.mem_append_right _ hr)).trans
    (h.others table fun _ hr => hsub (List.mem_append_left _ hr))
  tallied := by
    obtain ⟨hupserts, htotal⟩ := h.tallied
    obtain ⟨hupserts', htotal'⟩ := h'.tallied
    exact ⟨by omega, by omega⟩

theorem importRows_done {s : ImportState} (h : DistinctNames s.tags) (rows : List CsvRecord) :
    ∃ s', importRows toInt historian s rows = some s' ∧ RowsDone toInt historian rows s s' := by
  induction rows generalizing s with
  | nil => exact ⟨s, rfl, h, fun _ => rfl, fun _ _ => rfl, rfl, rfl⟩
  | cons row rows ih =>
    obtain ⟨t, hrow, ht⟩ := importRow_done h row
    obtain ⟨s', hrows, hs'⟩ := ih ht.names
    exact ⟨s', by rw [importRows, hrow]; exact hrows, ht.trans hs'⟩

theorem lookup_eq_tagOf (tags : List TagEntry) (name : String) :
    Keyed.lookup entryName tags name = (tagOf tags name).map .object := by
  unfold tagOf
  cases h : Keyed.lookup entryName tags name with
  | none => rfl
  | some entry =>
    cases entry with
    | object tag => rfl
    | other value => cases (Keyed.mem_of_lookup h).2

/-- The tags that an import starts from. -/
def oldTags (file : Option TagFile) : List TagEntry :=
  (file.bind TagFile.tags).getD []

section
variable (toInt) {connectionId : String} {file : Option TagFile} {table : CsvTable}
  (hnames : DistinctNames (oldTags file)) (hid : ∀ f ∈ file, f.connectionId = connectionId)
  (hrows : table.records ≠ [])
include hnames hid hrows

theorem importTable_done : ∃ s, importTable toInt connectionId file table = some s ∧
    RowsDone toInt (hasHistorianColumns table) table.records { tags := oldTags file } s := by
  obtain ⟨s, hs, hdone⟩ := importRows_done (s := { tags := oldTags file }) hnames
    table.records
  refine ⟨s, ?_, hdone⟩
  unfold importTable
  rw [if_neg hrows]
  cases file with
  | none => exact hs
  | some file =>
    dsimp only
    rw [if_neg (not_not.2 (hid file rfl))]
    exact hs

/-- **An import works name by name.** On a file with distinct names it succeeds. The tag of a name
becomes what the rows of that name make of it, in their order, whatever the other rows say; tags
that no row names keep their order, and the counters say what was done. -/
theorem importTable_by_name : ∃ s, importTable toInt connectionId file table = some s ∧
    DistinctNames s.tags ∧
    (∀ name, tagOf s.tags name = revised name
      (ordersFor toInt (hasHistorianColumns table) table.records name)
      (tagOf (oldTags file) name)) ∧
    s.tags.filter (unnamed table.records) = (oldTags file).filter (unnamed table.records) ∧
    s.upserts = s.created + s.updated ∧
    s.tags.length + s.deleted = (oldTags file).length + s.created := by
  obtain ⟨s, hs, hdone⟩ := importTable_done toInt hnames hid hrows
  obtain ⟨hupserts, htotal⟩ := hdone.tallied
  dsimp only at hupserts htotal
  exact ⟨s, hs, hdone.names, hdone.tag, hdone.others _ fun _ h => h, by omega, by omega⟩

/-- **Importing a table twice is importing it once**: the second import succeeds and leaves the same
tags. -/
theorem importTable_twice : ∃ s s', importTable toInt connectionId file table = some s ∧
    importTable toInt connectionId (some (s.file connectionId)) table = some s' ∧
    ∀ entry, entry ∈ s'.tags ↔ entry ∈ s.tags := by
  obtain ⟨s, hs, hdone⟩ := importTable_done toInt hnames hid hrows
  have hnames' : DistinctNames (oldTags (some (s.file connectionId))) := hdone.names
  have hid' : ∀ f ∈ some (s.file connectionId), f.connectionId = connectionId := by
    intro f hf
    cases hf
    rfl
  obtain ⟨s', hs', hdone'⟩ := importTable_done toInt hnames' hid' hrows
  refine ⟨s, s', hs, hs', Keyed.mem_congr hdone'.names.keyed hdone.names.keyed (fun name => ?_)
    fun entry hentry => ?_⟩
  · rw [lookup_eq_tagOf, lookup_eq_tagOf, hdone'.tag]
    refine congrArg _ ?_
    show revised name _ (tagOf s.tags name) = tagOf s.tags name
    rw [hdone.tag]
    exact foldl_revise_twice _ _ _
  · have hfree : unnamed table.records entry = true := by simp [unnamed, hentry]
    have hsame := hdone'.others table.records fun _ h => h
    rw [← List.mem_filter.trans (and_iff_left hfree), hsame]
    exact List.mem_filter.trans (and_iff_left hfree)

end

end

section
attribute [local instance] intFloats

/-- A tag that is made, deleted and made again, beside another one. -/
def levelTable : CsvTable :=
  parseCsvTable "name,action,datatype\nLevel,,int16\nMotor,,bool\nLevel,delete,\nLevel,,float32\n"

theorem distinct_nil : DistinctNames (oldTags none) := ⟨nofun, List.nodup_nil⟩

theorem id_none : ∀ f ∈ (none : Option TagFile), f.connectionId = "PLC" := nofun

theorem levels_by_name : ∃ s, importTable id "PLC" none levelTable = some s ∧
    s.upserts = s.created + s.updated ∧ s.tags.length + s.deleted = 0 + s.created := by
  have hrows : levelTable.records ≠ [] := by decide +kernel
  exact (importTable_by_name id distinct_nil id_none hrows).imp fun _ h => ⟨h.1, h.2.2.2.2⟩

theorem levels_twice : ∃ s s', importTable id "PLC" none levelTable = some s ∧
    importTable id "PLC" (some (s.file "PLC")) levelTable = some s' ∧
    ∀ entry, entry ∈ s'.tags ↔ entry ∈ s.tags :=
  importTable_twice id distinct_nil id_none (by decide +kernel)

end

end OpcBridge.Csv
