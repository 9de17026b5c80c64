import OpcBridge.Alarms.Loaders
import Mathlib.Data.List.Induction
import Mathlib.Data.List.Nodup

/-!
# The columns of a log job

`parse_job_columns` and `log_insert_sql` of `opcbridge-logger/opcbridge_logger.cpp`: the settings
say which of the eleven source fields are logged to which column, and which columns have a fixed value.
`mapFields` and `checkStatic` are the two loops over the settings; both keep the set of the columns
so far, without case, and the insert statement then names each column once (`insert_sound`).
-/

namespace OpcBridge.Logger

open Alarms (Json JsonLib ok_of_bind)

/-! ## Names -/

def logSourceFields : List String :=
  ["job_name", "timestamp_ms", "timestamp_dt", "connection_id", "tag_name", "tag_description",
    "datatype", "value_numeric", "value_string", "quality", "created_at"]

/-- `[A-Za-z_][A-Za-z0-9_]*` with at most 64 characters. -/
def logIdentifierValid (value : String) : Bool :=
  value.length ≤ 64 &&
    match value.toList with
    | [] => false
    | c :: cs => (isAlpha c || c == '_') && cs.all fun c => isAlnum c || c == '_'

/-- Letters, digits and underscores, not too many. -/
structure Identifier (name : String) : Prop where
  chars : ∀ c ∈ name.toList, isAlnum c = true ∨ c = '_'
  length : name.length ≤ 64
  ne_empty : name ≠ ""

theorem identifier_of_valid {name : String} (h : logIdentifierValid name = true) :
    Identifier name := by
  unfold logIdentifierValid at h
  rw [Bool.and_eq_true, decide_eq_true_eq] at h
  obtain ⟨hlength, hchars⟩ := h
  split at hchars
  · cases hchars
  · rename_i c cs heq
    rw [Bool.and_eq_true, Bool.or_eq_true, beq_iff_eq] at hchars
    refine ⟨fun d hd => ?_, hlength, ?_⟩
    · rw [heq, List.mem_cons] at hd
      rcases hd with rfl | hd
      · refine hchars.1.imp_left fun halpha => ?_
        simp [isAlnum, halpha]
      · have hd := List.all_eq_true.1 hchars.2 d hd
        simpa using hd
    · rintro rfl
      cases heq

theorem sourceFields_valid : ∀ field ∈ logSourceFields, logIdentifierValid field = true := by
  decide

theorem sourceFields_lower : logSourceFields.map toLowerCopy = logSourceFields := by decide +kernel

theorem sourceFields_nodup : logSourceFields.Nodup := by decide

/-! ## Settings -/

section
variable [Floats]

structure LogColumns where
  table : String := "tag_log"
  customColumns : Bool := false
  fieldMap : List (String × String) := []
  staticFields : List (String × Json) := []

/-- The fields of a member. -/
def settingFields (config : Json) (key : String) : List (String × Json) :=
  match config.find key with
  | some (.object fields) => fields
  | _ => []

/-- `is_primitive` -/
def isPrimitive : Json → Bool
  | .array _ => false
  | .object _ => false
  | _ => true

/-- The loop over `field_map`: the columns of the fields, and all columns so far. -/
def mapFields : List (String × Json) → List String →
    Except String (List (String × String) × List String)
  | [], destinations => .ok ([], destinations)
  | (source, .string destination) :: rest, destinations =>
    if source ∉ logSourceFields ∨ logIdentifierValid destination = false then
      .error ("Invalid logger field mapping: " ++ source)
    else if toLowerCopy destination ∈ destinations then
      .error ("Duplicate logger destination column: " ++ destination)
    else
      (mapFields rest (toLowerCopy destination :: destinations)).map fun x =>
        ((source, destination) :: x.1, x.2)
  | (source, _) :: _, _ => .error ("Invalid logger field mapping: " ++ source)

/-- The loop over `static_fields`. -/
def checkStatic : List (String × Json) → List String → Except String Unit
  | [], _ => .ok ()
  | (column, value) :: rest, destinations =>
    if logIdentifierValid column = false ∨ toLowerCopy column ∈ destinations ∨
        isPrimitive value = false then
      .error ("Invalid or duplicate static column: " ++ column)
    else checkStatic rest (toLowerCopy column :: destinations)

/-- An exception of the library is an error here as well. -/
def parseJobColumns (config : Json) (table : String) : Except String LogColumns :=
  if logIdentifierValid table = false then .error "Invalid logger table name"
  else do
    let mapping ← config.value .ok "field_map" (.object [])
    let constants ← config.value .ok "static_fields" (.object [])
    match mapping, constants with
    | .object mapping, .object constants =>
      let customColumns := config.contains "field_map"
      let (fieldMap, destinations) ←
        mapFields mapping (if customColumns then [] else logSourceFields)
      checkStatic constants destinations
      if customColumns ∧ mapping.isEmpty ∧ constants.isEmpty then
        .error "Custom column mapping must include at least one column"
      else .ok { table, customColumns, fieldMap, staticFields := constants }
    | _, _ => .error "field_map and static_fields must be objects"

/-! ## The statement -/

variable [JsonLib]

/-- The encoded value of a fixed column; `literal` quotes a string. -/
def staticLiteral (literal : String → String) : Json → String
  | .null => "NULL"
  | .string s => literal s
  | .bool b => if b then "1" else "0"
  | v => JsonLib.dump v

/-- The columns of the source fields. -/
def LogColumns.mapped (job : LogColumns) (values : List String) : List (String × String) :=
  (logSourceFields.zip values).filterMap fun x =>
    if job.customColumns then (job.fieldMap.lookup x.1).map fun column => (column, x.2)
    else some x

/-- What is appended, column by column. -/
def LogColumns.appended (job : LogColumns) (literal : String → String) (values : List String) :
    List (String × String) :=
  job.mapped values ++ job.staticFields.map fun x => (x.1, staticLiteral literal x.2)

section
omit [Floats] [JsonLib]

def backquoted (name : String) : String := "`" ++ name ++ "`"

/-- `append` -/
def appendColumn (text : String × String) (x : String × String) : String × String :=
  let comma := if text.1 = "" then "" else ","
  (text.1 ++ comma ++ backquoted x.1, text.2 ++ comma ++ x.2)

end

/-- `log_insert_sql` -/
def logInsertSql (literal : String → String) (job : LogColumns) (values : List String) : String :=
  let text := (job.appended literal values).foldl appendColumn ("", "")
  "INSERT INTO `" ++ job.table ++ "` (" ++ text.1 ++ ") VALUES (" ++ text.2 ++ ");"

/-! ## The text of the statement -/

section
omit [Floats] [JsonLib]

/-- Texts with commas between them. -/
def commas : List String → String
  | [] => ""
  | [x] => x
  | x :: xs => x ++ "," ++ commas xs

theorem commas_snoc {xs : List String} (hne : xs ≠ []) (y : String) :
    commas (xs ++ [y]) = commas xs ++ "," ++ y := by
  induction xs with
  | nil => exact absurd rfl hne
  | cons x xs ih =>
    cases xs with
    | nil => rfl
    | cons x' xs =>
      rw [List.cons_append, List.cons_append]
      show x ++ "," ++ commas (x' :: xs ++ [y]) = x ++ "," ++ commas (x' :: xs) ++ "," ++ y
      rw [ih (by simp)]
      simp only [String.append_assoc]

theorem backquoted_toList (name : String) :
    (backquoted name).toList = '`' :: (name.toList ++ ['`']) := by
  rw [backquoted, String.toList_append, String.toList_append]
  rfl

theorem backquoted_ne (name : String) : backquoted name ≠ "" := by
  intro h
  have hlist := backquoted_toList name
  rw [h] at hlist
  cases hlist

theorem commas_ne {names : List String} (hne : names ≠ []) :
    commas (names.map backquoted) ≠ "" := by
  cases names with
  | nil => exact absurd rfl hne
  | cons name names =>
    cases names with
    | nil => exact backquoted_ne name
    | cons name' names =>
      intro h
      have hlist := congrArg String.toList h
      rw [List.map_cons, List.map_cons, commas, String.toList_append, String.toList_append,
        backquoted_toList] at hlist
      · cases hlist
      · simp

theorem foldl_appendColumn (pairs : List (String × String)) :
    pairs.foldl appendColumn ("", "") =
      (commas ((pairs.map Prod.fst).map backquoted), commas (pairs.map Prod.snd)) := by
  induction pairs using List.reverseRecOn with
  | nil => rfl
  | append_singleton pairs x ih =>
    rw [List.foldl_append, ih, List.map_append, List.map_append, List.map_append]
    by_cases hne : pairs = []
    · subst hne
      simp [appendColumn, commas]
    · have hcolumns : (pairs.map Prod.fst).map backquoted ≠ [] := by simpa using hne
      have hvalues : pairs.map Prod.snd ≠ [] := by simpa using hne
      have hcomma : commas ((pairs.map Prod.fst).map backquoted) ≠ "" :=
        commas_ne (by simpa using hne)
      simp only [List.map_cons, List.map_nil, commas_snoc hcolumns, commas_snoc hvalues,
        List.foldl_cons, List.foldl_nil, appendColumn]
      rw [if_neg hcomma]

end

/-! ## The two loops -/

section
omit [JsonLib]

/-- What the loop over `field_map` accepts. -/
structure MapOk (fields : List (String × Json)) (before : List String)
    (fieldMap : List (String × String)) (after : List String) : Prop where
  fields : fields = fieldMap.map fun x => (x.1, .string x.2)
  sources : ∀ x ∈ fieldMap, x.1 ∈ logSourceFields
  valid : ∀ x ∈ fieldMap, logIdentifierValid x.2 = true
  nodup : (fieldMap.map fun x => toLowerCopy x.2).Nodup
  fresh : ∀ x ∈ fieldMap, toLowerCopy x.2 ∉ before
  after : ∀ name, name ∈ after ↔ name ∈ before ∨ ∃ x ∈ fieldMap, name = toLowerCopy x.2

theorem mapFields_ok {fields : List (String × Json)} {before after : List String}
    {fieldMap : List (String × String)} (h : mapFields fields before = .ok (fieldMap, after)) :
    MapOk fields before fieldMap after := by
  induction fields generalizing before fieldMap after with
  | nil =>
    obtain ⟨rfl, rfl⟩ := Prod.mk.inj (Except.ok.inj h)
    exact ⟨rfl, by simp, by simp, by simp, by simp, by simp⟩
  | cons field fields ih =>
    obtain ⟨source, value⟩ := field
    cases value with
    | string destination =>
      rw [mapFields] at h
      split at h
      · cases h
      · rename_i hvalid
        rw [not_or, not_not, Bool.not_eq_false] at hvalid
        split at h
        · cases h
        · rename_i hfresh
          cases hrest : mapFields fields (toLowerCopy destination :: before) with
          | error e =>
            rw [hrest] at h
            cases h
          | ok x =>
            rw [hrest] at h
            obtain ⟨rfl, rfl⟩ := Prod.mk.inj (Except.ok.inj h)
            have hok := ih hrest
            refine ⟨by rw [hok.fields]; rfl, ?_, ?_, ?_, ?_, fun name => ?_⟩
            · exact List.forall_mem_cons.2 ⟨hvalid.1, hok.sources⟩
            · exact List.forall_mem_cons.2 ⟨hvalid.2, hok.valid⟩
            · rw [List.map_cons, List.nodup_cons]
              refine ⟨fun hmem => ?_, hok.nodup⟩
              obtain ⟨x, hx, heq⟩ := List.mem_map.1 hmem
              refine hok.fresh x hx ?_
              rw [heq]
              exact List.mem_cons_self
            · refine List.forall_mem_cons.2 ⟨hfresh, fun x hx hmem => ?_⟩
              exact hok.fresh x hx (List.mem_cons_of_mem _ hmem)
            · rw [hok.after, List.mem_cons]
              simp only [List.mem_cons, exists_eq_or_imp]
              tauto
    | _ => cases h

/-- What the loop over `static_fields` accepts. -/
structure StaticOk (fields : List (String × Json)) (before : List String) : Prop where
  valid : ∀ x ∈ fields, logIdentifierValid x.1 = true
  nodup : (fields.map fun x => toLowerCopy x.1).Nodup
  fresh : ∀ x ∈ fields, toLowerCopy x.1 ∉ before

theorem checkStatic_ok {fields : List (String × Json)} {before : List String}
    (h : checkStatic fields before = .ok ()) : StaticOk fields before := by
  induction fields generalizing before with
  | nil => exact ⟨by simp, by simp, by simp⟩
  | cons field fields ih =>
    obtain ⟨column, value⟩ := field
    rw [checkStatic] at h
    split at h
    · cases h
    · rename_i hvalid
      rw [not_or, not_or, Bool.not_eq_false] at hvalid
      have hok := ih h
      refine ⟨List.forall_mem_cons.2 ⟨hvalid.1, hok.valid⟩, ?_, ?_⟩
      · rw [List.map_cons, List.nodup_cons]
        refine ⟨fun hmem => ?_, hok.nodup⟩
        obtain ⟨x, hx, heq⟩ := List.mem_map.1 hmem
        refine hok.fresh x hx ?_
        rw [heq]
        exact List.mem_cons_self
      · refine List.forall_mem_cons.2 ⟨hvalid.2.1, fun x hx hmem => ?_⟩
        exact hok.fresh x hx (List.mem_cons_of_mem _ hmem)

/-- What is accepted as a whole. -/
structure ColumnsOk (config : Json) (table : String) (job : LogColumns) : Prop where
  valid : logIdentifierValid table = true
  table_eq : job.table = table
  custom : job.customColumns = config.contains "field_map"
  loops : ∃ after, MapOk (settingFields config "field_map")
      (if job.customColumns then [] else logSourceFields) job.fieldMap after ∧
    StaticOk job.staticFields after
  constants : job.staticFields = settingFields config "static_fields"
  some_column : job.customColumns = true → job.fieldMap ≠ [] ∨ job.staticFields ≠ []

theorem value_object {config : Json} {key : String} {fields : List (String × Json)}
    (h : config.value .ok key (.object []) = .ok (.object fields)) :
    fields = settingFields config key := by
  unfold Json.value at h
  unfold settingFields
  split at h
  · split at h
    · rename_i v hv
      rw [hv, Except.ok.inj h]
    · rename_i hv
      rw [hv]
      cases h
      rfl
  · cases h

theorem parseJobColumns_ok {config : Json} {table : String} {job : LogColumns}
    (h : parseJobColumns config table = .ok job) : ColumnsOk config table job := by
  unfold parseJobColumns at h
  split at h
  · cases h
  · rename_i hvalid
    obtain ⟨mapping, hmapping, h⟩ := ok_of_bind h
    obtain ⟨constants, hconstants, h⟩ := ok_of_bind h
    split at h
    · obtain ⟨⟨fieldMap, after⟩, hmap, h⟩ := ok_of_bind h
      obtain ⟨⟨⟩, hstatic, h⟩ := ok_of_bind h
      split at h
      · cases h
      · rename_i hsome
        obtain rfl := Except.ok.inj h
        have hok := mapFields_ok hmap
        rw [value_object hmapping] at hok
        refine ⟨by simpa using hvalid, rfl, rfl, ⟨after, hok, checkStatic_ok hstatic⟩,
          value_object hconstants, fun hcustom => ?_⟩
        by_contra hnone
        rw [not_or, not_not, not_not] at hnone
        refine hsome ⟨hcustom, ?_, by simpa using hnone.2⟩
        have hfields := hok.fields
        rw [← value_object hmapping, show fieldMap = [] from hnone.1] at hfields
        simpa using hfields
    · cases h

end

/-! ## Every statement -/

/-- The columns and values of a statement are those that the settings ask for. -/
structure SoundInsert (config : Json) (table : String) (literal : String → String)
    (values : List String) (statement : String) (pairs : List (String × String)) : Prop where
  text : statement = "INSERT INTO `" ++ table ++ "` (" ++
    commas ((pairs.map Prod.fst).map backquoted) ++ ") VALUES (" ++
    commas (pairs.map Prod.snd) ++ ");"
  some_column : pairs ≠ []
  table_name : Identifier table
  column_names : ∀ x ∈ pairs, Identifier x.1
  /-- No two columns are the same without case. -/
  columns_differ : (pairs.map fun x => toLowerCopy x.1).Nodup
  mapped : ∀ source destination,
    (settingFields config "field_map").lookup source = some (.string destination) →
      ∃ i : Nat, logSourceFields[i]? = some source ∧
        ∀ value, values[i]? = some value → (destination, value) ∈ pairs
  standard : config.contains "field_map" = false → logSourceFields.zip values <+: pairs
  static : ∀ column value, (column, value) ∈ settingFields config "static_fields" →
    (column, staticLiteral literal value) ∈ pairs
  /-- There is no other column. -/
  only : ∀ column encoded, (column, encoded) ∈ pairs →
    (∃ (i : Nat) (source : String), logSourceFields[i]? = some source ∧ values[i]? = some encoded ∧
      (config.contains "field_map" = false ∧ column = source ∨
        (settingFields config "field_map").lookup source = some (.string column))) ∨
    ∃ value, (column, value) ∈ settingFields config "static_fields" ∧
      encoded = staticLiteral literal value

section
omit [JsonLib]
variable {config : Json} {table : String} {job : LogColumns} {values : List String}

theorem lookup_strings (fieldMap : List (String × String)) (source : String) :
    (fieldMap.map fun x => (x.1, Json.string x.2)).lookup source =
      (fieldMap.lookup source).map .string := by
  induction fieldMap with
  | nil => rfl
  | cons x fieldMap ih =>
    obtain ⟨s, d⟩ := x
    by_cases hs : source == s
    · simp [List.lookup_cons, hs]
    · rw [Bool.not_eq_true] at hs
      simp only [List.map_cons, List.lookup_cons, hs]
      exact ih

/-- The columns of the source fields, one by one. -/
theorem mem_mapped {x : String × String} : x ∈ job.mapped values ↔
    ∃ (i : Nat) (source : String), logSourceFields[i]? = some source ∧ values[i]? = some x.2 ∧
      (job.customColumns = false ∧ x.1 = source ∨
        job.customColumns = true ∧ job.fieldMap.lookup source = some x.1) := by
  unfold LogColumns.mapped
  rw [List.mem_filterMap]
  constructor
  · intro ⟨y, hy, hx⟩
    obtain ⟨i, hi⟩ := List.getElem?_of_mem hy
    rw [List.getElem?_zip_eq_some] at hi
    refine ⟨i, y.1, hi.1, ?_⟩
    cases hcustom : job.customColumns with
    | false =>
      rw [hcustom, if_neg Bool.false_ne_true] at hx
      obtain rfl := Option.some.inj hx
      exact ⟨hi.2, .inl ⟨rfl, rfl⟩⟩
    | true =>
      rw [hcustom, if_pos rfl] at hx
      obtain ⟨column, hcolumn, rfl⟩ := Option.map_eq_some_iff.1 hx
      exact ⟨hi.2, .inr ⟨rfl, hcolumn⟩⟩
  · intro ⟨i, source, hsource, hvalue, hcolumn⟩
    have hy : (logSourceFields.zip values)[i]? = some (source, x.2) :=
      List.getElem?_zip_eq_some.2 ⟨hsource, hvalue⟩
    refine ⟨_, List.mem_of_getElem? hy, ?_⟩
    rcases hcolumn with ⟨hcustom, rfl⟩ | ⟨hcustom, hlookup⟩
    · rw [hcustom, if_neg Bool.false_ne_true]
    · rw [hcustom, if_pos rfl, hlookup]
      rfl

omit [Floats] in
theorem mem_of_lookup {fieldMap : List (String × String)} {source column : String}
    (h : fieldMap.lookup source = some column) : (source, column) ∈ fieldMap := by
  obtain ⟨before, after, rfl, -⟩ := List.lookup_eq_some_iff.1 h
  simp

/-- The names of the columns of the source fields. -/
theorem mapped_names (hvalues : values.length = logSourceFields.length) :
    (job.mapped values).map (fun x => toLowerCopy x.1) = logSourceFields.filterMap fun source =>
      if job.customColumns then (job.fieldMap.lookup source).map toLowerCopy
      else some (toLowerCopy source) := by
  have hfirst : (logSourceFields.zip values).map Prod.fst = logSourceFields :=
    List.map_fst_zip hvalues.ge
  unfold LogColumns.mapped
  conv_rhs => rw [← hfirst, List.filterMap_map]
  rw [List.map_filterMap]
  refine List.filterMap_congr fun x _ => ?_
  cases job.customColumns with
  | false => rfl
  | true =>
    simp only [if_true, Option.map_map, Function.comp]
    rfl

theorem mapped_nodup (hok : ColumnsOk config table job)
    (hvalues : values.length = logSourceFields.length) :
    ((job.mapped values).map fun x => toLowerCopy x.1).Nodup := by
  obtain ⟨after, hmap, -⟩ := hok.loops
  rw [mapped_names hvalues]
  cases hcustom : job.customColumns with
  | false =>
    have hsame : (logSourceFields.filterMap fun source => some (toLowerCopy source)) =
        logSourceFields := (congrFun List.filterMap_eq_map' _).trans sourceFields_lower
    simp only [Bool.false_eq_true, if_false, hsame]
    exact sourceFields_nodup
  | true =>
    simp only [if_true]
    refine sourceFields_nodup.filterMap fun source source' name hname hname' => ?_
    obtain ⟨column, hcolumn, rfl⟩ := Option.map_eq_some_iff.1 hname
    obtain ⟨column', hcolumn', heq⟩ := Option.map_eq_some_iff.1 hname'
    have hpair := List.inj_on_of_nodup_map hmap.nodup (mem_of_lookup hcolumn)
      (mem_of_lookup hcolumn') heq.symm
    exact (Prod.mk.inj hpair).1

/-- The columns of the source fields are good names, and the second loop knows them. -/
theorem mapped_known {after : List String}
    (hmap : MapOk (settingFields config "field_map")
      (if job.customColumns then [] else logSourceFields) job.fieldMap after)
    {x : String × String} (hx : x ∈ job.mapped values) :
    logIdentifierValid x.1 = true ∧ toLowerCopy x.1 ∈ after := by
  obtain ⟨i, source, hsource, -, ⟨hcustom, hx⟩ | ⟨hcustom, hlookup⟩⟩ := mem_mapped.1 hx
  · have hmem := List.mem_of_getElem? hsource
    rw [hx]
    refine ⟨sourceFields_valid source hmem, (hmap.after _).2 (.inl ?_)⟩
    rw [if_neg (by simp [hcustom]), ← sourceFields_lower]
    exact List.mem_map_of_mem hmem
  · have hmem := mem_of_lookup hlookup
    exact ⟨hmap.valid _ hmem, (hmap.after _).2 (.inr ⟨_, hmem, rfl⟩)⟩

theorem custom_of_lookup (hok : ColumnsOk config table job) {source column : String}
    (h : job.fieldMap.lookup source = some column) : job.customColumns = true := by
  obtain ⟨after, hmap, -⟩ := hok.loops
  have hfields := hmap.fields
  rw [hok.custom, Json.contains]
  unfold settingFields at hfields
  split at hfields
  · rename_i hfind
    rw [hfind]
    rfl
  · rw [List.map_eq_nil_iff.1 hfields.symm] at h
    cases h

theorem mapped_field (hok : ColumnsOk config table job) {source column : String}
    (h : job.fieldMap.lookup source = some column) : ∃ i : Nat, logSourceFields[i]? = some source ∧
      ∀ value, values[i]? = some value → (column, value) ∈ job.mapped values := by
  obtain ⟨after, hmap, -⟩ := hok.loops
  obtain ⟨i, hi⟩ := List.getElem?_of_mem (hmap.sources _ (mem_of_lookup h))
  refine ⟨i, hi, fun value hvalue => mem_mapped.2 ⟨i, source, hi, hvalue, .inr ⟨?_, h⟩⟩⟩
  exact custom_of_lookup hok h

/-- Without a mapping all source fields are logged under their own names. -/
theorem mapped_standard (hcustom : job.customColumns = false) :
    job.mapped values = logSourceFields.zip values := by
  unfold LogColumns.mapped
  simp [hcustom]

theorem mapped_or_static (hok : ColumnsOk config table job)
    (hvalues : values.length = logSourceFields.length) :
    job.mapped values ≠ [] ∨ job.staticFields ≠ [] := by
  cases hcustom : job.customColumns with
  | false =>
    left
    rw [mapped_standard hcustom]
    intro hnil
    have hlength := congrArg List.length hnil
    rw [List.length_zip, hvalues, Nat.min_self] at hlength
    cases hlength
  | true =>
    refine (hok.some_column hcustom).imp_left fun hmap hnil => ?_
    obtain ⟨x, fieldMap, hx⟩ := List.exists_cons_of_ne_nil hmap
    have hlookup : job.fieldMap.lookup x.1 = some x.2 := by rw [hx, List.lookup_cons_self]
    obtain ⟨i, hi, hmem⟩ := mapped_field hok hlookup
    have hlt : i < values.length := by
      rw [hvalues]
      exact (List.getElem?_eq_some_iff.1 hi).1
    have hvalue := hmem _ (List.getElem?_eq_getElem hlt)
    rw [hnil] at hvalue
    cases hvalue

end

theorem logInsertSql_eq (literal : String → String) (job : LogColumns) (values : List String) :
    logInsertSql literal job values = "INSERT INTO `" ++ job.table ++ "` (" ++
      commas (((job.appended literal values).map Prod.fst).map backquoted) ++ ") VALUES (" ++
      commas ((job.appended literal values).map Prod.snd) ++ ");" := by
  unfold logInsertSql
  rw [foldl_appendColumn]

/-- A column is that of a source field or a fixed one. -/
theorem mem_appended {literal : String → String} {job : LogColumns} {values : List String}
    {x : String × String} : x ∈ job.appended literal values ↔ x ∈ job.mapped values ∨
      ∃ value, (x.1, value) ∈ job.staticFields ∧ x.2 = staticLiteral literal value := by
  rw [LogColumns.appended, List.mem_append, List.mem_map]
  refine or_congr_right ⟨fun ⟨y, hy, heq⟩ => ?_, fun ⟨value, hmem, heq⟩ => ?_⟩
  · rw [← heq]
    exact ⟨y.2, hy, rfl⟩
  · exact ⟨_, hmem, Prod.ext rfl heq.symm⟩

omit [JsonLib] in
theorem lookup_setting {config : Json} {table : String} {job : LogColumns}
    (hok : ColumnsOk config table job) (source destination : String) :
    (settingFields config "field_map").lookup source = some (.string destination) ↔
      job.fieldMap.lookup source = some destination := by
  obtain ⟨after, hmap, -⟩ := hok.loops
  rw [hmap.fields, lookup_strings]
  cases job.fieldMap.lookup source <;> simp

/-- **Every accepted column mapping yields a sound statement.** -/
theorem insert_sound (config : Json) (table : String) (job : LogColumns)
    (hparse : parseJobColumns config table = .ok job) (literal : String → String)
    (values : List String) (hvalues : values.length = logSourceFields.length) :
    SoundInsert config table literal values (logInsertSql literal job values)
      (job.appended literal values) := by
  have hok := parseJobColumns_ok hparse
  obtain ⟨after, hmap, hstatic⟩ := hok.loops
  exact {
    text := by rw [logInsertSql_eq, hok.table_eq]
    some_column := by
      intro hnil
      obtain ⟨hnone, hnostatic⟩ := List.append_eq_nil_iff.1 hnil
      rcases mapped_or_static hok hvalues with hsome | hsome
      · exact hsome hnone
      · exact hsome (List.map_eq_nil_iff.1 hnostatic)
    table_name := identifier_of_valid hok.valid
    column_names := by
      intro x hx
      rcases mem_appended.1 hx with hx | ⟨value, hx, -⟩
      · exact identifier_of_valid (mapped_known hmap hx).1
      · exact identifier_of_valid (hstatic.valid _ hx)
    columns_differ := by
      rw [LogColumns.appended, List.map_append, List.map_map]
      refine List.nodup_append.2 ⟨mapped_nodup hok hvalues, hstatic.nodup, fun a ha b hb heq => ?_⟩
      obtain ⟨x, hx, rfl⟩ := List.mem_map.1 ha
      obtain ⟨y, hy, rfl⟩ := List.mem_map.1 hb
      have hknown := (mapped_known hmap hx).2
      rw [heq] at hknown
      exact hstatic.fresh y hy hknown
    mapped := by
      intro source destination hfield
      obtain ⟨i, hi, hvalue⟩ := mapped_field hok ((lookup_setting hok _ _).1 hfield)
      exact ⟨i, hi, fun value h => List.mem_append_left _ (hvalue value h)⟩
    standard := by
      intro hnone
      rw [LogColumns.appended, mapped_standard (hok.custom.trans hnone)]
      exact List.prefix_append _ _
    static := by
      intro column value hmem
      rw [← hok.constants] at hmem
      exact mem_appended.2 (.inr ⟨value, hmem, rfl⟩)
    only := by
      intro column encoded hmem
      rcases mem_appended.1 hmem with hmem | ⟨value, hmem, hencoded⟩
      · obtain ⟨i, source, hsource, hvalue, hcolumn⟩ := mem_mapped.1 hmem
        refine .inl ⟨i, source, hsource, hvalue, ?_⟩
        rw [lookup_setting hok, ← hok.custom]
        exact hcolumn.imp_right fun h => h.2
      · rw [hok.constants] at hmem
        exact .inr ⟨value, hmem, hencoded⟩ }

end

/-! ## Examples -/

section
attribute [local instance] intFloats Alarms.intJson

/-- Two source fields and three fixed columns. -/
def readingConfig : Json := .object
  [("field_map", .object [("timestamp_ms", .string "sample_time"),
      ("value_numeric", .string "reading")]),
    ("static_fields", .object [("enabled", .bool true), ("line", .uint 2), ("optional", .null)])]

def readingValues : List String :=
  ["NULL", "123", "NULL", "NULL", "NULL", "NULL", "NULL", "42", "NULL", "NULL", "NULL"]

example : (parseJobColumns readingConfig "tag_log").toOption.map
    (logInsertSql (fun s => s) · readingValues) =
      some ("INSERT INTO `tag_log` (`sample_time`,`reading`,`enabled`,`line`,`optional`) " ++
        "VALUES (123,42,1,2,NULL);") := by
  decide +kernel

theorem reading_inserted : ∃ job, parseJobColumns readingConfig "tag_log" = .ok job ∧
    SoundInsert readingConfig "tag_log" (fun s => s) readingValues
      (logInsertSql (fun s => s) job readingValues) (job.appended (fun s => s) readingValues) := by
  cases h : parseJobColumns readingConfig "tag_log" with
  | error e =>
    have hok : (parseJobColumns readingConfig "tag_log").isOk = true := by decide +kernel
    rw [h] at hok
    cases hok
  | ok job => exact ⟨job, rfl, insert_sound readingConfig "tag_log" job h _ _ rfl⟩

end

end OpcBridge.Logger
