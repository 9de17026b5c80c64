import OpcBridge.Poll.Publish

/-!
# Arrays of a remote server

The poll loop for a tag of an OPC UA client connection. A sample is a decoded value or a bad status;
an array sample sets the element count of the tag and is published row by row, and any other sample
writes rows only while the tag counts more than one element. A row that is not written keeps what an
earlier sample left there, so the good elements are those of the last sample exactly as long as
every sample writes all rows of the good array before it (`elements_follow_iff`).
-/

namespace OpcBridge

section

variable [Floats]

/-! ## Decoding -/

/-- The value of a `UA_Variant`; `none` stands for a value of a type that is not decoded. -/
inductive UaVariant [Floats]
  | empty
  | scalar (value : Option TagValue)
  | array (dimensions : Nat) (elements : List (Option TagValue))

/-- What a read or a notification delivers. -/
structure UaDataValue where
  statusGood : Bool := true
  value : UaVariant

/-- `none` where the C++ function returns false. -/
def snapshotFromOpcuaVariant (conn : ConnectionConfig) (cfg : TagConfig) (value : UaVariant)
    (now : Nat) : Option TagSnapshot :=
  let snap : TagSnapshot :=
    { connectionId := conn.id, logicalName := cfg.logicalName, datatype := cfg.datatype,
      value := .bool false, timestamp := now, quality := 1 }
  match value with
  | .empty => none
  | .scalar v => v.map fun v => { snap with datatype := v.datatype, value := v }
  | .array dimensions elements =>
    if elements = [] ∨ 1000000 < elements.length ∨ 1 < dimensions then none
    else (elements.mapM id).map fun values => { snap with
      datatype := (values.getLast?.map TagValue.datatype).getD cfg.datatype
      arrayValues := values
      value := values.head?.getD (.bool false) }

/-- `none` for every status but GOOD. -/
def UaDataValue.decode (conn : ConnectionConfig) (cfg : TagConfig) (data : UaDataValue)
    (now : Nat) : Option TagSnapshot :=
  if data.statusGood then snapshotFromOpcuaVariant conn cfg data.value now else none

/-! ## One iteration -/

/-- A tag of the poller with the cache. -/
structure UaTagState where
  item : TagRuntime
  table : TagTable

/-- What an iteration of the loop finds for the tag. -/
structure UaPoll where
  /-- A result that waits for the tag, with its time; `none` is a failed service call. -/
  prefetched : Option (Nat × Option UaDataValue) := none
  subscribed : Bool := true
  /-- The tag is logged periodically and its time has come. -/
  periodicDue : Bool := false
  now : Instant

/-- The sample of an iteration: `some none` is a bad status. A subscription delivers changes only,
so without a result the iteration ends, or repeats the cached snapshot for the log. -/
def UaPoll.sample (driver : DriverContext) (s : UaTagState) (poll : UaPoll) :
    Option (Option TagSnapshot) :=
  match poll.prefetched with
  | some (received, data) => some (data.bind fun data => data.decode driver.conn s.item.cfg received)
  | none =>
    if !poll.subscribed then some none
    else if !poll.periodicDue then none
    else (s.table (driver.key s.item.name)).map fun existing =>
      some { existing with timestamp := poll.now.system }

/-- `t.cfg.elem_count = snap.array_values.size()` -/
def TagRuntime.adopt (item : TagRuntime) (sample : Option TagSnapshot) : TagRuntime :=
  match sample with
  | some snap =>
    if snap.arrayValues = [] then item
    else { item with cfg := { item.cfg with elemCount := snap.arrayValues.length } }
  | none => item

def remoteElements (item : TagRuntime) (snap : TagSnapshot) : List TagSnapshot :=
  snap.arrayValues.mapIdx fun i value =>
    { connectionId := snap.connectionId, logicalName := elementName item.name i
      datatype := snap.datatype, value := value, timestamp := snap.timestamp
      quality := snap.quality }

/-- A sample as the result of a read. -/
def remoteRead (item : TagRuntime) (sample : Option TagSnapshot) : LogixReadResult :=
  { ok := sample.isSome, started := 0, finished := 0, snapshot := sample.getD .empty
    elements := (sample.map (remoteElements item)).getD [] }

/-- The root of an array; what the sample carries besides stays. -/
def remoteRow (driver : DriverContext) (item : TagRuntime) (read : LogixReadResult) (now : Nat) :
    TagSnapshot :=
  let datatype := match read.elements.getLast? with
    | some element => element.datatype
    | none => item.outDatatypeOr item.cfg.datatype
  let values := read.elements.map (·.value)
  { read.snapshot with
    connectionId := driver.conn.id, logicalName := item.name, timestamp := now
    datatype := datatype
    quality := if read.ok ∧ read.elements.length = item.cfg.elemCount ∧
      read.elements.all (·.quality == 1) then 1 else 0
    arrayValues := values, value := values.head?.getD (defaultTagValueForDatatype datatype) }

/-- The sample is published as an array. -/
def isArraySample (item : TagRuntime) (sample : Option TagSnapshot) : Bool :=
  decide (1 < item.cfg.elemCount) || !(remoteRead item sample).elements.isEmpty

/-- The publication of a sample under the driver lock. -/
def publishRemote (driver : DriverContext) (item : TagRuntime) (sample : Option TagSnapshot)
    (table : TagTable) (now : Instant) : TagTable :=
  let read := remoteRead item sample
  let stamp := read.snapshot.pollRead
  let adopted := item.adopt sample
  if !isArraySample item sample then
    let snap := applyPollCacheGate driver
      (scalarSnapshot driver item read stamp table now.system) now.steady
    storeDerived driver now.steady item.name snap
      (Function.update table (driver.key item.name) (some snap))
  else
    (List.range (max 1 adopted.cfg.elemCount)).foldl
      (fun table i => storeWithDerived driver now.steady table
        (elementSnapshot driver adopted read stamp table now.system i))
      (Function.update table (driver.key item.name)
        (some (applyPollCacheGate driver (remoteRow driver adopted read now.system) now.steady)))

/-- The sample of an iteration and the state after it, `none` where nothing is processed. -/
def UaTagState.poll (driver : DriverContext) (s : UaTagState) (poll : UaPoll) :
    Option (Option TagSnapshot × UaTagState) :=
  (poll.sample driver s).map fun sample =>
    (sample, ⟨s.item.adopt sample, publishRemote driver s.item sample s.table poll.now⟩)

/-- The processed samples of a run, each with the state after it. -/
def uaTrace (driver : DriverContext) :
    UaTagState → List UaPoll → List (Option TagSnapshot × UaTagState)
  | _, [] => []
  | s, poll :: polls =>
    match s.poll driver poll with
    | none => uaTrace driver s polls
    | some x => x :: uaTrace driver x.2 polls

/-! ## What the cache should show -/

/-- The elements of a good array sample; a scalar or a failed sample has none. -/
def shownElements : Option TagSnapshot → List TagValue
  | some snap => if snap.quality = 1 then snap.arrayValues else []
  | none => []

/-- The good elements in the cache are those of the sample. -/
def UaTagState.Shows (driver : DriverContext) (s : UaTagState) (sample : Option TagSnapshot) :
    Prop :=
  ∀ i value, (∃ row, s.table (driver.key (elementName s.item.name i)) = some row ∧
    row.quality = 1 ∧ row.value = value) ↔ (shownElements sample)[i]? = some value

/-- The number of element rows that a sample writes if the tag counts `count` elements. -/
def rowsWritten (count : Nat) (sample : Option TagSnapshot) : Nat :=
  match sample with
  | some snap =>
    if snap.arrayValues = [] then if 1 < count then count else 0 else snap.arrayValues.length
  | none => if 1 < count then count else 0

/-- All rows of the array before are written again: it is no longer than an array sample that
follows it, and has more than one element where a scalar or a failure follows. -/
def Rewrites (before sample : Option TagSnapshot) : Prop :=
  (shownElements before).length ≤ rowsWritten (shownElements before).length sample

instance (before sample : Option TagSnapshot) : Decidable (Rewrites before sample) :=
  inferInstanceAs (Decidable (_ ≤ _))

/-- A tag whose element rows nothing else writes: gates belong to connections of another driver, and
no derived tag has the name of an element. -/
structure OwnsElements (driver : DriverContext) (name : String) : Prop where
  noGates : ∀ n, driver.pollGates n = none
  notDerived : ∀ tag ∈ driver.tags, tag.cfg.enabled = true → tag.cfg.sourceTag ≠ "" →
    ∀ i, tag.name ≠ elementName name i

/-! ## The rows of one sample -/

section
variable {driver : DriverContext} {name : String} {now : Nat} {table : TagTable}

theorem applyPollCacheGate_none (h : ∀ n, driver.pollGates n = none) (snap : TagSnapshot) :
    applyPollCacheGate driver snap now = snap := by
  unfold applyPollCacheGate
  rw [h]

/-- What derives from a name is stored under other names. -/
theorem storeDerived_element (hown : OwnsElements driver name) (source : String)
    (src : TagSnapshot) (i : Nat) :
    storeDerived driver now source src table (driver.key (elementName name i)) =
      table (driver.key (elementName name i)) := by
  refine foldl_store_other fun tag ht => ?_
  obtain ⟨hmem, henabled, hsource, hne⟩ := DriverContext.mem_derivedOf.1 ht
  exact (hown.notDerived tag hmem henabled (hsource ▸ hne) i).symm

theorem storeWithDerived_element (hown : OwnsElements driver name) (now : Nat) (table : TagTable)
    {snap : TagSnapshot} {j : Nat} (hsnap : snap.logicalName = elementName name j) (i : Nat) :
    storeWithDerived driver now table snap (driver.key (elementName name i)) =
      if i = j then some snap else table (driver.key (elementName name i)) := by
  unfold storeWithDerived
  rw [storeDerived_element hown]
  by_cases hij : i = j
  · have hself := storeSnapshot_self driver now table snap
    rw [hsnap, applyPollCacheGate_none hown.noGates] at hself
    rw [if_pos hij, hij]
    exact hself
  · rw [if_neg hij]
    refine storeSnapshot_ne fun heq => hij ?_
    rw [hsnap] at heq
    exact elementName_inj.1 heq

/-- The loop over the rows. -/
theorem foldl_elements (hown : OwnsElements driver name) (now : Nat)
    {element : TagTable → Nat → TagSnapshot}
    (hname : ∀ t j, (element t j).logicalName = elementName name j) {idx : List Nat}
    (hidx : idx.Nodup) (table : TagTable) (i : Nat) :
    (i ∉ idx → idx.foldl (fun t j => storeWithDerived driver now t (element t j)) table
        (driver.key (elementName name i)) = table (driver.key (elementName name i))) ∧
      (i ∈ idx → ∃ t, idx.foldl (fun t j => storeWithDerived driver now t (element t j)) table
        (driver.key (elementName name i)) = some (element t i)) := by
  induction idx generalizing table with
  | nil => exact ⟨fun _ => rfl, fun h => by cases h⟩
  | cons j idx ih =>
    obtain ⟨hj, hrest⟩ := List.nodup_cons.1 hidx
    obtain ⟨hother, hmem⟩ := ih hrest (storeWithDerived driver now table (element table j))
    have hrow := storeWithDerived_element hown now table (hname table j) i
    rw [List.foldl_cons, List.mem_cons, not_or]
    constructor
    · rintro ⟨hne, hnot⟩
      rw [hother hnot, hrow, if_neg hne]
    · intro h
      by_cases hin : i ∈ idx
      · exact hmem hin
      · have hij : i = j := h.resolve_right hin
        refine ⟨table, ?_⟩
        rw [hother hin, hrow, if_pos hij, hij]

end

section
variable {driver : DriverContext} {item : TagRuntime} {sample : Option TagSnapshot}

@[simp] theorem adopt_name (item : TagRuntime) (sample : Option TagSnapshot) :
    (item.adopt sample).name = item.name := by
  unfold TagRuntime.adopt
  split
  · split <;> rfl
  · rfl

/-- A tag counts the elements of the last good array. -/
theorem adopt_elemCount (h : shownElements sample ≠ []) :
    (item.adopt sample).cfg.elemCount = (shownElements sample).length := by
  cases sample with
  | none => exact absurd rfl h
  | some snap =>
    unfold shownElements at h ⊢
    dsimp only at h ⊢
    split at h
    · rename_i hquality
      rw [if_pos hquality]
      simp only [TagRuntime.adopt, if_neg h]
    · exact absurd rfl h

theorem remoteRead_element (i : Nat) :
    (remoteRead item sample).elements[i]? = (sample.bind fun snap => snap.arrayValues[i]?.map
      fun value => ({ connectionId := snap.connectionId, logicalName := elementName item.name i
                      datatype := snap.datatype, value := value, timestamp := snap.timestamp
                      quality := snap.quality } : TagSnapshot)) := by
  cases sample with
  | none => rfl
  | some snap =>
    show (remoteElements item snap)[i]? = _
    rw [remoteElements, List.getElem?_mapIdx]
    rfl

/-- The number of rows the loop writes. -/
theorem rowsWritten_eq (item : TagRuntime) (sample : Option TagSnapshot) :
    rowsWritten item.cfg.elemCount sample = if isArraySample item sample then
      max 1 (item.adopt sample).cfg.elemCount else 0 := by
  cases sample with
  | none =>
    simp only [rowsWritten, isArraySample, remoteRead, TagRuntime.adopt, Option.map_none,
      Option.getD_none, List.isEmpty_nil, Bool.not_true, Bool.or_false, decide_eq_true_eq]
    split <;> omega
  | some snap =>
    by_cases hnil : snap.arrayValues = []
    · simp only [rowsWritten, isArraySample, remoteRead, remoteElements, TagRuntime.adopt, hnil,
        Option.map_some, Option.getD_some, List.mapIdx_nil, List.isEmpty_nil, Bool.not_true,
        Bool.or_false, decide_eq_true_eq, if_true]
      split <;> omega
    · have hpos := List.length_pos_of_ne_nil hnil
      have helements : (remoteRead item (some snap)).elements.isEmpty = false := by
        rw [← Bool.not_eq_true, List.isEmpty_iff]
        simpa [remoteRead, remoteElements] using hnil
      simp only [rowsWritten, isArraySample, TagRuntime.adopt, if_neg hnil, helements,
        Bool.not_false, Bool.or_true, if_true]
      omega

theorem length_shownElements_le (sample : Option TagSnapshot) (count : Nat) :
    (shownElements sample).length ≤ rowsWritten count sample := by
  cases sample with
  | none => exact Nat.zero_le _
  | some snap =>
    unfold shownElements rowsWritten
    dsimp only
    split
    · by_cases hnil : snap.arrayValues = []
      · rw [hnil]
        exact Nat.zero_le _
      · rw [if_neg hnil]
    · exact Nat.zero_le _

/-- A row that is written is good exactly if the sample shows the element. -/
theorem elementSnapshot_good_iff (driver : DriverContext) (stamp : PollReadStamp)
    (table : TagTable) (now i : Nat) (value : TagValue) :
    let row := elementSnapshot driver (item.adopt sample) (remoteRead item sample) stamp table now i
    row.quality = 1 ∧ row.value = value ↔ (shownElements sample)[i]? = some value := by
  dsimp only
  unfold elementSnapshot
  rw [remoteRead_element]
  cases sample with
  | none => simp [remoteRead, shownElements, failedSnapshot]
  | some snap =>
    cases hvalue : snap.arrayValues[i]? with
    | none =>
      have hshown : (shownElements (some snap))[i]? = none := by
        unfold shownElements
        dsimp only
        split
        · exact hvalue
        · rfl
      simp [remoteRead, failedSnapshot, hvalue, hshown]
    | some v =>
      by_cases hquality : snap.quality = 1
      · simp [remoteRead, shownElements, hquality, hvalue]
      · simp [remoteRead, shownElements, hquality, hvalue]

theorem elementSnapshot_name (item : TagRuntime) (sample : Option TagSnapshot)
    (driver : DriverContext) (stamp : PollReadStamp) (table : TagTable)
    (now i : Nat) :
    (elementSnapshot driver (item.adopt sample) (remoteRead item sample) stamp table now
      i).logicalName = elementName item.name i := by
  unfold elementSnapshot
  rw [remoteRead_element]
  split
  · rename_i element h
    split at h
    · obtain ⟨snap, -, hmap⟩ := Option.bind_eq_some_iff.1 h
      obtain ⟨value, -, rfl⟩ := Option.map_eq_some_iff.1 hmap
      rfl
    · cases h
  · show elementName (item.adopt sample).name i = _
    rw [adopt_name]

/-- **One publication**: the written rows show the sample, the others stay. -/
theorem publishRemote_element (hown : OwnsElements driver item.name)
    (sample : Option TagSnapshot) (table : TagTable)
    (now : Instant) (i : Nat) :
    (rowsWritten item.cfg.elemCount sample ≤ i →
        publishRemote driver item sample table now (driver.key (elementName item.name i)) =
          table (driver.key (elementName item.name i))) ∧
      (i < rowsWritten item.cfg.elemCount sample →
        ∃ row, publishRemote driver item sample table now (driver.key (elementName item.name i)) =
            some row ∧
          ∀ value, row.quality = 1 ∧ row.value = value ↔
            (shownElements sample)[i]? = some value) := by
  have hroot : ∀ snap : TagSnapshot, Function.update table (driver.key item.name) (some snap)
      (driver.key (elementName item.name i)) = table (driver.key (elementName item.name i)) :=
    fun snap => Function.update_of_ne
      (fun h => elementName_ne_root item.name i (makeTagKey_inj.1 h)) _ _
  rw [rowsWritten_eq]
  unfold publishRemote
  dsimp only
  cases harray : isArraySample item sample with
  | false =>
    refine ⟨fun _ => ?_, fun h => absurd h (Nat.not_lt_zero i)⟩
    exact (storeDerived_element hown _ _ i).trans (hroot _)
  | true =>
    obtain ⟨hother, hmem⟩ := foldl_elements hown now.steady
      (fun t j => elementSnapshot_name item sample driver
        (remoteRead item sample).snapshot.pollRead t now.system j) List.nodup_range
      (Function.update table (driver.key item.name) (some (applyPollCacheGate driver
        (remoteRow driver (item.adopt sample) (remoteRead item sample) now.system) now.steady))) i
    rw [List.mem_range] at hother hmem
    refine ⟨fun hle => ?_, fun hlt => ?_⟩
    · exact (hother (Nat.not_lt.2 hle)).trans (hroot _)
    · obtain ⟨t, ht⟩ := hmem hlt
      exact ⟨_, ht, elementSnapshot_good_iff driver _ t now.system i⟩

end

/-! ## Runs -/

section
variable {driver : DriverContext} {s : UaTagState}

/-- The cache shows a sample if and only if the sample has written every row of the one before. -/
theorem publishRemote_shows_iff {before : Option TagSnapshot}
    (hown : OwnsElements driver s.item.name) (hbefore : s.Shows driver before)
    (sample : Option TagSnapshot) (now : Instant) :
    UaTagState.Shows driver
        ⟨s.item.adopt sample, publishRemote driver s.item sample s.table now⟩ sample ↔
      (shownElements before).length ≤ rowsWritten s.item.cfg.elemCount sample := by
  have hlength := length_shownElements_le sample s.item.cfg.elemCount
  have hrow := publishRemote_element hown sample s.table now
  unfold UaTagState.Shows at hbefore ⊢
  dsimp only
  rw [adopt_name]
  generalize rowsWritten s.item.cfg.elemCount sample = written at *
  constructor
  · intro hshows
    by_contra hlt
    obtain ⟨value, hvalue⟩ : ∃ value, (shownElements before)[written]? = some value :=
      ⟨_, List.getElem?_eq_getElem (Nat.not_le.1 hlt)⟩
    -- the first row that was not written
    obtain ⟨row, htable, hgood⟩ := (hbefore written value).2 hvalue
    have hshown := (hshows written value).1 ⟨row, ((hrow written).1 le_rfl).trans htable, hgood⟩
    have := (List.getElem?_eq_some_iff.1 hshown).1
    omega
  · intro hle i value
    by_cases hi : i < written
    · obtain ⟨row, htable, hgood⟩ := (hrow i).2 hi
      rw [← hgood value]
      constructor
      · rintro ⟨r, hr, hgood'⟩
        rw [htable, Option.some_inj] at hr
        rwa [hr]
      · exact fun h => ⟨row, htable, h⟩
    · rw [(hrow i).1 (Nat.not_lt.1 hi), hbefore i value,
        List.getElem?_eq_none (by omega), List.getElem?_eq_none (by omega)]

theorem trace_shows_iff (polls : List UaPoll) {before : Option TagSnapshot}
    (hown : OwnsElements driver s.item.name) (hbefore : s.Shows driver before)
    (hcount : shownElements before ≠ [] →
      s.item.cfg.elemCount = (shownElements before).length) :
    (∀ x ∈ uaTrace driver s polls, x.2.Shows driver x.1) ↔
      (before :: (uaTrace driver s polls).map Prod.fst).IsChain Rewrites := by
  induction polls generalizing s before with
  | nil => simp [uaTrace]
  | cons poll polls ih =>
    simp only [uaTrace, UaTagState.poll]
    cases hsample : poll.sample driver s with
    | none => exact ih hown hbefore hcount
    | some sample =>
      simp only [Option.map_some]
      have hstep := publishRemote_shows_iff hown hbefore sample poll.now
      have hrewrites : Rewrites before sample ↔
          (shownElements before).length ≤ rowsWritten s.item.cfg.elemCount sample := by
        unfold Rewrites
        by_cases hnil : shownElements before = []
        · simp [hnil]
        · rw [hcount hnil]
      rw [List.forall_mem_cons, List.map_cons, List.isChain_cons_cons, hstep, hrewrites]
      refine and_congr_right fun hle => ?_
      exact ih (by rwa [adopt_name]) (hstep.2 hle) adopt_elemCount

/-- After every sample the good elements are those of the sample, if and only if every sample
rewrites the good array before it. -/
theorem elements_follow_iff (hown : OwnsElements driver s.item.name)
    (hstart : ∀ i row, s.table (driver.key (elementName s.item.name i)) = some row →
      row.quality ≠ 1) (polls : List UaPoll) :
    (∀ x ∈ uaTrace driver s polls, x.2.Shows driver x.1) ↔
      ((uaTrace driver s polls).map Prod.fst).IsChain Rewrites := by
  have hbefore : s.Shows driver none := fun i value =>
    ⟨fun ⟨row, htable, hgood, _⟩ => absurd hgood (hstart i row htable), fun h => by cases h⟩
  rw [trace_shows_iff polls hown hbefore fun h => absurd rfl h]
  cases (uaTrace driver s polls).map Prod.fst with
  | nil => simp
  | cons sample samples =>
    rw [List.isChain_cons_cons]
    exact and_iff_right (Nat.zero_le _)

end

end

/-! ## Growing and shrinking -/

section
attribute [local instance] intFloats

def trendConfig : TagConfig where
  logicalName := "Trend"
  datatype := "int32"

def remoteDriver : DriverContext where
  freshnessEpoch := 1
  conn := { id := "REMOTE", driver := "opcua_client" }
  tags := [{ cfg := trendConfig }]

/-- Before the first sample. -/
def trendStart : UaTagState := ⟨{ cfg := trendConfig }, fun _ => none⟩

def arrayPoll (time : Nat) (elements : List Int32) : UaPoll where
  prefetched := some (time, some { value := .array 1 (elements.map fun n => some (.int32 n)) })
  now := ⟨time, time⟩

def failedPoll (time : Nat) : UaPoll where
  prefetched := some (time, none)
  now := ⟨time, time⟩

theorem remoteDriver_owns : OwnsElements remoteDriver trendStart.item.name where
  noGates _ := rfl
  notDerived := by
    intro tag htag _ hsource
    rw [List.mem_singleton.1 htag] at hsource
    exact absurd rfl hsource

/-- An array, a longer one and a failure. -/
theorem trend_follows :
    (∀ x ∈ uaTrace remoteDriver trendStart
        [arrayPoll 1 [10], arrayPoll 2 [20, 21], failedPoll 3], x.2.Shows remoteDriver x.1) ↔
      ((uaTrace remoteDriver trendStart
        [arrayPoll 1 [10], arrayPoll 2 [20, 21], failedPoll 3]).map Prod.fst).IsChain Rewrites :=
  elements_follow_iff remoteDriver_owns (fun _ _ h => by cases h) _

/-- A shorter array leaves the second element of the array before. -/
theorem trend_leaves_element : ¬ ∀ (driver : DriverContext) (s : UaTagState),
    OwnsElements driver s.item.name →
    (∀ i row, s.table (driver.key (elementName s.item.name i)) = some row → row.quality ≠ 1) →
    ∀ polls, ∀ x ∈ uaTrace driver s polls, x.2.Shows driver x.1 := by
  intro h
  have hshows := h remoteDriver trendStart remoteDriver_owns (fun _ _ h => by cases h)
    [arrayPoll 1 [10, 11], arrayPoll 2 [20]]
  have hclean : trendStart.Shows remoteDriver none := by
    intro i value
    constructor
    · rintro ⟨row, htable, -⟩
      cases htable
    · intro hshown
      cases hshown
  rw [trace_shows_iff _ remoteDriver_owns hclean fun h => absurd rfl h] at hshows
  revert hshows
  decide

end

end OpcBridge
