import OpcBridge.Poll.Read

/-!
# Publishing a read

The part of the poll loop under the driver lock: the snapshot of a completed read goes through the
driver's gate into the cache, and the bits and aliases of the published name are computed from the
snapshot that was stored. A scalar publishes its own name; an array publishes its row and then each
element with what derives from the element. The loop spells the derivation out twice with the same
text; `deriveBit` and `deriveAlias` embed both places.

Every store of a publication goes through `storeSnapshot`; `publishItem_induct` is the induction
over these stores.
-/

namespace OpcBridge

variable [Floats]

/-! ## Derived tags -/

def extractBitFromSnapshot (src : TagSnapshot) (bit : Nat) : Option Bool :=
  if src.arrayValues ≠ [] then none
  else
    let word : Option Nat := match src.value with
      | .int16 n => some n.toUInt16.toNat
      | .uint16 n => some n.toNat
      | .int32 n => some n.toUInt32.toNat
      | .uint32 n => some n.toNat
      | .bool b => if bit = 0 then some b.toNat else none
      | _ => none
    match word with
    | none => none
    | some word => if 64 ≤ bit then none else some (word.testBit bit)

/-- A snapshot with the stamp, state, time and quality of its source. -/
def derivedSnapshot (conn : ConnectionConfig) (name datatype : String) (src : TagSnapshot)
    (quality : Nat) (value : TagValue) : TagSnapshot :=
  { connectionId := conn.id, logicalName := name, datatype := datatype, value := value,
    timestamp := src.timestamp, quality := quality, pollRead := src.pollRead,
    pollingState := src.pollingState }

def deriveBit (conn : ConnectionConfig) (src : TagSnapshot) (cfg : TagConfig) (bit : Nat) :
    TagSnapshot :=
  match extractBitFromSnapshot src bit with
  | none => derivedSnapshot conn cfg.logicalName "bool" src 0 (.bool false)
  | some b =>
    derivedSnapshot conn cfg.logicalName "bool" src src.quality
      (.bool (if src.quality = 1 ∧ cfg.invert then !b else b))

/-- `set_default` of the alias code: a string gets a `double`. -/
def aliasDefault (dt : String) : TagValue :=
  if dt = "bool" then .bool false
  else if dt = "int16" then .int16 0
  else if dt = "uint16" then .uint16 0
  else if dt = "int32" then .int32 0
  else if dt = "uint32" then .uint32 0
  else if dt = "float32" then .float32 (Floats.narrow (Floats.ofInt 0))
  else .float64 (Floats.ofInt 0)

/-- A source value as a truth value. -/
def aliasBool : TagValue → Bool
  | .bool b => b
  | .string _ => false
  | v => (tagvalueToDouble v).any fun x => !Floats.eq x (Floats.ofInt 0)

/-- A source value as a number, `none` for a string. -/
def aliasNumber : TagValue → Option F64
  | .bool b => some (Floats.ofInt (if b then 1 else 0))
  | v => tagvalueToDouble v

/-- The value of an alias from the value of its source, `none` where there is none. -/
def aliasValue (tag : TagRuntime) (src : TagValue) : Option TagValue :=
  let outDt := tag.outDatatypeOr tag.cfg.datatype
  if outDt = "bool" then some (.bool (if tag.cfg.invert then !aliasBool src else aliasBool src))
  else
    match aliasNumber src with
    | none => none
    | some rawNum =>
      let v := if tag.scalingLinear then scaleValue tag rawNum else rawNum
      match castDoubleToTagvalue v outDt with
      | .error _ => none
      | .ok out => some out

def deriveAlias (conn : ConnectionConfig) (src : TagSnapshot) (tag : TagRuntime) : TagSnapshot :=
  let outDt := tag.outDatatypeOr tag.cfg.datatype
  if src.quality ≠ 1 then
    derivedSnapshot conn tag.name outDt src src.quality (aliasDefault outDt)
  else
    match aliasValue tag src.value with
    | none => derivedSnapshot conn tag.name outDt src 0 (aliasDefault outDt)
    | some out => derivedSnapshot conn tag.name outDt src src.quality out

/-- The derived tag `tag` computed from the stored snapshot of its source. -/
def derive (conn : ConnectionConfig) (src : TagSnapshot) (tag : TagRuntime) : TagSnapshot :=
  match tag.cfg.bit with
  | some bit => deriveBit conn src tag.cfg bit
  | none => deriveAlias conn src tag

@[simp] theorem derive_logicalName (conn : ConnectionConfig) (src : TagSnapshot)
    (tag : TagRuntime) : (derive conn src tag).logicalName = tag.name := by
  unfold derive deriveBit deriveAlias
  split
  · split <;> rfl
  · dsimp only
    split
    · rfl
    · split <;> rfl

@[simp] theorem derive_pollRead (conn : ConnectionConfig) (src : TagSnapshot)
    (tag : TagRuntime) : (derive conn src tag).pollRead = src.pollRead := by
  unfold derive deriveBit deriveAlias
  split
  · split <;> rfl
  · dsimp only
    split
    · rfl
    · split <;> rfl

/-- A derived snapshot is good only if its source is. -/
theorem quality_of_derive {conn : ConnectionConfig} {src : TagSnapshot} {tag : TagRuntime}
    (h : (derive conn src tag).quality = 1) : src.quality = 1 := by
  unfold derive deriveBit deriveAlias at h
  split at h
  · split at h
    · cases h
    · exact h
  · dsimp only at h
    split at h
    · exact h
    · split at h
      · cases h
      · exact h

namespace DriverContext

/-- `derived_bits_by_source`: enabled bits of the name, in tag order. -/
def derivedBits (driver : DriverContext) (source : String) : List TagRuntime :=
  driver.tags.filter fun tag =>
    tag.cfg.enabled && tag.cfg.sourceTag == source && source != "" && tag.cfg.bit.isSome

/-- `derived_alias_by_source`: enabled aliases of the name, in tag order. -/
def derivedAliases (driver : DriverContext) (source : String) : List TagRuntime :=
  driver.tags.filter fun tag =>
    tag.cfg.enabled && tag.cfg.sourceTag == source && source != "" && tag.cfg.bit.isNone

/-- The bits of a name and then its aliases. -/
def derivedOf (driver : DriverContext) (source : String) : List TagRuntime :=
  driver.derivedBits source ++ driver.derivedAliases source

theorem mem_derivedOf {driver : DriverContext} {source : String} {tag : TagRuntime} :
    tag ∈ driver.derivedOf source ↔
      tag ∈ driver.tags ∧ tag.cfg.enabled = true ∧ tag.cfg.sourceTag = source ∧ source ≠ "" := by
  simp only [derivedOf, derivedBits, derivedAliases, List.mem_append, List.mem_filter,
    Bool.and_eq_true, beq_iff_eq, bne_iff_ne]
  cases tag.cfg.bit <;> simp <;> tauto

end DriverContext

/-! ## Stores -/

/-- `applyLifecycle` and the assignment to the cache. -/
def storeSnapshot (driver : DriverContext) (now : Nat) (table : TagTable) (snap : TagSnapshot) :
    TagTable :=
  Function.update table (driver.key snap.logicalName) (some (applyPollCacheGate driver snap now))

/-- Store everything derived from the stored snapshot `src` of the name `source`. -/
def storeDerived (driver : DriverContext) (now : Nat) (source : String) (src : TagSnapshot)
    (table : TagTable) : TagTable :=
  (driver.derivedOf source).foldl
    (fun table tag => storeSnapshot driver now table (derive driver.conn src tag)) table

/-- Store a snapshot and then what derives from it. -/
def storeWithDerived (driver : DriverContext) (now : Nat) (table : TagTable) (snap : TagSnapshot) :
    TagTable :=
  storeDerived driver now snap.logicalName (applyPollCacheGate driver snap now)
    (storeSnapshot driver now table snap)

/-- The snapshot of a read that failed: the cached one, marked bad. -/
def failedSnapshot (driver : DriverContext) (item : TagRuntime) (name : String)
    (table : TagTable) (now : Nat) : TagSnapshot :=
  { (table (driver.key name)).getD .empty with
    connectionId := driver.conn.id, logicalName := name
    datatype := item.outDatatypeOr item.cfg.datatype
    timestamp := now, quality := 0, pollingState := .active }

/-- The row of an array read. -/
def arrayRowSnapshot (driver : DriverContext) (item : TagRuntime) (read : LogixReadResult)
    (stamp : PollReadStamp) (now : Nat) : TagSnapshot :=
  let datatype := match read.elements.getLast? with
    | some element => element.datatype
    | none => item.outDatatypeOr item.cfg.datatype
  let values := read.elements.map (·.value)
  { connectionId := driver.conn.id, logicalName := item.name, datatype := datatype
    value := values.head?.getD (defaultTagValueForDatatype datatype), timestamp := now
    quality := if read.ok ∧ read.elements.length = item.cfg.elemCount ∧
      read.elements.all (·.quality == 1) then 1 else 0
    pollRead := stamp, arrayValues := values }

/-- The snapshot of element `i` before its gate. -/
def elementSnapshot (driver : DriverContext) (item : TagRuntime) (read : LogixReadResult)
    (stamp : PollReadStamp) (table : TagTable) (now i : Nat) : TagSnapshot :=
  match if read.ok then read.elements[i]? else none with
  | some element => { element with pollRead := stamp }
  | none => failedSnapshot driver item (elementName item.name i) table now

/-- The snapshot of a scalar before its gate. -/
def scalarSnapshot (driver : DriverContext) (item : TagRuntime) (read : LogixReadResult)
    (stamp : PollReadStamp) (table : TagTable) (now : Nat) : TagSnapshot :=
  if read.ok then { read.snapshot with pollRead := stamp }
  else failedSnapshot driver item item.name table now

/-- The stamp of a read. -/
def readStamp (driver : DriverContext) (read : LogixReadResult) : PollReadStamp :=
  { started := read.started, completed := read.finished, sourceEpoch := driver.freshnessEpoch }

/-- The publication of one completed read. -/
def publishItem (driver : DriverContext) (item : TagRuntime) (read : LogixReadResult)
    (table : TagTable) (now : Instant) : TagTable :=
  let stamp := readStamp driver read
  if item.cfg.elemCount ≤ 1 then
    storeWithDerived driver now.steady table
      (scalarSnapshot driver item read stamp table now.system)
  else
    (List.range item.cfg.elemCount).foldl
      (fun table i => storeWithDerived driver now.steady table
        (elementSnapshot driver item read stamp table now.system i))
      (storeSnapshot driver now.steady table (arrayRowSnapshot driver item read stamp now.system))

/-! ## What a publication stores -/

/-- A name and the names that derive from it. -/
def DriverContext.withDerived (driver : DriverContext) (name : String) : List String :=
  name :: (driver.derivedOf name).map TagRuntime.name

/-- The names that a publication of the item stores. -/
def DriverContext.publishedNames (driver : DriverContext) (item : TagRuntime) : List String :=
  if item.cfg.elemCount ≤ 1 then driver.withDerived item.name
  else item.name :: (List.range item.cfg.elemCount).flatMap fun i =>
    driver.withDerived (elementName item.name i)

@[simp] theorem storeSnapshot_self (driver : DriverContext) (now : Nat) (table : TagTable)
    (snap : TagSnapshot) :
    storeSnapshot driver now table snap (driver.key snap.logicalName) =
      some (applyPollCacheGate driver snap now) := Function.update_self ..

theorem storeSnapshot_ne {driver : DriverContext} {now : Nat} {table : TagTable}
    {snap : TagSnapshot} {name : String} (h : name ≠ snap.logicalName) :
    storeSnapshot driver now table snap (driver.key name) = table (driver.key name) :=
  Function.update_of_ne (fun hk => h (makeTagKey_inj.1 hk)) _ _

section
variable {driver : DriverContext} {P : TagTable → Prop}

/-- Induction over the stores of a snapshot and what derives from it: where the snapshot, if good,
carries `stamp`, so does everything stored. -/
theorem storeWithDerived_induct {now : Nat} (stamp : PollReadStamp) {table : TagTable}
    {snap : TagSnapshot} (h0 : P table)
    (hstamp : snap.quality = 1 → snap.pollRead = stamp)
    (hstep : ∀ table s, s.logicalName ∈ driver.withDerived snap.logicalName →
      (s.quality = 1 → s.pollRead = stamp) → P table → P (storeSnapshot driver now table s)) :
    P (storeWithDerived driver now table snap) := by
  have hgated : (applyPollCacheGate driver snap now).quality = 1 →
      (applyPollCacheGate driver snap now).pollRead = stamp := by
    intro h
    rw [applyPollCacheGate_pollRead]
    exact hstamp (quality_of_applyPollCacheGate h)
  unfold storeWithDerived storeDerived
  have hrest : ∀ tag ∈ driver.derivedOf snap.logicalName,
      tag.name ∈ driver.withDerived snap.logicalName :=
    fun tag ht => List.mem_cons_of_mem _ (List.mem_map_of_mem ht)
  generalize driver.derivedOf snap.logicalName = tags at hrest
  have h1 := hstep table snap (List.mem_cons_self ..) hstamp h0
  generalize storeSnapshot driver now table snap = table' at h1
  induction tags generalizing table' with
  | nil => exact h1
  | cons tag tags ih =>
    refine ih (fun t ht => hrest t (List.mem_cons_of_mem _ ht)) _ (hstep _ _ ?_ ?_ h1)
    · rw [derive_logicalName]
      exact hrest tag (by simp)
    · intro h
      rw [derive_pollRead]
      exact hgated (quality_of_derive h)

/-- **Induction over the stores of a publication**: each store is of a published name, and a
snapshot that is good before its gate carries the stamp of the read. -/
theorem publishItem_induct {item : TagRuntime} {read : LogixReadResult} {table : TagTable}
    {now : Instant} (hread : read.Named item) (h0 : P table)
    (hstep : ∀ table s, s.logicalName ∈ driver.publishedNames item →
      (s.quality = 1 → s.pollRead = readStamp driver read) → P table →
      P (storeSnapshot driver now.steady table s)) :
    P (publishItem driver item read table now) := by
  have hfailed : ∀ name table, (failedSnapshot driver item name table now.system).quality ≠ 1 :=
    fun _ _ h => by cases h
  unfold publishItem
  dsimp only
  split
  · rename_i hc
    have hnames : driver.publishedNames item = driver.withDerived item.name := if_pos hc
    have hname : (scalarSnapshot driver item read (readStamp driver read) table
        now.system).logicalName = item.name := by
      unfold scalarSnapshot
      split
      · exact hread.snapshot hc ‹_›
      · rfl
    refine storeWithDerived_induct (readStamp driver read) h0 (fun h => ?_) (fun table s hs => ?_)
    · unfold scalarSnapshot at h ⊢
      split
      · rfl
      · rw [if_neg ‹_›] at h
        exact absurd h (hfailed _ _)
    · rw [hname, ← hnames] at hs
      exact hstep table s hs
  · rename_i hc
    have hnames : driver.publishedNames item = item.name ::
        (List.range item.cfg.elemCount).flatMap fun i =>
          driver.withDerived (elementName item.name i) := if_neg hc
    have hrow := hstep table (arrayRowSnapshot driver item read (readStamp driver read) now.system)
      (by rw [hnames]; exact List.mem_cons_self ..) (fun _ => rfl) h0
    have hin : ∀ i ∈ List.range item.cfg.elemCount, ∀ n ∈ driver.withDerived
        (elementName item.name i), n ∈ driver.publishedNames item := by
      intro i hi n hn
      rw [hnames]
      exact List.mem_cons_of_mem _ (List.mem_flatMap.2 ⟨i, hi, hn⟩)
    generalize List.range item.cfg.elemCount = idx at hin
    generalize storeSnapshot driver now.steady table
      (arrayRowSnapshot driver item read (readStamp driver read) now.system) = table' at hrow
    clear hnames
    induction idx generalizing table' with
    | nil => exact hrow
    | cons i idx ih =>
      refine ih (fun j hj => hin j (List.mem_cons_of_mem _ hj)) _ (storeWithDerived_induct
        (readStamp driver read) hrow (fun h => ?_) fun table s hs => ?_)
      · unfold elementSnapshot at h ⊢
        split
        · rfl
        · rename_i hnone
          rw [hnone] at h
          exact absurd h (hfailed _ _)
      · refine hstep table s (hin i (by simp) _ ?_)
        have hname : (elementSnapshot driver item read (readStamp driver read) table'
            now.system i).logicalName = elementName item.name i := by
          unfold elementSnapshot
          split
          · rename_i element he
            split at he
            · exact hread.elements i element he
            · cases he
          · rfl
        rwa [hname] at hs

end

/-! ## What a publication leaves -/

theorem DriverContext.derivedOf_nodup (driver : DriverContext) (source : String) :
    ((driver.derivedOf source).map TagRuntime.name).Nodup := by
  have htags : driver.tags.Nodup := driver.names_nodup.of_map _
  refine List.Nodup.map_on (fun a ha b hb hab => ?_) ?_
  · exact List.inj_on_of_nodup_map driver.names_nodup (mem_derivedOf.1 ha).1 (mem_derivedOf.1 hb).1
      hab
  · refine List.nodup_append.2 ⟨htags.filter _, htags.filter _, fun a ha b hb hab => ?_⟩
    -- a tag has a bit or has none
    subst hab
    simp only [derivedBits, derivedAliases, List.mem_filter, Bool.and_eq_true,
      Option.isSome_iff_ne_none, Option.isNone_iff_eq_none] at ha hb
    exact ha.2.2 hb.2.2

section
variable {driver : DriverContext} {now : Nat} {source : String} {src : TagSnapshot}
  {table : TagTable}

theorem foldl_store_other {tags : List TagRuntime} {name : String}
    (h : ∀ tag ∈ tags, name ≠ tag.name) :
    tags.foldl (fun table tag => storeSnapshot driver now table (derive driver.conn src tag)) table
      (driver.key name) = table (driver.key name) := by
  induction tags generalizing table with
  | nil => rfl
  | cons tag tags ih =>
    rw [List.foldl_cons, ih fun t ht => h t (List.mem_cons_of_mem _ ht)]
    exact storeSnapshot_ne (by rw [derive_logicalName]; exact h tag (by simp))

/-- A derived tag is stored once. -/
theorem storeDerived_mem {tag : TagRuntime} (ht : tag ∈ driver.derivedOf source) :
    storeDerived driver now source src table (driver.key tag.name) =
      some (applyPollCacheGate driver (derive driver.conn src tag) now) := by
  have hn := driver.derivedOf_nodup source
  unfold storeDerived
  generalize driver.derivedOf source = tags at ht hn
  induction tags generalizing table with
  | nil => cases ht
  | cons t tags ih =>
    rw [List.map_cons, List.nodup_cons] at hn
    rw [List.foldl_cons]
    rcases List.mem_cons.1 ht with rfl | ht
    · -- the tags after it have other names
      rw [foldl_store_other fun t ht he => hn.1 (List.mem_map.2 ⟨t, ht, he.symm⟩)]
      have hself := storeSnapshot_self driver now table (derive driver.conn src tag)
      rwa [derive_logicalName] at hself
    · exact ih ht hn.2

theorem storeWithDerived_other {snap : TagSnapshot} {name : String}
    (h : name ∉ driver.withDerived snap.logicalName) :
    storeWithDerived driver now table snap (driver.key name) = table (driver.key name) := by
  rw [DriverContext.withDerived, List.mem_cons, not_or] at h
  unfold storeWithDerived
  rw [storeDerived, foldl_store_other fun tag ht he => h.2 (List.mem_map.2 ⟨tag, ht, he.symm⟩),
    storeSnapshot_ne h.1]

/-- A name that the item does not publish keeps its entry. -/
theorem publishItem_other {item : TagRuntime} {read : LogixReadResult} {name : String}
    {moment : Instant} (hread : read.Named item) (h : name ∉ driver.publishedNames item) :
    publishItem driver item read table moment (driver.key name) = table (driver.key name) := by
  refine publishItem_induct (P := fun t => t (driver.key name) = table (driver.key name)) hread rfl
    fun t s hs _ ih => ?_
  have hne : name ≠ s.logicalName := fun he => h (he ▸ hs)
  rw [storeSnapshot_ne hne]
  exact ih

/-- What derives from the scalar that an item publishes. -/
theorem publishItem_scalar_derived {item tag : TagRuntime} {read : LogixReadResult}
    {moment : Instant} (hread : read.Named item) (hc : item.cfg.elemCount ≤ 1)
    (hok : read.ok = true) (ht : tag ∈ driver.derivedOf item.name) :
    publishItem driver item read table moment (driver.key tag.name) =
      some (applyPollCacheGate driver (derive driver.conn (applyPollCacheGate driver
        { read.snapshot with pollRead := readStamp driver read } moment.steady) tag)
        moment.steady) := by
  have hname := hread.snapshot hc hok
  unfold publishItem
  rw [if_pos hc, scalarSnapshot, if_pos hok]
  exact storeDerived_mem (hname ▸ ht)

/-- What derives from an element that an item publishes, where no later element has the derived
name. -/
theorem publishItem_element_derived {item tag : TagRuntime} {read : LogixReadResult}
    {moment : Instant} {i : Nat} {element : TagSnapshot} (hread : read.Named item)
    (hc : 1 < item.cfg.elemCount) (hok : read.ok = true) (hi : i < item.cfg.elemCount)
    (he : read.elements[i]? = some element) (ht : tag ∈ driver.derivedOf (elementName item.name i))
    (hlater : ∀ j, i < j → j < item.cfg.elemCount → tag.name ≠ elementName item.name j) :
    publishItem driver item read table moment (driver.key tag.name) =
      some (applyPollCacheGate driver (derive driver.conn (applyPollCacheGate driver
        { element with pollRead := readStamp driver read } moment.steady) tag) moment.steady) := by
  have hsnap : ∀ table, elementSnapshot driver item read (readStamp driver read) table
      moment.system i = { element with pollRead := readStamp driver read } := by
    intro table
    unfold elementSnapshot
    rw [if_pos hok, he]
  have hname : ∀ table j, (elementSnapshot driver item read (readStamp driver read) table
      moment.system j).logicalName = elementName item.name j := by
    intro table j
    unfold elementSnapshot
    split
    · rename_i e hj
      rw [if_pos hok] at hj
      exact hread.elements j e hj
    · rfl
  -- the later elements and what derives from them have other names
  have hother : ∀ table j, i < j → j < item.cfg.elemCount →
      storeWithDerived driver moment.steady table (elementSnapshot driver item read
        (readStamp driver read) table moment.system j) (driver.key tag.name) =
        table (driver.key tag.name) := by
    intro table j hij hj
    refine storeWithDerived_other fun hm => ?_
    rw [hname] at hm
    rcases List.mem_cons.1 hm with hm | hm
    · exact hlater j hij hj hm
    · obtain ⟨t, ht', hn⟩ := List.mem_map.1 hm
      obtain ⟨hmem, -, hsrc, -⟩ := DriverContext.mem_derivedOf.1 ht
      obtain ⟨hmem', -, hsrc', -⟩ := DriverContext.mem_derivedOf.1 ht'
      rw [List.inj_on_of_nodup_map driver.names_nodup hmem' hmem hn, hsrc] at hsrc'
      exact absurd (elementName_inj.1 hsrc') (by omega)
  have hself : ∀ table, storeWithDerived driver moment.steady table (elementSnapshot driver item read
      (readStamp driver read) table moment.system i) (driver.key tag.name) =
      some (applyPollCacheGate driver (derive driver.conn (applyPollCacheGate driver
        { element with pollRead := readStamp driver read } moment.steady) tag) moment.steady) := by
    intro table
    have hn := hname table i
    rw [hsnap] at hn ⊢
    exact storeDerived_mem (hn ▸ ht)
  unfold publishItem
  rw [if_neg (by omega)]
  generalize storeSnapshot driver moment.steady table
    (arrayRowSnapshot driver item read (readStamp driver read) moment.system) = table'
  have hall : ∀ j ∈ List.range item.cfg.elemCount, j < item.cfg.elemCount :=
    fun j hj => List.mem_range.1 hj
  have hmem : i ∈ List.range item.cfg.elemCount := List.mem_range.2 hi
  have hsorted := List.pairwise_lt_range (n := item.cfg.elemCount)
  generalize List.range item.cfg.elemCount = idx at hall hmem hsorted
  -- from the step of the element on the entry stays
  have hstay : ∀ (idx : List Nat) table', (∀ j ∈ idx, i < j ∧ j < item.cfg.elemCount) →
      idx.foldl (fun table j => storeWithDerived driver moment.steady table (elementSnapshot driver
        item read (readStamp driver read) table moment.system j)) table' (driver.key tag.name) =
      table' (driver.key tag.name) := by
    intro idx
    induction idx with
    | nil => exact fun _ _ => rfl
    | cons j idx ih =>
      intro table' hlater'
      obtain ⟨hij, hj⟩ := hlater' j (by simp)
      rw [List.foldl_cons, ih _ fun k hk => hlater' k (List.mem_cons_of_mem _ hk)]
      exact hother table' j hij hj
  induction idx generalizing table' with
  | nil => cases hmem
  | cons j idx ih =>
    have hall' : ∀ k ∈ idx, k < item.cfg.elemCount := fun k hk => hall k (List.mem_cons_of_mem _ hk)
    rw [List.pairwise_cons] at hsorted
    rw [List.foldl_cons]
    rcases List.mem_cons.1 hmem with rfl | hin
    · rw [hstay idx _ fun k hk => ⟨hsorted.1 k hk, hall' k hk⟩]
      exact hself table'
    · exact ih _ hall' hin hsorted.2

end

end OpcBridge
