import OpcBridge.Load.Agree

/-!
# The cache after a reload

The two branches of the reload in the main loop. A full reload replaces all drivers, clears the tag
table and seeds every enabled memory tag; a targeted reload replaces one driver, erases the rows of
its connection and seeds memory tags for the memory connection only. `targeted_reload_ok` says when
the rows of the connection are the same after both.
-/

namespace OpcBridge

open Lib

section
variable [Floats]

/-! ## The reload -/

/-- What a reload replaces. -/
structure RuntimeCache where
  drivers : List DriverContext
  tagTable : TagTable
  tagRuntimeIndex : String → Option (Nat × Nat)

/-- The keys of the tags with their coordinates, in the order of the loops. -/
def coordinates (drivers : List DriverContext) : List (String × Nat × Nat) :=
  drivers.zipIdx.flatMap fun d => d.1.tags.zipIdx.map fun t => (d.1.key t.1.name, d.2, t.2)

def rebuildTagRuntimeIndex (drivers : List DriverContext) : String → Option (Nat × Nat) :=
  assignAll (fun _ => none) (coordinates drivers)

/-- A tag that is seeded. -/
def TagRuntime.seeded (t : TagRuntime) : Bool := t.cfg.enabled && isMemoryTag t.cfg

def memorySeeds (now : Instant) (driver : DriverContext) : List (String × TagSnapshot) :=
  (driver.tags.filter TagRuntime.seeded).map fun t =>
    (driver.key t.name, makeInitialSnapshotForTag driver.conn t 1 now)

def seedMemoryTagTable (now : Instant) (drivers : List DriverContext) (table : TagTable) :
    TagTable :=
  assignAll table (drivers.flatMap (memorySeeds now))

/-- The driver of the connection is replaced, erased or appended. -/
def swapDriver (connId : String) (newDriver : Option DriverContext) :
    List DriverContext → List DriverContext
  | [] => newDriver.toList
  | d :: drivers =>
    if d.conn.id = connId then newDriver.toList ++ drivers
    else d :: swapDriver connId newDriver drivers

def eraseRows (connId : String) (table : TagTable) : TagTable := fun key =>
  (table key).filter fun snap => snap.connectionId != connId

/-- The targeted branch; the error is the one reported by the main loop. -/
def targetedReload (now : Instant) (epoch : String → Nat) (dir : ConfigDir) (connId : String)
    (cache : RuntimeCache) : RuntimeCache × Except String Unit :=
  let previouslyConfigured := cache.drivers.any fun d => d.conn.id == connId
  match loadSingleDriverForConnection epoch dir connId previouslyConfigured with
  | .error err =>
    (cache, .error (if err = "" then "Connection reload failed (see server log for details)."
      else err))
  | .ok newDriver =>
    let drivers := swapDriver connId newDriver cache.drivers
    let erased := eraseRows connId cache.tagTable
    let tagTable :=
      if newDriver.isSome && isMemoryConnectionId connId then
        match drivers.find? fun d => d.conn.id == connId with
        | some d => assignAll erased (memorySeeds now d)
        | none => erased
      else erased
    ({ drivers := drivers, tagTable := tagTable,
       tagRuntimeIndex := rebuildTagRuntimeIndex drivers }, .ok ())

/-- The full branch. -/
def fullReload (now : Instant) (epoch : String → Nat) (dir : ConfigDir) : RuntimeCache :=
  let drivers := loadAllDrivers epoch dir
  { drivers := drivers
    tagTable := seedMemoryTagTable now drivers fun _ => none
    tagRuntimeIndex := rebuildTagRuntimeIndex drivers }

/-! ## The index -/

theorem mem_coordinates {drivers : List DriverContext} {key : String} {i j : Nat} :
    (key, i, j) ∈ coordinates drivers ↔ ∃ d t, drivers[i]? = some d ∧ d.tags[j]? = some t ∧
      d.key t.name = key := by
  unfold coordinates
  rw [List.mem_flatMap]
  constructor
  · rintro ⟨⟨d, i'⟩, hd, hkey⟩
    obtain ⟨⟨t, j'⟩, ht, heq⟩ := List.mem_map.1 hkey
    obtain ⟨rfl, rfl, rfl⟩ : d.key t.name = key ∧ i' = i ∧ j' = j := by simpa using heq
    exact ⟨d, t, List.mem_zipIdx_iff_getElem?.1 hd, List.mem_zipIdx_iff_getElem?.1 ht, rfl⟩
  · rintro ⟨d, t, hd, ht, rfl⟩
    exact ⟨(d, i), List.mem_zipIdx_iff_getElem?.2 hd,
      List.mem_map.2 ⟨(t, j), List.mem_zipIdx_iff_getElem?.2 ht, rfl⟩⟩

def driverKeys (d : DriverContext) : List String := d.tags.map fun t => d.key t.name

theorem driverKeys_nodup (d : DriverContext) : (driverKeys d).Nodup := by
  have hmap : driverKeys d = (d.tags.map TagRuntime.name).map d.key := by
    unfold driverKeys
    rw [List.map_map]
    rfl
  rw [hmap]
  exact d.names_nodup.map fun a b h => makeTagKey_inj.1 h

theorem coordinates_keys (drivers : List DriverContext) :
    (coordinates drivers).map Prod.fst = drivers.flatMap driverKeys := by
  have hgen : ∀ n, (drivers.zipIdx n).flatMap (fun d => driverKeys d.1) =
      drivers.flatMap driverKeys := by
    induction drivers with
    | nil => exact fun _ => rfl
    | cons d drivers ih =>
      intro n
      rw [List.zipIdx_cons, List.flatMap_cons, List.flatMap_cons, ih]
  rw [← hgen 0]
  unfold coordinates
  rw [List.map_flatMap]
  congr 1
  funext d
  rw [List.map_map]
  unfold driverKeys
  have hfst : d.1.tags.zipIdx.map Prod.fst = d.1.tags := List.zipIdx_map_fst 0 d.1.tags
  have hkey := congrArg (List.map fun t => d.1.key t.name) hfst
  rw [List.map_map] at hkey
  exact hkey

theorem coordinates_nodup (drivers : List DriverContext) : (coordinates drivers).Nodup := by
  have hidx : ∀ {α : Type} (l : List α), (l.zipIdx.map Prod.snd).Nodup := by
    intro α l
    rw [List.zipIdx_map_snd]
    exact List.nodup_range'
  unfold coordinates
  rw [List.nodup_flatMap]
  constructor
  · intro d _
    refine List.Nodup.of_map (fun x => x.2.2) ?_
    rw [List.map_map]
    exact hidx d.1.tags
  · have hpair := hidx drivers
    rw [List.Nodup, List.pairwise_map] at hpair
    refine hpair.imp fun {a b} hab x hxa hxb => ?_
    obtain ⟨t, -, rfl⟩ := List.mem_map.1 hxa
    obtain ⟨t', -, heq⟩ := List.mem_map.1 hxb
    exact hab (congrArg (fun x => x.2.1) heq).symm

/-- The index maps exactly the keys to their coordinates when no two tags share a key. -/
theorem index_exact (drivers : List DriverContext) :
    (∀ key i j, rebuildTagRuntimeIndex drivers key = some (i, j) ↔
      ∃ d t, drivers[i]? = some d ∧ d.tags[j]? = some t ∧ d.key t.name = key) ↔
    (drivers.flatMap driverKeys).Nodup := by
  rw [← coordinates_keys]
  simp only [rebuildTagRuntimeIndex, assignAll_apply, Option.or_none, ← mem_coordinates]
  constructor
  · intro h
    exact nodup_of_lastValue (coordinates_nodup drivers) fun key x hx => (h key x.1 x.2).2 hx
  · intro h key i j
    exact lastValue_of_nodup h

/-! ## Seeds -/

/-- An entry that gets its name is a memory tag, and no entry disables the name. -/
def MemoryName (entries : List TagConfig) (name : String) : Prop :=
  ∃ before tc after, entries = before ++ tc :: after ∧ tc.logicalName = name ∧
    name ∉ claimedNames before ∧ isMemoryTag tc = true ∧ name ∉ disabledNames entries

theorem rootTag_memory {conn : ConnectionConfig} {tc : TagConfig} (h : isMemoryTag tc = true) :
    rootTag conn tc = makeRoot tc false := by
  unfold rootTag
  simp [h]

theorem scheduleNextPeriodic_cfg (rt : TagRuntime) : (scheduleNextPeriodic rt).cfg = rt.cfg := rfl

theorem isMemoryTag_rootTag (conn : ConnectionConfig) (tc : TagConfig) :
    isMemoryTag (rootTag conn tc).cfg = isMemoryTag tc := by
  have hroot : ∀ deferred, isMemoryTag (makeRoot tc deferred).cfg = isMemoryTag tc := by
    intro deferred
    unfold isMemoryTag
    rw [(makeRoot_spec tc deferred).2.2.2.1]
  unfold rootTag
  dsimp only
  generalize (tc.enabled && !isMemoryTag tc && tc.sourceTag == "" &&
    !isOpcuaClientDriverName conn.driver) = deferred
  split
  · rw [scheduleNextPeriodic_cfg]
    exact hroot deferred
  · exact hroot deferred

theorem seeded_applyDisabled (names : List String) (t : TagRuntime) :
    (applyDisabled names t).seeded = (t.seeded && decide (t.name ∉ names)) := by
  unfold applyDisabled TagRuntime.seeded
  split
  · rename_i h
    simp [h]
  · rename_i h
    simp [h]

/-- What is seeded: the roots of the memory names. -/
theorem mem_memorySeeds {epoch : String → Nat} {job : DriverBuildJob} {now : Instant}
    (h : ∀ tc ∈ job.tags, tc.Loaded) {key : String} {snap : TagSnapshot} :
    (key, snap) ∈ memorySeeds now (buildDriver epoch job) ↔
      ∃ before tc after, job.tags = before ++ tc :: after ∧
        tc.logicalName ∉ claimedNames before ∧ isMemoryTag tc = true ∧
        tc.logicalName ∉ disabledNames job.tags ∧ key = makeTagKey job.connCfg.id tc.logicalName ∧
        snap = makeInitialSnapshotForTag job.connCfg (makeRoot tc false) 1 now := by
  unfold memorySeeds
  rw [List.mem_map]
  constructor
  · rintro ⟨t, ht, heq⟩
    obtain ⟨hmem, hseeded⟩ := List.mem_filter.1 ht
    obtain ⟨rfl, rfl⟩ := Prod.mk.inj heq
    obtain ⟨before, tc, after, hsplit, hfree, rfl | ⟨hg, i, -, -, rfl⟩⟩ := (mem_driver_tags h).1 hmem
    · rw [seeded_applyDisabled, Bool.and_eq_true, rootTag_name, decide_eq_true_eq] at hseeded
      have hmemory : isMemoryTag tc = true := by
        rw [← isMemoryTag_rootTag job.connCfg]
        exact (Bool.and_eq_true _ _ ▸ hseeded.1 : _ ∧ _).2
      refine ⟨before, tc, after, hsplit, hfree, hmemory, hseeded.2, ?_, ?_⟩
      · rw [applyDisabled_name, rootTag_name]
        rfl
      · rw [show applyDisabled (disabledNames job.tags) (rootTag job.connCfg tc) =
          rootTag job.connCfg tc from if_neg (by rw [rootTag_name]; exact hseeded.2),
          rootTag_memory hmemory]
        rfl
    · -- a memory tag generates no elements
      exfalso
      rw [seeded_applyDisabled, Bool.and_eq_true] at hseeded
      have hmemory : isMemoryTag tc = true := (Bool.and_eq_true _ _ ▸ hseeded.1 : _ ∧ _).2
      unfold TagConfig.generates at hg
      rw [hmemory] at hg
      simp at hg
  · rintro ⟨before, tc, after, hsplit, hfree, hmemory, hen, hkey, hsnap⟩
    have happly : applyDisabled (disabledNames job.tags) (rootTag job.connCfg tc) =
        makeRoot tc false := by
      rw [← @rootTag_memory _ job.connCfg tc hmemory]
      exact if_neg (by rw [rootTag_name]; exact hen)
    have hmem : makeRoot tc false ∈ (buildDriver epoch job).tags :=
      (mem_driver_tags h).2 ⟨before, tc, after, hsplit, hfree, .inl happly.symm⟩
    refine ⟨makeRoot tc false, List.mem_filter.2 ⟨hmem, ?_⟩, ?_⟩
    · have hon : tc.enabled = true := by
        cases hoff : tc.enabled with
        | true => rfl
        | false => exact absurd (mem_disabledNames.2 ⟨tc, by rw [hsplit]; simp, hoff, rfl⟩) hen
      unfold TagRuntime.seeded
      rw [← @rootTag_memory _ job.connCfg tc hmemory, isMemoryTag_rootTag, hmemory,
        rootTag_memory hmemory, (makeRoot_spec tc false).2.2.1, hon]
      rfl
    · rw [makeRoot_name, hkey, hsnap]
      rfl

theorem memorySeeds_keys {epoch : String → Nat} {job : DriverBuildJob} {now : Instant}
    (h : ∀ tc ∈ job.tags, tc.Loaded) {key : String} :
    key ∈ (memorySeeds now (buildDriver epoch job)).map Prod.fst ↔
      ∃ name, MemoryName job.tags name ∧ key = makeTagKey job.connCfg.id name := by
  rw [List.mem_map]
  constructor
  · rintro ⟨⟨k, snap⟩, hmem, rfl⟩
    obtain ⟨before, tc, after, hsplit, hfree, hmemory, hen, hkey, -⟩ := (mem_memorySeeds h).1 hmem
    exact ⟨tc.logicalName, ⟨before, tc, after, hsplit, rfl, hfree, hmemory, hen⟩, hkey⟩
  · rintro ⟨name, ⟨before, tc, after, hsplit, rfl, hfree, hmemory, hen⟩, rfl⟩
    exact ⟨_, (mem_memorySeeds h).2 ⟨before, tc, after, hsplit, hfree, hmemory, hen, rfl, rfl⟩, rfl⟩

theorem memorySeeds_nodup (now : Instant) (d : DriverContext) :
    ((memorySeeds now d).map Prod.fst).Nodup := by
  have hkeys : (memorySeeds now d).map Prod.fst =
      (d.tags.filter TagRuntime.seeded).map fun t => d.key t.name := by
    unfold memorySeeds
    rw [List.map_map]
    rfl
  rw [hkeys]
  exact (driverKeys_nodup d).sublist (List.filter_sublist.map _)

/-! ## Rows -/

/-- The datatype, the value and the quality of a row. -/
def TagSnapshot.content (snap : TagSnapshot) : String × TagValue × Nat :=
  (snap.datatype, snap.value, snap.quality)

/-- The content of a key, if it is a row of the connection. -/
def rowOf (connId : String) (table : TagTable) (key : String) : Option (String × TagValue × Nat) :=
  ((table key).filter fun snap => snap.connectionId == connId).map TagSnapshot.content

theorem initialSnapshot_connectionId (conn : ConnectionConfig) (t : TagRuntime) (quality : Nat)
    (now : Instant) : (makeInitialSnapshotForTag conn t quality now).connectionId = conn.id := by
  unfold makeInitialSnapshotForTag
  dsimp only
  split
  · split
    · rfl
    · rfl
  · rfl

/-- The content of an initial snapshot is a matter of the tag, and not of its writability. -/
theorem initialSnapshot_content (conn conn' : ConnectionConfig) (t : TagRuntime) (quality : Nat)
    (now now' : Instant) (w : String → Bool → Bool) :
    (makeInitialSnapshotForTag conn' (t.setWritable w) quality now').content =
      (makeInitialSnapshotForTag conn t quality now).content := by
  unfold makeInitialSnapshotForTag TagSnapshot.content
  dsimp only
  by_cases hinit : isMemoryTag t.cfg = true ∧ t.cfg.initialValue ≠ ""
  · rw [if_pos hinit, if_pos (show isMemoryTag (t.setWritable w).cfg = true ∧
      (t.setWritable w).cfg.initialValue ≠ "" from hinit)]
    rw [show (t.setWritable w).cfg.initialValue = t.cfg.initialValue from rfl,
      show (t.setWritable w).cfg.datatype = t.cfg.datatype from rfl]
    cases parseStringToTagvalue t.cfg.initialValue t.cfg.datatype with
    | none => rfl
    | some value => rfl
  · rw [if_neg hinit, if_neg (show ¬ (isMemoryTag (t.setWritable w).cfg = true ∧
      (t.setWritable w).cfg.initialValue ≠ "") from hinit)]
    rfl

/-! ## The two branches -/

/-- What the targeted branch seeds. -/
def targetedSeeds (now : Instant) (epoch : String → Nat) (dir : ConfigDir) (connId : String) :
    List (String × TagSnapshot) :=
  if isMemoryConnectionId connId then
    ((dir.targetedJob connId).map fun job => memorySeeds now (buildDriver epoch job)).getD []
  else []

theorem targetedJob_id {dir : ConfigDir} {connId : String} {job : DriverBuildJob}
    (h : dir.targetedJob connId = some job) :
    job.connCfg.id = connId ∧ ∀ tc ∈ job.tags, tc.Loaded := by
  unfold ConfigDir.targetedJob at h
  split at h
  · cases h
  · split at h
    · obtain ⟨tf, -, htf⟩ := Option.bind_eq_some_iff.1 h
      split at htf
      · obtain rfl := Option.some.inj htf
        exact ⟨rfl, tf.loaded⟩
      · cases htf
    · split at h
      · cases h
      · rename_i conn hconn
        split at h
        · obtain ⟨tf, -, rfl⟩ := Option.map_eq_some_iff.1 h
          exact ⟨(ConfigDir.mem_connectionsOf (List.mem_of_mem_head? hconn)).2, tf.loaded⟩
        · cases h

theorem find_swapDriver {connId : String} {d : DriverContext} (hid : d.conn.id = connId)
    (drivers : List DriverContext) :
    (swapDriver connId (some d) drivers).find? (fun d => d.conn.id == connId) = some d := by
  induction drivers with
  | nil => simp [swapDriver, hid]
  | cons d' drivers ih =>
    unfold swapDriver
    split
    · simp [hid]
    · rename_i hne
      rw [List.find?_cons_of_neg (by simpa using hne)]
      exact ih

variable {now : Instant} {epoch : String → Nat} {dir : ConfigDir} {connId : String}
  {cache : RuntimeCache}

theorem targetedReload_error {err : String}
    (h : (targetedReload now epoch dir connId cache).2 = .error err) :
    (targetedReload now epoch dir connId cache).1 = cache := by
  unfold targetedReload at h ⊢
  dsimp only at h ⊢
  split
  · rfl
  · rename_i newDriver hload
    rw [hload] at h
    cases h

/-- The cache after a targeted reload. -/
theorem targetedReload_ok (h : (targetedReload now epoch dir connId cache).2 = .ok ()) :
    (targetedReload now epoch dir connId cache).1 =
      { drivers := swapDriver connId ((dir.targetedJob connId).map (buildDriver epoch))
          cache.drivers
        tagTable := assignAll (eraseRows connId cache.tagTable) (targetedSeeds now epoch dir connId)
        tagRuntimeIndex := rebuildTagRuntimeIndex
          (swapDriver connId ((dir.targetedJob connId).map (buildDriver epoch)) cache.drivers) } := by
  have hdriver := loadSingleDriver_driver epoch dir connId
    (cache.drivers.any fun d => d.conn.id == connId)
  unfold targetedReload at h ⊢
  dsimp only at h ⊢
  split
  · rename_i err hload
    rw [hload] at h
    cases h
  · rename_i newDriver hload
    rw [hload] at hdriver
    have hnew : newDriver = (dir.targetedJob connId).map (buildDriver epoch) := hdriver
    subst hnew
    unfold targetedSeeds
    cases hjob : dir.targetedJob connId with
    | none =>
      simp only [Option.map_none, Option.isSome_none, Bool.false_and, Bool.false_eq_true, if_false,
        Option.getD_none, ite_self]
      rfl
    | some job =>
      have hid : (buildDriver epoch job).conn.id = connId := (targetedJob_id hjob).1
      simp only [Option.map_some, Option.isSome_some, Bool.true_and, Option.getD_some,
        find_swapDriver hid]
      split
      · rfl
      · rfl

/-! ## The rows of a connection -/

/-- The targeted branch seeds the key. -/
def TargetedSeed (dir : ConfigDir) (connId key : String) : Prop :=
  isMemoryConnectionId connId = true ∧ ∃ job name, dir.targetedJob connId = some job ∧
    MemoryName job.tags name ∧ key = makeTagKey connId name

/-- The full load seeds the key for the connection, and for no connection after it. -/
def FullSeed (dir : ConfigDir) (connId key : String) : Prop :=
  ∃ before job after, dir.jobs = before ++ job :: after ∧ job.connCfg.id = connId ∧
    (∃ name, MemoryName job.tags name ∧ key = makeTagKey connId name) ∧
    ∀ job' ∈ after, ∀ name, MemoryName job'.tags name → key ≠ makeTagKey job'.connCfg.id name

theorem targetedSeeds_keys {key : String} :
    key ∈ (targetedSeeds now epoch dir connId).map Prod.fst ↔ TargetedSeed dir connId key := by
  unfold targetedSeeds TargetedSeed
  cases isMemoryConnectionId connId with
  | false => simp
  | true =>
    cases hjob : dir.targetedJob connId with
    | none => simp
    | some job =>
      obtain ⟨hid, hloaded⟩ := targetedJob_id hjob
      simp only [if_true, Option.map_some, Option.getD_some, true_and, Option.some.injEq]
      rw [memorySeeds_keys hloaded, hid]
      constructor
      · rintro ⟨name, hname, hkey⟩
        exact ⟨job, name, rfl, hname, hkey⟩
      · rintro ⟨_, name, rfl, hname, hkey⟩
        exact ⟨name, hname, hkey⟩

theorem memorySeeds_connectionId {job : DriverBuildJob} {key : String} {snap : TagSnapshot}
    (h : (key, snap) ∈ memorySeeds now (buildDriver epoch job)) :
    snap.connectionId = job.connCfg.id := by
  obtain ⟨t, -, heq⟩ := List.mem_map.1 h
  obtain ⟨-, rfl⟩ := Prod.mk.inj heq
  exact initialSnapshot_connectionId _ t 1 now

theorem mem_targetedSeeds {key : String} {snap : TagSnapshot}
    (h : (key, snap) ∈ targetedSeeds now epoch dir connId) :
    isMemoryConnectionId connId = true ∧ ∃ job, dir.targetedJob connId = some job ∧
      (key, snap) ∈ memorySeeds now (buildDriver epoch job) := by
  unfold targetedSeeds at h
  split at h
  · rename_i hmem
    cases hjob : dir.targetedJob connId with
    | none =>
      rw [hjob] at h
      cases h
    | some job =>
      rw [hjob] at h
      exact ⟨hmem, job, rfl, h⟩
  · cases h

theorem targetedSeeds_connectionId {key : String} {snap : TagSnapshot}
    (h : (key, snap) ∈ targetedSeeds now epoch dir connId) : snap.connectionId = connId := by
  obtain ⟨-, job, hjob, hmem⟩ := mem_targetedSeeds h
  rw [memorySeeds_connectionId hmem, (targetedJob_id hjob).1]

/-- After the targeted branch the rows of the connection are its seeds. -/
theorem rowOf_targeted (key : String) :
    rowOf connId (assignAll (eraseRows connId cache.tagTable)
        (targetedSeeds now epoch dir connId)) key =
      (lastValue key (targetedSeeds now epoch dir connId)).map TagSnapshot.content := by
  unfold rowOf
  rw [assignAll_apply]
  cases hlast : lastValue key (targetedSeeds now epoch dir connId) with
  | some snap =>
    rw [Option.some_or, Option.filter_some,
      if_pos (by simpa using targetedSeeds_connectionId (mem_of_lastValue hlast))]
  | none =>
    rw [Option.none_or]
    unfold eraseRows
    cases cache.tagTable key with
    | none => rfl
    | some snap =>
      simp

/-- The rows after the full branch. -/
theorem fullReload_row {key : String} {snap : TagSnapshot} :
    (fullReload now epoch dir).tagTable key = some snap ↔
      ∃ before job after, dir.jobs = before ++ job :: after ∧
        (key, snap) ∈ memorySeeds now (buildDriver epoch job) ∧
        ∀ job' ∈ after, key ∉ (memorySeeds now (buildDriver epoch job')).map Prod.fst := by
  unfold fullReload seedMemoryTagTable loadAllDrivers
  dsimp only
  rw [assignAll_apply, Option.or_none, List.flatMap_map, lastValue_flatMap]
  simp only [lastValue_of_nodup (memorySeeds_nodup now _)]

theorem fullJob_tags {job : DriverBuildJob} (h : dir.fullJob connId = some job) :
    ∃ tf w, dir.fullTagFile connId = some tf ∧ job.tags = tf.tags.map (TagConfig.setWritable w) := by
  rw [ConfigDir.fullJob_eq] at h
  split at h
  · rename_i conn hconn
    split at h
    · obtain ⟨tf, htf, rfl⟩ := Option.map_eq_some_iff.1 h
      exact ⟨tf, mqttWritable conn, htf, rfl⟩
    · cases h
  · obtain ⟨tf, htf, hjob⟩ := Option.bind_eq_some_iff.1 h
    split at hjob
    · obtain rfl := Option.some.inj hjob
      refine ⟨tf, fun _ writable => writable, htf, ?_⟩
      exact (List.map_id tf.tags).symm
    · cases hjob

theorem fullJob_loaded {job : DriverBuildJob} (h : dir.fullJob connId = some job) :
    ∀ tc ∈ job.tags, tc.Loaded := by
  obtain ⟨tf, w, -, htags⟩ := fullJob_tags h
  intro tc htc
  rw [htags] at htc
  obtain ⟨tc', htc', rfl⟩ := List.mem_map.1 htc
  have hloaded := tf.loaded tc' htc'
  exact ⟨hloaded.supported, hloaded.elements, hloaded.derived, hloaded.memory⟩

theorem claimedNames_setWritable (w : String → Bool → Bool) (entries : List TagConfig) :
    claimedNames (entries.map (TagConfig.setWritable w)) = claimedNames entries := by
  unfold claimedNames
  rw [List.foldl_map]
  rfl

/-- A key that both branches seed for the memory connection has the same content. -/
theorem seeds_content {now' : Instant} {epoch' : String → Nat} {job : DriverBuildJob} {key : String}
    {snap snap' : TagSnapshot} (hsnap : (key, snap) ∈ targetedSeeds now epoch dir connId)
    (hjob : dir.fullJob connId = some job)
    (hsnap' : (key, snap') ∈ memorySeeds now' (buildDriver epoch' job)) :
    snap.content = snap'.content := by
  obtain ⟨hmem, targeted, htargeted, hseed⟩ := mem_targetedSeeds hsnap
  obtain ⟨hid, hloaded⟩ := targetedJob_id htargeted
  have hne : connId ≠ "" := by
    rintro rfl
    cases hmem
  -- both read the canonical file
  have hfile : dir.fullTagFile connId = some ⟨connId, targeted.tags, hloaded⟩ := by
    unfold ConfigDir.targetedJob at htargeted
    rw [if_neg hne, if_pos hmem] at htargeted
    obtain ⟨tf, hown, htf⟩ := Option.bind_eq_some_iff.1 htargeted
    have hfull := ConfigDir.fullTagFile_of_canonical (isMemoryConnectionId_path hmem) hne hown
    split at htf
    · obtain rfl := Option.some.inj htf
      rw [hfull]
      have htfid := (ConfigDir.own_eq_some.1 hown).2
      cases tf
      cases htfid
      rfl
    · cases htf
  obtain ⟨tf, w, htf, htags⟩ := fullJob_tags hjob
  rw [hfile] at htf
  obtain rfl := Option.some.inj htf
  obtain ⟨before, tc, after, hsplit, hfree, -, -, hkey, hsnap₁⟩ := (mem_memorySeeds hloaded).1 hseed
  obtain ⟨before', tc', after', hsplit', hfree', -, -, hkey', hsnap₂⟩ :=
    (mem_memorySeeds (fullJob_loaded hjob)).1 hsnap'
  rw [htags] at hsplit'
  obtain ⟨l₁, l₂, hl, rfl, hrest⟩ := List.map_eq_append_iff.1 hsplit'
  obtain ⟨tc'', l₃, rfl, rfl, rfl⟩ := List.map_eq_cons_iff.1 hrest
  rw [claimedNames_setWritable, TagConfig.setWritable_name] at hfree'
  rw [hkey, hid, (ConfigDir.fullJob_id hjob)] at hkey'
  have hname : tc.logicalName = tc''.logicalName := makeTagKey_inj.1 hkey'
  obtain ⟨-, rfl, -⟩ := split_unique (hsplit.symm.trans hl) hfree hfree' hname
  rw [hsnap₁, hsnap₂, makeRoot_setWritable, initialSnapshot_content]

/-- A row of the connection after the full branch is seeded by its job. -/
theorem fullReload_own {key : String} {snap : TagSnapshot}
    (h : (fullReload now epoch dir).tagTable key = some snap) (hconn : snap.connectionId = connId) :
    ∃ job, dir.fullJob connId = some job ∧ (key, snap) ∈ memorySeeds now (buildDriver epoch job) := by
  obtain ⟨before, job, after, hjobs, hseed, -⟩ := fullReload_row.1 h
  have hid : job.connCfg.id = connId := by rw [← memorySeeds_connectionId hseed, hconn]
  have hjob : job ∈ dir.jobs := by
    rw [hjobs]
    simp
  exact ⟨job, hid ▸ ConfigDir.mem_jobs.1 hjob, hseed⟩

/-- Where both branches seed the same keys for the connection, the rows are the same. -/
theorem rows_iff {now' : Instant} {epoch' : String → Nat} :
    (∀ key, rowOf connId (assignAll (eraseRows connId cache.tagTable)
        (targetedSeeds now epoch dir connId)) key =
      rowOf connId (fullReload now' epoch' dir).tagTable key) ↔
    ∀ key, TargetedSeed dir connId key ↔ FullSeed dir connId key := by
  refine forall_congr' fun key => ?_
  rw [rowOf_targeted]
  have htargeted : TargetedSeed dir connId key ↔
      ∃ snap, lastValue key (targetedSeeds now epoch dir connId) = some snap := by
    rw [← @targetedSeeds_keys _ now epoch, ← not_iff_not, ← lastValue_eq_none, not_exists,
      Option.eq_none_iff_forall_ne_some]
  have hfull : FullSeed dir connId key ↔ ∃ snap job,
      (fullReload now' epoch' dir).tagTable key = some snap ∧ snap.connectionId = connId ∧
        dir.fullJob connId = some job ∧
        (key, snap) ∈ memorySeeds now' (buildDriver epoch' job) := by
    have hloaded : ∀ job ∈ dir.jobs, ∀ tc ∈ job.tags, tc.Loaded := fun job hjob =>
      fullJob_loaded (ConfigDir.mem_jobs.1 hjob)
    constructor
    · rintro ⟨before, job, after, hjobs, hid, hname, hafter⟩
      have hjob : job ∈ dir.jobs := by
        rw [hjobs]
        simp
      rw [← hid, ← memorySeeds_keys (hloaded job hjob), List.mem_map] at hname
      obtain ⟨⟨k, snap⟩, hseed, rfl⟩ := hname
      refine ⟨snap, job, fullReload_row.2 ⟨before, job, after, hjobs, hseed, ?_⟩, ?_,
        hid ▸ ConfigDir.mem_jobs.1 hjob, hseed⟩
      · intro job' hjob' hkey
        have hmem' : job' ∈ dir.jobs := by
          rw [hjobs]
          simp [hjob']
        obtain ⟨name, hname, hk⟩ := (memorySeeds_keys (hloaded job' hmem')).1 hkey
        exact hafter job' hjob' name hname hk
      · rw [memorySeeds_connectionId hseed, hid]
    · rintro ⟨snap, -, hrow, hconn, -, -⟩
      obtain ⟨before, job, after, hjobs, hseed, hafter⟩ := fullReload_row.1 hrow
      have hid : job.connCfg.id = connId := by rw [← memorySeeds_connectionId hseed, hconn]
      have hjob : job ∈ dir.jobs := by
        rw [hjobs]
        simp
      refine ⟨before, job, after, hjobs, hid, ?_, fun job' hjob' name hname hk => ?_⟩
      · rw [← hid, ← @memorySeeds_keys _ epoch' job now' (hloaded job hjob)]
        exact List.mem_map.2 ⟨_, hseed, rfl⟩
      · have hmem' : job' ∈ dir.jobs := by
          rw [hjobs]
          simp [hjob']
        exact hafter job' hjob' ((memorySeeds_keys (hloaded job' hmem')).2 ⟨name, hname, hk⟩)
  rw [htargeted, hfull]
  constructor
  · intro h
    constructor
    · rintro ⟨snap, hsnap⟩
      rw [hsnap, Option.map_some] at h
      obtain ⟨snap', hsnap', -⟩ := Option.map_eq_some_iff.1 h.symm
      obtain ⟨hrow, hconn⟩ := Option.filter_eq_some_iff.1 hsnap'
      have hconn' : snap'.connectionId = connId := by simpa using hconn
      obtain ⟨job, hjob, hseed⟩ := fullReload_own hrow hconn'
      exact ⟨snap', job, hrow, hconn', hjob, hseed⟩
    · rintro ⟨snap, job, hrow, hconn, -, -⟩
      unfold rowOf at h
      rw [hrow, Option.filter_some, if_pos (by simpa using hconn), Option.map_some] at h
      obtain ⟨snap', hsnap', -⟩ := Option.map_eq_some_iff.1 h
      exact ⟨snap', hsnap'⟩
  · intro h
    cases hlast : lastValue key (targetedSeeds now epoch dir connId) with
    | some snap =>
      obtain ⟨snap', job, hrow, hconn, hjob, hseed⟩ := h.1 ⟨snap, hlast⟩
      unfold rowOf
      rw [hrow, Option.filter_some, if_pos (by simpa using hconn), Option.map_some, Option.map_some,
        seeds_content (mem_of_lastValue hlast) hjob hseed]
    | none =>
      cases hrow : rowOf connId (fullReload now' epoch' dir).tagTable key with
      | none => rfl
      | some content =>
        exfalso
        obtain ⟨snap', hsnap', -⟩ := Option.map_eq_some_iff.1 hrow
        obtain ⟨hrow', hconn⟩ := Option.filter_eq_some_iff.1 hsnap'
        have hconn' : snap'.connectionId = connId := by simpa using hconn
        obtain ⟨job, hjob, hseed⟩ := fullReload_own hrow' hconn'
        obtain ⟨snap, hsnap⟩ := h.2 ⟨snap', job, hrow', hconn', hjob, hseed⟩
        rw [hlast] at hsnap
        cases hsnap

/-- Only a seeded key takes a row from another connection. -/
theorem others_iff : (∀ key snap, snap.connectionId ≠ connId →
      (assignAll (eraseRows connId cache.tagTable) (targetedSeeds now epoch dir connId) key =
        some snap ↔ cache.tagTable key = some snap)) ↔
    ∀ key snap, TargetedSeed dir connId key → cache.tagTable key = some snap →
      snap.connectionId = connId := by
  constructor
  · intro h key snap hseed hrow
    by_contra hne
    have hkept := (h key snap hne).2 hrow
    rw [← @targetedSeeds_keys _ now epoch] at hseed
    rw [assignAll_apply] at hkept
    cases hlast : lastValue key (targetedSeeds now epoch dir connId) with
    | none => exact lastValue_eq_none.1 hlast hseed
    | some snap' =>
      rw [hlast, Option.some_or, Option.some.injEq] at hkept
      exact hne (hkept ▸ targetedSeeds_connectionId (mem_of_lastValue hlast))
  · intro h key snap hne
    rw [assignAll_apply]
    cases hlast : lastValue key (targetedSeeds now epoch dir connId) with
    | none =>
      rw [Option.none_or]
      unfold eraseRows
      rw [Option.filter_eq_some_iff]
      constructor
      · exact fun hkept => hkept.1
      · exact fun hrow => ⟨hrow, by simpa using hne⟩
    | some snap' =>
      rw [Option.some_or]
      have hseed : TargetedSeed dir connId key := by
        rw [← @targetedSeeds_keys _ now epoch]
        exact List.mem_map.2 ⟨(key, snap'), mem_of_lastValue hlast, rfl⟩
      constructor
      · intro hsnap
        obtain rfl := Option.some.inj hsnap
        exact absurd (targetedSeeds_connectionId (mem_of_lastValue hlast)) hne
      · exact fun hrow => absurd (h key snap hseed hrow) hne

/-! ## The keys of the installed drivers -/

/-- The drivers that stay. -/
def otherDrivers (connId : String) (drivers : List DriverContext) : List DriverContext :=
  drivers.eraseP fun d => d.conn.id == connId

theorem swapDriver_perm (connId : String) (newDriver : Option DriverContext)
    (drivers : List DriverContext) :
    (swapDriver connId newDriver drivers).Perm
      (newDriver.toList ++ otherDrivers connId drivers) := by
  unfold otherDrivers
  induction drivers with
  | nil => simp [swapDriver]
  | cons d drivers ih =>
    unfold swapDriver
    by_cases h : d.conn.id = connId
    · rw [if_pos h, List.eraseP_cons_of_pos (by simpa using h)]
    · rw [if_neg h, List.eraseP_cons_of_neg (by simpa using h)]
      exact (ih.cons d).trans List.perm_middle.symm

theorem driverKeys_build {job : DriverBuildJob} (h : ∀ tc ∈ job.tags, tc.Loaded) {key : String} :
    key ∈ driverKeys (buildDriver epoch job) ↔
      ∃ name ∈ claimedNames job.tags, key = makeTagKey job.connCfg.id name := by
  have hnames : ∀ name, name ∈ (buildDriver epoch job).tags.map TagRuntime.name ↔
      name ∈ claimedNames job.tags := by
    intro name
    show name ∈ ((buildTags job.connCfg job.tags).map _).map TagRuntime.name ↔ _
    rw [map_applyDisabled_name]
    exact seen_buildTags h
  unfold driverKeys
  rw [List.mem_map]
  constructor
  · rintro ⟨t, ht, rfl⟩
    exact ⟨t.name, (hnames t.name).1 (List.mem_map_of_mem ht), rfl⟩
  · rintro ⟨name, hname, rfl⟩
    obtain ⟨t, ht, rfl⟩ := List.mem_map.1 ((hnames name).2 hname)
    exact ⟨t, ht, rfl⟩

/-- The installed drivers have distinct keys: those that stay do, and no entry of the connection
claims one of them. -/
theorem keys_iff : ((swapDriver connId ((dir.targetedJob connId).map (buildDriver epoch))
      cache.drivers).flatMap driverKeys).Nodup ↔
    ((otherDrivers connId cache.drivers).flatMap driverKeys).Nodup ∧
      ∀ job, dir.targetedJob connId = some job → ∀ name ∈ claimedNames job.tags,
        makeTagKey connId name ∉ (otherDrivers connId cache.drivers).flatMap driverKeys := by
  rw [((swapDriver_perm connId _ cache.drivers).flatMap_right driverKeys).nodup_iff,
    List.flatMap_append]
  cases hjob : dir.targetedJob connId with
  | none => simp
  | some job =>
    obtain ⟨hid, hloaded⟩ := targetedJob_id hjob
    rw [Option.map_some, Option.toList_some, List.flatMap_singleton, List.nodup_append]
    constructor
    · rintro ⟨-, hothers, hdisjoint⟩
      refine ⟨hothers, fun job' hjob' name hname hmem => ?_⟩
      obtain rfl := Option.some.inj hjob'
      exact hdisjoint _ ((driverKeys_build hloaded).2 ⟨name, hname, rfl⟩) _ (hid ▸ hmem) rfl
    · rintro ⟨hothers, hfresh⟩
      refine ⟨driverKeys_nodup _, hothers, fun key hkey key' hkey' heq => ?_⟩
      obtain ⟨name, hname, rfl⟩ := (driverKeys_build hloaded).1 hkey
      refine hfresh job rfl name hname ?_
      rw [hid] at heq
      rwa [heq]

/-! ## The result -/

/-- The rows of the connection are those of a full reload, the rows of all others stay, and the index
maps exactly the keys of the installed drivers. -/
structure ReloadMatches (connId : String) (before after full : RuntimeCache) : Prop where
  rows : ∀ key, rowOf connId after.tagTable key = rowOf connId full.tagTable key
  others : ∀ key snap, snap.connectionId ≠ connId →
    (after.tagTable key = some snap ↔ before.tagTable key = some snap)
  index : ∀ key i j, after.tagRuntimeIndex key = some (i, j) ↔
    ∃ d t, after.drivers[i]? = some d ∧ d.tags[j]? = some t ∧ d.key t.name = key

/-- The targeted branch and the full load seed the same keys for the connection, no seeded key holds
a row of another connection, and no two tags share a key. -/
structure ReloadSafe (dir : ConfigDir) (connId : String) (cache : RuntimeCache) : Prop where
  seeds : ∀ key, TargetedSeed dir connId key ↔ FullSeed dir connId key
  rows : ∀ key snap, TargetedSeed dir connId key → cache.tagTable key = some snap →
    snap.connectionId = connId
  keys : ((otherDrivers connId cache.drivers).flatMap driverKeys).Nodup
  fresh : ∀ job, dir.targetedJob connId = some job → ∀ name ∈ claimedNames job.tags,
    makeTagKey connId name ∉ (otherDrivers connId cache.drivers).flatMap driverKeys

end

/-! ## Memory tags of a PLC connection -/

section
attribute [local instance] intFloats

/-- A connection with one PLC tag and one memory tag. -/
def recipeDir : ConfigDir where
  connections := some (.ofFiles [("plc.json", ⟨{ id := "plc", driver := "ab_eip" }, by decide⟩)]
    (by decide))
  tags := some (.ofFiles [("plc.json",
    { connectionId := "plc"
      tags := [{ logicalName := "level", plcTagName := "Level", datatype := "int32" },
        { logicalName := "setpoint", sourceType := "memory", datatype := "int32",
          initialValue := "5" }]
      loaded := by
        intro tc htc
        rcases List.mem_pair.1 htc with rfl | rfl
        · exact ⟨by decide +kernel, by decide +kernel, by decide +kernel, by decide +kernel⟩
        · exact ⟨by decide +kernel, by decide +kernel, by decide +kernel, by decide +kernel⟩ })]
    (by decide))

/-- The cache at the start of the program. -/
def emptyCache : RuntimeCache where
  drivers := []
  tagTable := fun _ => none
  tagRuntimeIndex := fun _ => none

end

end OpcBridge
