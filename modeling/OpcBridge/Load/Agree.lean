import OpcBridge.Load.Writable

/-!
# The two loaders on one connection

`targetedJob` and `fullJob` say what the loaders build for a connection. They pick the first and the
last of several connection files, a tag file by its canonical name or by its claim, and differ on
tags without a connection file; and only the full loader normalises the writability of MQTT tags.
`loaders_agree_iff` collects when the drivers are the same nevertheless.
-/

namespace OpcBridge

open Lib

section
variable [Floats]

/-! ## What the loaders build -/

namespace ConfigDir

/-- The file, if it can be read and is the connection's. -/
def own (connId : String) : Option (Except String TagFile) → Option TagFile
  | some (.ok tf) => if tf.connectionId = connId then some tf else none
  | some (.error _) => none
  | none => none

theorem own_eq_some {connId : String} {file : Option (Except String TagFile)} {tf : TagFile} :
    own connId file = some tf ↔ file = some (.ok tf) ∧ tf.connectionId = connId := by
  unfold own
  rcases file with _ | ex | tf'
  · simp
  · simp
  · dsimp only
    constructor
    · intro h
      split at h
      · rename_i hown
        obtain rfl := Option.some.inj h
        exact ⟨rfl, hown⟩
      · cases h
    · rintro ⟨h, hown⟩
      obtain rfl := Except.ok.inj (Option.some.inj h)
      exact if_pos hown

/-- What the loader of one connection builds. -/
def targetedJob (dir : ConfigDir) (connId : String) : Option DriverBuildJob :=
  if connId = "" then none
  else if isMemoryConnectionId connId then
    (own connId (dir.canonicalTagFile connId)).bind fun tf =>
      if tf.tags.all isMemoryTag then some { connCfg := memoryConnection connId, tags := tf.tags }
      else none
  else
    match (dir.connectionsOf connId).head? with
    | none => none
    | some conn =>
      if conn.enabled then
        (own connId (dir.targetedTagFile connId)).map fun tf => { connCfg := conn, tags := tf.tags }
      else none

variable {dir : ConfigDir} {connId : String}

theorem fullJob_eq (dir : ConfigDir) (connId : String) :
    dir.fullJob connId =
      match (dir.connectionsOf connId).getLast? with
      | some conn =>
        if conn.enabled then (dir.fullTagFile connId).map fun tf =>
          { connCfg := conn, tags := normalizedTags conn tf.tags }
        else none
      | none => (dir.fullTagFile connId).bind fun tf =>
        if tf.tags ≠ [] ∧ tf.tags.all isMemoryTag = true then
          some { connCfg := memoryConnection connId, tags := tf.tags }
        else none := by
  unfold fullJob
  rw [find_connectionMap, find_tagsByConn]
  cases hconn : (dir.connectionsOf connId).getLast? with
  | some conn =>
    dsimp only
    unfold connectionJob
    rw [find_tagsByConn]
    cases conn.enabled with
    | false => rfl
    | true =>
      cases dir.fullTagFile connId with
      | none => rfl
      | some tf => rfl
  | none =>
    have hcontains : dir.connectionMap.contains connId = false := by
      unfold SortedMap.contains
      rw [find_connectionMap, hconn]
      rfl
    cases dir.fullTagFile connId with
    | none => rfl
    | some tf =>
      show dir.memoryJob connId tf.tags = _
      unfold memoryJob
      rw [hcontains, Bool.false_or, Option.bind_some]
      cases tf.tags with
      | nil => rfl
      | cons tag tags =>
        cases (tag :: tags).all isMemoryTag with
        | false => simp
        | true => simp

end ConfigDir

theorem loadSingleDriver_driver (epoch : String → Nat) (dir : ConfigDir) (connId : String)
    (allowRemoved : Bool) :
    (loadSingleDriverForConnection epoch dir connId allowRemoved).toOption.join =
      (dir.targetedJob connId).map (buildDriver epoch) := by
  unfold loadSingleDriverForConnection ConfigDir.targetedJob
  by_cases hid : connId = ""
  · rw [if_pos hid, if_pos hid]
    rfl
  · rw [if_neg hid, if_neg hid]
    by_cases hmem : isMemoryConnectionId connId = true
    · rw [if_pos hmem, if_pos hmem]
      rcases dir.canonicalTagFile connId with _ | ex | tf
      · rfl
      · rfl
      · unfold ConfigDir.own
        by_cases hown : tf.connectionId = connId
        · dsimp only
          rw [if_neg (not_not.2 hown), if_pos hown, Option.bind_some]
          cases tf.tags.all isMemoryTag with
          | false => rfl
          | true => rfl
        · dsimp only
          rw [if_pos hown, if_neg hown]
          rfl
    · rw [if_neg hmem, if_neg hmem]
      cases hdir : dir.connections with
      | none =>
        have hnil : dir.connectionsOf connId = [] := by
          unfold ConfigDir.connectionsOf ConfigDir.connectionFiles
          rw [hdir]
          rfl
        rw [hnil]
        rfl
      | some connDir =>
        rw [← ConfigDir.findConnection_connectionsOf hdir]
        dsimp only
        generalize ConfigDir.findConnection connId (connDir.files [".json"]) false = found
        obtain ⟨_ | conn, failed⟩ := found
        · dsimp only
          cases allowRemoved && !failed with
          | false => rfl
          | true => rfl
        · dsimp only
          cases conn.enabled with
          | false => rfl
          | true =>
            rcases dir.targetedTagFile connId with _ | ex | tf
            · rfl
            · rfl
            · unfold ConfigDir.own
              by_cases hown : tf.connectionId = connId
              · simp [hown, Except.toOption]
              · simp [hown, Except.toOption]

/-! ## The canonical file of the memory connection -/

omit [Floats] in
/-- An extension of the tag files, put after a name, is its extension. -/
theorem extension_append {id : String} (hid : id ≠ "") {ext : List Char} (hdot : '.' ∉ ext)
    (hext : ext ≠ []) :
    extension (id ++ String.ofList ('.' :: ext)) = String.ofList ('.' :: ext) := by
  unfold extension
  rw [String.toList_append, String.toList_ofList, splitLast_append hdot]
  refine if_neg ?_
  rintro (hstem | hdots)
  · exact hid (String.toList_inj.1 hstem)
  · have hl := congrArg String.toList hdots
    rw [String.toList_append, String.toList_ofList] at hl
    have hlast : ext.getLast hext = '.' := by
      have h1 : (id.toList ++ '.' :: ext).getLast? = some '.' := by rw [hl]; rfl
      rw [List.getLast?_append, List.getLast?_cons, List.getLast?_eq_some_getLast hext] at h1
      simpa using h1
    exact hdot (hlast ▸ List.getLast_mem hext)

omit [Floats] in
theorem isMemoryConnectionId_path {connId : String} (h : isMemoryConnectionId connId = true) :
    '/' ∉ connId.toList := by
  intro hmem
  have htrim := mem_trimChars hmem (by decide)
  unfold isMemoryConnectionId trimCopy at h
  have hl := congrArg String.toList (eq_of_beq h)
  rw [String.toList_ofList] at hl
  rw [hl] at htrim
  exact absurd htrim (by decide)

namespace ConfigDir
variable {dir : ConfigDir} {connId : String}

/-- A file is named once. -/
theorem candidates_unique {x y : TagFileChoice} (hx : x ∈ dir.candidates) (hy : y ∈ dir.candidates)
    (h : x.filename = y.filename) : x = y := by
  obtain ⟨-, tagDir, hdir, hentry, -⟩ := mem_candidates.1 hx
  obtain ⟨-, tagDir', hdir', hentry', -⟩ := mem_candidates.1 hy
  rw [hdir, Option.some.injEq] at hdir'
  subst hdir'
  have hlookup := tagDir.lookup_file _ _ hentry
  rw [h, tagDir.lookup_file _ _ hentry', Option.some.injEq, Except.ok.injEq] at hlookup
  cases x
  cases y
  cases h
  cases hlookup
  rfl

theorem find_filename {arr : List TagFileChoice} {x : TagFileChoice} (hx : x ∈ arr)
    (huniq : ∀ y ∈ arr, y.filename = x.filename → y = x) :
    arr.find? (fun y => y.filename == x.filename) = some x := by
  cases h : arr.find? fun y => y.filename == x.filename with
  | none => exact absurd (beq_self_eq_true x.filename) (List.find?_eq_none.1 h x hx)
  | some y =>
    have hname : y.filename = x.filename := by simpa using List.find?_some h
    rw [huniq y (List.mem_of_find?_eq_some h) hname]

/-- The canonical file of a connection without a separator in its id is the full loader's choice, if
it is the connection's. -/
theorem fullTagFile_of_canonical {tf : TagFile} (hpath : '/' ∉ connId.toList) (hid : connId ≠ "")
    (h : own connId (dir.canonicalTagFile connId) = some tf) :
    dir.fullTagFile connId = some tf := by
  unfold canonicalTagFile at h
  cases hdir : dir.tags with
  | none => simp [hdir, own] at h
  | some tagDir =>
    simp only [hdir] at h
    -- the file is a candidate under its name
    have hchoice : ∀ ext : List Char, '.' ∉ ext → ext ≠ [] → '/' ∉ ext →
        String.ofList ('.' :: ext) ∈ tagExtensions →
        tagDir.lookup (connId ++ String.ofList ('.' :: ext)) = some (.ok tf) →
        tf.connectionId = connId →
        ({ filename := connId ++ String.ofList ('.' :: ext), file := tf } : TagFileChoice) ∈
          dir.byCid connId := by
      intro ext hdot hne hsep hmem hlookup hown
      refine List.mem_filter.2 ⟨mem_candidates.2 ⟨hown ▸ hid, tagDir, hdir, ?_, ?_⟩, by simpa⟩
      · refine tagDir.entry_of_lookup _ tf ?_ hlookup
        rw [String.toList_append, String.toList_ofList, List.mem_append, List.mem_cons]
        rintro (hslash | hslash | hslash)
        · exact hpath hslash
        · exact absurd hslash (by decide)
        · exact hsep hslash
      · rw [extension_append hid hdot hne]
        exact hmem
    have huniq : ∀ x ∈ dir.byCid connId, ∀ y ∈ dir.byCid connId, y.filename = x.filename → y = x :=
      fun x hx y hy hname =>
        candidates_unique (List.mem_filter.1 hy).1 (List.mem_filter.1 hx).1 hname
    have hjson := hchoice ['j', 's', 'o', 'n'] (by decide) (by decide) (by decide) (by decide)
    have hjsonc := hchoice ['j', 's', 'o', 'n', 'c'] (by decide) (by decide) (by decide) (by decide)
    unfold fullTagFile chooseTagFile
    obtain ⟨hcanonical, hown⟩ := own_eq_some.1 h
    rcases Option.or_eq_some_iff.1 hcanonical with hlookup | ⟨hlookup, hlookupc⟩
    · have hmem := hjson hlookup hown
      have hfind := find_filename hmem (huniq _ hmem)
      rw [show (connId ++ ".json") = connId ++ String.ofList ['.', 'j', 's', 'o', 'n'] from rfl,
        hfind]
      rfl
    · have hnone : (dir.byCid connId).find? (fun x => x.filename == connId ++ ".json") = none := by
        refine List.find?_eq_none.2 fun x hx hname => ?_
        obtain ⟨-, tagDir', hdir', hentry, -⟩ := mem_candidates.1 (List.mem_filter.1 hx).1
        rw [hdir, Option.some.injEq] at hdir'
        subst hdir'
        rw [← eq_of_beq hname, tagDir.lookup_file _ _ hentry] at hlookup
        cases hlookup
      have hmem := hjsonc hlookupc hown
      have hfind := find_filename hmem (huniq _ hmem)
      rw [hnone, Option.none_or, show (connId ++ ".jsonc") =
        connId ++ String.ofList ['.', 'j', 's', 'o', 'n', 'c'] from rfl, hfind]
      rfl

end ConfigDir

/-! ## Agreement -/

/-- The connection gets a driver from both loads or from neither, with the same configurations. -/
def LoadersAgree (dir : ConfigDir) (connId : String) : Prop :=
  ∀ epoch epoch' allowRemoved,
    (loadSingleDriverForConnection epoch dir connId allowRemoved).toOption.join.map
      DriverContext.config =
    ((loadAllDrivers epoch' dir).find? fun d => d.conn.id == connId).map DriverContext.config

/-- The full loader builds tags without a connection file: some, and only memory tags. -/
def ConfigDir.Virtual (dir : ConfigDir) (connId : String) : Prop :=
  ∃ tf, dir.fullTagFile connId = some tf ∧ tf.tags ≠ [] ∧ tf.tags.all isMemoryTag = true

/-- The memory connection: a canonical file of memory tags is not empty, no other file serves in its
place, and no connection file has the id, unless neither loader builds it. -/
structure MemoryMatch (dir : ConfigDir) (connId : String) : Prop where
  canonical : dir.connectionsOf connId = [] → ∀ tf,
    ConfigDir.own connId (dir.canonicalTagFile connId) = some tf →
    tf.tags.all isMemoryTag = true → tf.tags ≠ []
  other : dir.connectionsOf connId = [] →
    ConfigDir.own connId (dir.canonicalTagFile connId) = none → ¬ dir.Virtual connId
  connection : ∀ conn, (dir.connectionsOf connId).getLast? = some conn →
    (∀ tf, ConfigDir.own connId (dir.canonicalTagFile connId) = some tf →
      tf.tags.all isMemoryTag = false) ∧
    (conn.enabled = true → dir.fullTagFile connId = none)

/-- The entries come to the same tags: the same entries, none of them with a writability that the
topics override; or others that come to the same. -/
def EntriesMatch (conn : ConnectionConfig) (targeted full : List TagConfig) : Prop :=
  (targeted = full → KeepsWritability conn full) ∧
    (targeted ≠ full → tagConfigs conn targeted = tagConfigs conn (normalizedTags conn full))

/-- An ordinary connection: it has a file or no virtual tags; its first and its last file and the two
tag files lead to a driver together; and then the connection is the same and the entries match. -/
structure ConnectionMatch (dir : ConfigDir) (connId : String) : Prop where
  missing : dir.connectionsOf connId = [] → ¬ dir.Virtual connId
  loads : ∀ first last, (dir.connectionsOf connId).head? = some first →
    (dir.connectionsOf connId).getLast? = some last →
    (first.enabled = true ∧ (ConfigDir.own connId (dir.targetedTagFile connId)).isSome = true ↔
      last.enabled = true ∧ (dir.fullTagFile connId).isSome = true)
  same : ∀ first last targeted full, (dir.connectionsOf connId).head? = some first →
    (dir.connectionsOf connId).getLast? = some last → first.enabled = true →
    ConfigDir.own connId (dir.targetedTagFile connId) = some targeted →
    dir.fullTagFile connId = some full →
    first = last ∧ EntriesMatch last targeted.tags full.tags

def LoadersMatch (dir : ConfigDir) (connId : String) : Prop :=
  connId ≠ "" → if isMemoryConnectionId connId then MemoryMatch dir connId
    else ConnectionMatch dir connId

def DriverBuildJob.config (job : DriverBuildJob) : ConnectionConfig × List TagConfig :=
  (job.connCfg, tagConfigs job.connCfg job.tags)

variable {dir : ConfigDir} {connId : String}

theorem loadersAgree_iff_jobs : LoadersAgree dir connId ↔
    (dir.targetedJob connId).map DriverBuildJob.config =
      (dir.fullJob connId).map DriverBuildJob.config := by
  have hview : ∀ (epoch : String → Nat) (job : Option DriverBuildJob),
      (job.map (buildDriver epoch)).map DriverContext.config = job.map DriverBuildJob.config := by
    intro epoch job
    rw [Option.map_map]
    rfl
  unfold LoadersAgree
  constructor
  · intro h
    have h0 := h (fun _ => 0) (fun _ => 0) false
    rwa [loadSingleDriver_driver, find_loadAllDrivers, hview, hview] at h0
  · intro h epoch epoch' allowRemoved
    rwa [loadSingleDriver_driver, find_loadAllDrivers, hview, hview]

omit [Floats] in
theorem memoryConnection_not_loaded (id : String) : ¬ (memoryConnection id).Loaded := by
  show "memory" ∉ ["ab_eip", "modbus_tcp", "mqtt", "opcua_client"]
  decide

/-- The memory connection without a connection file. -/
theorem memory_agree_virtual (hid : connId ≠ "") (hmem : isMemoryConnectionId connId = true)
    (hnil : dir.connectionsOf connId = []) :
    ((dir.targetedJob connId).map DriverBuildJob.config =
      (dir.fullJob connId).map DriverBuildJob.config) ↔ MemoryMatch dir connId := by
  have hconnection : ∀ conn, (dir.connectionsOf connId).getLast? ≠ some conn := by
    rw [hnil]
    intro conn h
    cases h
  rw [ConfigDir.fullJob_eq, hnil]
  unfold ConfigDir.targetedJob
  rw [if_neg hid, if_pos hmem]
  simp only [List.getLast?_nil]
  cases hown : ConfigDir.own connId (dir.canonicalTagFile connId) with
  | some tf =>
    have hfull := ConfigDir.fullTagFile_of_canonical (isMemoryConnectionId_path hmem) hid hown
    rw [hfull, Option.bind_some, Option.bind_some]
    constructor
    · intro h
      refine ⟨fun _ tf' htf' hall hempty => ?_, fun _ hnone => ?_, fun conn h => absurd h (hconnection conn)⟩
      · obtain rfl := Option.some.inj (hown.symm.trans htf')
        rw [if_pos hall, if_neg fun h => h.1 hempty] at h
        cases h
      · rw [hown] at hnone
        cases hnone
    · intro h
      have hne := h.canonical hnil tf hown
      cases hall : tf.tags.all isMemoryTag with
      | true => rw [if_pos rfl, if_pos ⟨hne hall, rfl⟩]
      | false => rw [if_neg (by decide), if_neg fun h => absurd h.2 (by decide)]
  | none =>
    rw [Option.bind_none, Option.map_none]
    have hnone : ((dir.fullTagFile connId).bind fun tf =>
        if tf.tags ≠ [] ∧ tf.tags.all isMemoryTag = true then
          some ({ connCfg := memoryConnection connId, tags := tf.tags } : DriverBuildJob)
        else none) = none ↔ ¬ dir.Virtual connId := by
      unfold ConfigDir.Virtual
      cases dir.fullTagFile connId with
      | none => simp
      | some tf => simp
    rw [eq_comm, Option.map_eq_none_iff, hnone]
    constructor
    · intro h
      refine ⟨fun _ tf htf => ?_, fun _ _ => h, fun conn h => absurd h (hconnection conn)⟩
      rw [hown] at htf
      cases htf
    · intro h
      exact h.other hnil hown

/-- The memory connection with a connection file: the drivers cannot be the same. -/
theorem memory_agree_connection (hid : connId ≠ "") (hmem : isMemoryConnectionId connId = true)
    {last : ConnectionConfig} (hlast : (dir.connectionsOf connId).getLast? = some last) :
    ((dir.targetedJob connId).map DriverBuildJob.config =
      (dir.fullJob connId).map DriverBuildJob.config) ↔ MemoryMatch dir connId := by
  have hnil : dir.connectionsOf connId ≠ [] := by
    intro h
    rw [h] at hlast
    cases hlast
  have hloaded := (ConfigDir.mem_connectionsOf (List.mem_of_mem_getLast? hlast)).1
  have htargeted : dir.targetedJob connId = none ↔
      ∀ tf, ConfigDir.own connId (dir.canonicalTagFile connId) = some tf →
        tf.tags.all isMemoryTag = false := by
    unfold ConfigDir.targetedJob
    rw [if_neg hid, if_pos hmem]
    cases ConfigDir.own connId (dir.canonicalTagFile connId) with
    | none => simp
    | some tf => cases tf.tags.all isMemoryTag <;> simp
  have hfull : dir.fullJob connId = none ↔
      (last.enabled = true → dir.fullTagFile connId = none) := by
    rw [ConfigDir.fullJob_eq, hlast]
    cases hen : last.enabled with
    | false => simp [hen]
    | true => simp [hen]
  have hmatch : MemoryMatch dir connId ↔
      dir.targetedJob connId = none ∧ dir.fullJob connId = none := by
    rw [htargeted, hfull]
    constructor
    · intro h
      exact h.connection last hlast
    · intro h
      refine ⟨fun h' => absurd h' hnil, fun h' => absurd h' hnil, fun conn hconn => ?_⟩
      obtain rfl := Option.some.inj (hlast.symm.trans hconn)
      exact h
  rw [hmatch]
  constructor
  · intro h
    cases ht : dir.targetedJob connId with
    | none =>
      rw [ht, Option.map_none, eq_comm, Option.map_eq_none_iff] at h
      exact ⟨rfl, h⟩
    | some job =>
      exfalso
      rw [ht, Option.map_some, eq_comm, Option.map_eq_some_iff] at h
      obtain ⟨job', hjob', hconfig⟩ := h
      have hconn : job.connCfg = memoryConnection connId := by
        unfold ConfigDir.targetedJob at ht
        rw [if_neg hid, if_pos hmem] at ht
        obtain ⟨tf, -, htf⟩ := Option.bind_eq_some_iff.1 ht
        split at htf
        · obtain rfl := Option.some.inj htf
          rfl
        · cases htf
      have hconn' : job'.connCfg = last := by
        unfold ConfigDir.fullJob at hjob'
        rw [ConfigDir.find_connectionMap, hlast] at hjob'
        exact ConfigDir.connectionJob_id hjob'
      have heq : job'.connCfg = job.connCfg := congrArg Prod.fst hconfig
      rw [hconn, hconn'] at heq
      exact memoryConnection_not_loaded connId (heq ▸ hloaded)
  · rintro ⟨h1, h2⟩
    rw [h1, h2]

/-- An ordinary connection. -/
theorem connection_agree (hid : connId ≠ "") (hmem : isMemoryConnectionId connId = false) :
    ((dir.targetedJob connId).map DriverBuildJob.config =
      (dir.fullJob connId).map DriverBuildJob.config) ↔ ConnectionMatch dir connId := by
  rw [ConfigDir.fullJob_eq]
  unfold ConfigDir.targetedJob
  rw [if_neg hid, hmem, if_neg (by decide)]
  cases hlast : (dir.connectionsOf connId).getLast? with
  | none =>
    have hnil : dir.connectionsOf connId = [] := List.getLast?_eq_none_iff.1 hlast
    rw [hnil]
    have hnone : ((dir.fullTagFile connId).bind fun tf =>
        if tf.tags ≠ [] ∧ tf.tags.all isMemoryTag = true then
          some ({ connCfg := memoryConnection connId, tags := tf.tags } : DriverBuildJob)
        else none) = none ↔ ¬ dir.Virtual connId := by
      unfold ConfigDir.Virtual
      cases dir.fullTagFile connId with
      | none => simp
      | some tf => simp
    show none = Option.map _ _ ↔ _
    rw [eq_comm, Option.map_eq_none_iff, hnone]
    constructor
    · intro h
      refine ⟨fun _ => h, fun first last hfirst => ?_, fun first last _ _ hfirst => ?_⟩
      · rw [hnil] at hfirst
        cases hfirst
      · rw [hnil] at hfirst
        cases hfirst
    · intro h
      exact h.missing hnil
  | some last =>
    obtain ⟨first, hfirst⟩ : ∃ first, (dir.connectionsOf connId).head? = some first := by
      cases h : dir.connectionsOf connId with
      | nil =>
        rw [h] at hlast
        cases hlast
      | cons c cs => exact ⟨c, rfl⟩
    have hnil : dir.connectionsOf connId ≠ [] := by
      intro h
      rw [h] at hlast
      cases hlast
    rw [hfirst]
    dsimp only
    -- the condition about these two files
    have hmatch : ConnectionMatch dir connId ↔
        (first.enabled = true ∧ (ConfigDir.own connId (dir.targetedTagFile connId)).isSome = true ↔
          last.enabled = true ∧ (dir.fullTagFile connId).isSome = true) ∧
        ∀ targeted full, first.enabled = true →
          ConfigDir.own connId (dir.targetedTagFile connId) = some targeted →
          dir.fullTagFile connId = some full →
          first = last ∧ EntriesMatch last targeted.tags full.tags := by
      constructor
      · intro h
        exact ⟨h.loads first last hfirst hlast, fun t f => h.same first last t f hfirst hlast⟩
      · intro h
        refine ⟨fun h' => absurd h' hnil, fun first' last' hfirst' hlast' => ?_,
          fun first' last' t f hfirst' hlast' => ?_⟩
        · obtain rfl := Option.some.inj (hfirst.symm.trans hfirst')
          obtain rfl := Option.some.inj (hlast.symm.trans hlast')
          exact h.1
        · obtain rfl := Option.some.inj (hfirst.symm.trans hfirst')
          obtain rfl := Option.some.inj (hlast.symm.trans hlast')
          exact h.2 t f
    rw [hmatch]
    cases hown : ConfigDir.own connId (dir.targetedTagFile connId) with
    | none => cases hfull : dir.fullTagFile connId <;> cases first.enabled <;> cases last.enabled <;> simp
    | some targeted =>
      cases hfull : dir.fullTagFile connId with
      | none => cases first.enabled <;> cases last.enabled <;> simp
      | some full =>
        have hentries : first = last →
            (tagConfigs first targeted.tags = tagConfigs last (normalizedTags last full.tags) ↔
              EntriesMatch last targeted.tags full.tags) := by
          rintro rfl
          unfold EntriesMatch
          by_cases heq : targeted.tags = full.tags
          · rw [heq, eq_comm, tagConfigs_normalized full.loaded]
            simp
          · simp [heq]
        cases hen : first.enabled with
        | false => cases last.enabled <;> simp
        | true =>
          cases last.enabled with
          | false => simp
          | true =>
            simp only [if_true, Option.map_some, Option.some.injEq, Option.isSome_some, and_self,
              true_and, DriverBuildJob.config, Prod.mk.injEq, forall_const, iff_self]
            constructor
            · rintro ⟨hconn, htags⟩ t f rfl rfl
              exact ⟨hconn, (hentries hconn).1 htags⟩
            · intro h
              obtain ⟨hconn, hmatch⟩ := h targeted full rfl rfl
              exact ⟨hconn, (hentries hconn).2 hmatch⟩

end

/-! ## MQTT -/

section
attribute [local instance] intFloats

/-- A subscription of an MQTT connection whose tag file calls it writable. -/
def mqttDir : ConfigDir where
  connections := some (.ofFiles [("mq.json",
    ⟨{ id := "mq", driver := "mqtt", plcType := "mqtt", mqttSubscriptionTopics := ["plant"] },
      by decide⟩)] (by decide))
  tags := some (.ofFiles [("mq.json",
    { connectionId := "mq"
      tags := [{ logicalName := "plant/level", plcTagName := "plant/level", datatype := "int32",
                 writable := true }]
      loaded := by
        intro tc htc
        rw [List.mem_singleton.1 htc]
        exact ⟨by decide, by decide, by decide, by decide⟩ })] (by decide))

end

end OpcBridge
