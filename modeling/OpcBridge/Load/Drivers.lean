import OpcBridge.Lib.Assign
import OpcBridge.Poll.Lanes
import Mathlib.Data.List.Sort
import Mathlib.Data.String.Basic

/-!
# The two loaders

A configuration directory has connection files and tag files. `load_all_drivers` reads all of them
and builds one driver for each connection; `load_single_driver_for_connection` reads the files of
one connection. The two choose files in their own ways, and only the first gives the tags of an MQTT
connection the writability that its topics imply.
-/

namespace OpcBridge

open Lib

/-! ## Directories -/

/-- An entry of a directory; the content is what the reader makes of the file, or why it throws. -/
inductive DirEntry (α : Type)
  | file (filename : String) (content : Except String α)
  | other (filename : String)

namespace DirEntry
variable {α : Type}

def filename : DirEntry α → String
  | file filename _ => filename
  | other filename => filename

end DirEntry

/-- `path::extension` of a file name. -/
def extension (filename : String) : String :=
  match splitLast '.' filename.toList with
  | some (stem, ext) => if stem = [] ∨ filename = ".." then "" else String.ofList ('.' :: ext)
  | none => ""

/-- A directory: its entries in the order of `directory_iterator`, and what a path below it names. -/
structure Dir (α : Type) where
  entries : List (DirEntry α)
  filenames_nodup : (entries.map DirEntry.filename).Nodup
  lookup : String → Option (Except String α)
  lookup_file : ∀ filename content, .file filename content ∈ entries →
    lookup filename = some content
  /-- A path without a separator names an entry, and only files can be read. -/
  entry_of_lookup : ∀ filename a, '/' ∉ filename.toList → lookup filename = some (.ok a) →
    .file filename (.ok a) ∈ entries

namespace Dir
variable {α : Type}

/-- The regular files with one of the extensions. -/
def files (dir : Dir α) (extensions : List String) : List (String × Except String α) :=
  dir.entries.filterMap fun
    | .file filename content =>
      if extension filename ∈ extensions then some (filename, content) else none
    | .other _ => none

theorem mem_files {dir : Dir α} {extensions : List String} {x : String × Except String α} :
    x ∈ dir.files extensions ↔ .file x.1 x.2 ∈ dir.entries ∧ extension x.1 ∈ extensions := by
  obtain ⟨filename, content⟩ := x
  unfold files
  rw [List.mem_filterMap]
  constructor
  · rintro ⟨e, he, h⟩
    cases e with
    | other _ => cases h
    | file f c =>
      dsimp only at h
      split at h
      · rename_i hext
        obtain ⟨rfl, rfl⟩ := Prod.mk.inj (Option.some.inj h)
        exact ⟨he, hext⟩
      · cases h
  · rintro ⟨he, hext⟩
    exact ⟨_, he, if_pos hext⟩

/-- The contents of the files that can be read, with their names. -/
def readable (dir : Dir α) (extensions : List String) : List (String × α) :=
  (dir.files extensions).filterMap fun x => x.2.toOption.map (x.1, ·)

theorem mem_readable {dir : Dir α} {extensions : List String} {x : String × α} :
    x ∈ dir.readable extensions ↔
      .file x.1 (.ok x.2) ∈ dir.entries ∧ extension x.1 ∈ extensions := by
  obtain ⟨filename, a⟩ := x
  unfold readable
  rw [List.mem_filterMap]
  constructor
  · rintro ⟨⟨f, c⟩, hmem, h⟩
    cases c with
    | error e => cases h
    | ok b =>
      obtain ⟨rfl, rfl⟩ := Prod.mk.inj (Option.some.inj h)
      exact mem_files.1 hmem
  · intro h
    exact ⟨(filename, .ok a), mem_files.2 h, rfl⟩

/-- A directory of readable files. -/
def ofFiles (files : List (String × α)) (h : (files.map Prod.fst).Nodup) : Dir α where
  entries := files.map fun x => .file x.1 (.ok x.2)
  filenames_nodup := by rwa [List.map_map]
  lookup filename := (lastValue filename files).map .ok
  lookup_file := by
    intro filename content hmem
    obtain ⟨x, hx, heq⟩ := List.mem_map.1 hmem
    obtain ⟨rfl, rfl⟩ := DirEntry.file.inj heq
    rw [(lastValue_of_nodup h).2 hx]
    rfl
  entry_of_lookup := by
    intro filename a _ hlookup
    obtain ⟨b, hb, heq⟩ := Option.map_eq_some_iff.1 hlookup
    obtain rfl := Except.ok.inj heq
    exact List.mem_map.2 ⟨(filename, b), mem_of_lastValue hb, rfl⟩

end Dir

section
variable [Floats]

/-! ## Files -/

/-- The drivers that `load_connection_config` knows, under the names it gives them. -/
def ConnectionConfig.Loaded (conn : ConnectionConfig) : Prop :=
  conn.driver ∈ ["ab_eip", "modbus_tcp", "mqtt", "opcua_client"]

instance (conn : ConnectionConfig) : Decidable conn.Loaded := inferInstanceAs (Decidable (_ ∈ _))

/-- A connection file as `load_connection_config` leaves it. -/
abbrev ConnectionFile := { conn : ConnectionConfig // conn.Loaded }

/-- A tag file as `load_tag_file` leaves it. -/
structure TagFile where
  connectionId : String
  tags : List TagConfig
  loaded : ∀ tc ∈ tags, tc.Loaded

/-- `connections/` and `tags/`; either may be missing. -/
structure ConfigDir where
  connections : Option (Dir ConnectionFile)
  tags : Option (Dir TagFile)

def tagExtensions : List String := [".json", ".jsonc"]

/-! ## MQTT names -/

def mqttIsSubscriptionTagName (name : String) : Bool := "/RawPayload".toList.isSuffixOf name.toList

def mqttNameMatchesTopicScope (name topic : String) : Bool :=
  if name = topic then true
  else if name.length ≤ topic.length then false
  else if !topic.toList.isPrefixOf name.toList then false
  else name.toList[topic.length]? == some '/'

def mqttNameMatchesAnyTopicScope (name : String) (topics : List String) : Bool :=
  topics.any fun topic => topic != "" && mqttNameMatchesTopicScope name topic

/-- The writability that the topics of an MQTT connection give to a tag. -/
def mqttWritable (conn : ConnectionConfig) (name : String) (writable : Bool) : Bool :=
  if toLowerCopy (trimCopy conn.driver) = "mqtt" then
    if mqttNameMatchesAnyTopicScope name conn.mqttSubscriptionTopics ||
        mqttIsSubscriptionTagName name then false
    else if mqttNameMatchesAnyTopicScope name conn.mqttPublicationTopics then true
    else writable
  else writable

def normalizeTag (conn : ConnectionConfig) (tag : TagConfig) : TagConfig :=
  { tag with writable := mqttWritable conn tag.logicalName tag.writable }

def normalizedTags (conn : ConnectionConfig) (tags : List TagConfig) : List TagConfig :=
  tags.map (normalizeTag conn)

/-! ## The full loader -/

/-- The virtual connection of memory tags. -/
def memoryConnection (id : String) : ConnectionConfig where
  id := id
  driver := "memory"
  plcType := "memory"
  pollingMode := "standard"
  pollingPacing := "gentle"

structure DriverBuildJob where
  connCfg : ConnectionConfig
  tags : List TagConfig

/-- A readable tag file that names a connection. -/
structure TagFileChoice where
  filename : String
  file : TagFile

namespace ConfigDir

/-- The readable connection files, in the order of the directory. -/
def connectionFiles (dir : ConfigDir) : List ConnectionConfig :=
  match dir.connections with
  | none => []
  | some connDir => (connDir.readable [".json"]).map fun x => x.2.1

def connectionMap (dir : ConfigDir) : SortedMap String ConnectionConfig :=
  .ofList (dir.connectionFiles.map fun conn => (conn.id, conn))

def candidates (dir : ConfigDir) : List TagFileChoice :=
  match dir.tags with
  | none => []
  | some tagDir => ((tagDir.readable tagExtensions).filter fun x => x.2.connectionId != "").map
      fun x => { filename := x.1, file := x.2 }

/-- The files that claim one connection: the canonical one, or the first by name. -/
def chooseTagFile (connId : String) (arr : List TagFileChoice) : Option TagFileChoice :=
  (arr.find? fun x => x.filename == connId ++ ".json").or <|
    (arr.find? fun x => x.filename == connId ++ ".jsonc").or
      (arr.insertionSort fun a b => a.filename ≤ b.filename).head?

def byCid (dir : ConfigDir) (connId : String) : List TagFileChoice :=
  dir.candidates.filter fun x => x.file.connectionId == connId

/-- The tag file that the full loader chooses for a connection. -/
def fullTagFile (dir : ConfigDir) (connId : String) : Option TagFile :=
  (chooseTagFile connId (dir.byCid connId)).map TagFileChoice.file

def tagsByConn (dir : ConfigDir) : SortedMap String (List TagConfig) :=
  .ofList (dir.candidates.filterMap fun x =>
    (dir.fullTagFile x.file.connectionId).map fun tf => (x.file.connectionId, tf.tags))

def connectionJob (dir : ConfigDir) (connId : String) (conn : ConnectionConfig) :
    Option DriverBuildJob :=
  if !conn.enabled then none
  else match dir.tagsByConn.find connId with
    | none => none
    | some tags => some { connCfg := conn, tags := normalizedTags conn tags }

/-- Tags without a connection are built if all of them are memory tags. -/
def memoryJob (dir : ConfigDir) (connId : String) (tags : List TagConfig) :
    Option DriverBuildJob :=
  if dir.connectionMap.contains connId || tags.isEmpty then none
  else if !tags.all isMemoryTag then none
  else some { connCfg := memoryConnection connId, tags := tags }

def jobs (dir : ConfigDir) : List DriverBuildJob :=
  dir.connectionMap.entries.filterMap (fun x => dir.connectionJob x.1 x.2) ++
    dir.tagsByConn.entries.filterMap fun x => dir.memoryJob x.1 x.2

end ConfigDir

/-- The epoch of a driver is drawn when it is built. -/
def buildDriver (epoch : String → Nat) (job : DriverBuildJob) : DriverContext :=
  buildDriverContextForConnection (epoch job.connCfg.id) job.connCfg job.tags

/-- `load_all_drivers`; it never fails. -/
def loadAllDrivers (epoch : String → Nat) (dir : ConfigDir) : List DriverContext :=
  dir.jobs.map (buildDriver epoch)

/-! ## The loader of one connection -/

namespace ConfigDir

/-- The first readable connection file with the id, and whether a file before it was unreadable. -/
def findConnection (connId : String) :
    List (String × Except String ConnectionFile) → Bool → Option ConnectionConfig × Bool
  | [], parseFailed => (none, parseFailed)
  | (_, .ok conn) :: files, parseFailed =>
    if conn.1.id = connId then (some conn.1, parseFailed) else findConnection connId files parseFailed
  | (_, .error _) :: files, _ => findConnection connId files true

/-- `tags/<id>.json` or else `tags/<id>.jsonc`. -/
def canonicalTagFile (dir : ConfigDir) (connId : String) : Option (Except String TagFile) :=
  match dir.tags with
  | none => none
  | some tagDir => (tagDir.lookup (connId ++ ".json")).or (tagDir.lookup (connId ++ ".jsonc"))

/-- The canonical file, or the first readable one that claims the connection. -/
def targetedTagFile (dir : ConfigDir) (connId : String) : Option (Except String TagFile) :=
  (dir.canonicalTagFile connId).or <|
    match dir.tags with
    | none => none
    | some tagDir => ((tagDir.readable tagExtensions).find? fun x =>
        x.2.connectionId == connId).map fun x => .ok x.2

end ConfigDir

/-- `load_single_driver_for_connection`: no driver is a success as well. An unreadable tag file throws
up to the main loop, which reports the exception. -/
def loadSingleDriverForConnection (epoch : String → Nat) (dir : ConfigDir) (connId : String)
    (allowRemoved : Bool) : Except String (Option DriverContext) :=
  if connId = "" then .error "Missing connection_id."
  else if isMemoryConnectionId connId then
    match dir.canonicalTagFile connId with
    | none => .ok none
    | some (.error ex) => .error ("Reload exception: " ++ ex)
    | some (.ok tf) =>
      if tf.connectionId ≠ connId then
        .error "Memory tag file connection_id does not match _memory."
      else if !tf.tags.all isMemoryTag then
        .error "The _memory tag file contains a non-memory tag."
      else .ok (some (buildDriver epoch { connCfg := memoryConnection connId, tags := tf.tags }))
  else
    match dir.connections with
    | none => .error "Connections directory does not exist."
    | some connDir =>
      match ConfigDir.findConnection connId (connDir.files [".json"]) false with
      | (none, parseFailed) =>
        if allowRemoved && !parseFailed then .ok none
        else .error ("Connection '" ++ connId ++ "' not found.")
      | (some conn, _) =>
        if !conn.enabled then .ok none
        else
          match dir.targetedTagFile connId with
          | none => .ok none
          | some (.error ex) => .error ("Reload exception: " ++ ex)
          | some (.ok tf) =>
            if tf.connectionId ≠ connId then
              .error "Tag file connection_id does not match target connection."
            else .ok (some (buildDriver epoch { connCfg := conn, tags := tf.tags }))

/-! ## What the loaders read -/

namespace ConfigDir
variable {dir : ConfigDir} {connId : String}

/-- The readable connection files with the id. -/
def connectionsOf (dir : ConfigDir) (connId : String) : List ConnectionConfig :=
  dir.connectionFiles.filter fun conn => conn.id == connId

/-- The job of the full loader for a connection. -/
def fullJob (dir : ConfigDir) (connId : String) : Option DriverBuildJob :=
  match dir.connectionMap.find connId with
  | some conn => dir.connectionJob connId conn
  | none => (dir.tagsByConn.find connId).bind (dir.memoryJob connId)

omit [Floats] in
theorem findConnection_fst (connId : String) (files : List (String × Except String ConnectionFile))
    (parseFailed : Bool) : (findConnection connId files parseFailed).1 =
      ((files.filterMap fun x => x.2.toOption.map (·.1)).filter fun conn => conn.id == connId).head? := by
  induction files generalizing parseFailed with
  | nil => rfl
  | cons x files ih =>
    obtain ⟨f, c⟩ := x
    cases c with
    | error e => exact ih true
    | ok conn =>
      unfold findConnection
      by_cases h : conn.1.id = connId
      · simp [h, Except.toOption]
      · simp [h, Except.toOption, ih]

theorem findConnection_connectionsOf {connDir : Dir ConnectionFile}
    (h : dir.connections = some connDir) :
    (findConnection connId (connDir.files [".json"]) false).1 = (dir.connectionsOf connId).head? := by
  rw [findConnection_fst]
  unfold connectionsOf connectionFiles
  rw [h]
  dsimp only
  unfold Dir.readable
  rw [List.map_filterMap]
  simp only [Option.map_map]
  rfl

/-- The last file of an id wins. -/
theorem find_connectionMap (dir : ConfigDir) (connId : String) :
    dir.connectionMap.find connId = (dir.connectionsOf connId).getLast? := by
  unfold connectionMap connectionsOf
  rw [SortedMap.find_ofList]
  induction dir.connectionFiles with
  | nil => rfl
  | cons conn conns ih =>
    rw [List.map_cons, lastValue_cons, ih, List.filter_cons]
    by_cases h : conn.id = connId
    · simp only [h, if_true, beq_self_eq_true, List.getLast?_cons]
      cases (conns.filter fun conn => conn.id == connId).getLast? with
      | none => rfl
      | some last => rfl
    · simp [h]

theorem mem_connectionsOf {conn : ConnectionConfig} (h : conn ∈ dir.connectionsOf connId) :
    conn.Loaded ∧ conn.id = connId := by
  obtain ⟨hmem, hid⟩ := List.mem_filter.1 h
  refine ⟨?_, by simpa using hid⟩
  unfold connectionFiles at hmem
  split at hmem
  · cases hmem
  · obtain ⟨x, -, rfl⟩ := List.mem_map.1 hmem
    exact x.2.2

theorem mem_candidates {x : TagFileChoice} : x ∈ dir.candidates ↔
    x.file.connectionId ≠ "" ∧ ∃ tagDir, dir.tags = some tagDir ∧
      .file x.filename (.ok x.file) ∈ tagDir.entries ∧ extension x.filename ∈ tagExtensions := by
  unfold candidates
  cases dir.tags with
  | none => simp
  | some tagDir =>
    simp only [List.mem_map, List.mem_filter, Dir.mem_readable, bne_iff_ne, Option.some.injEq,
      exists_eq_left']
    constructor
    · rintro ⟨y, ⟨hy, hne⟩, rfl⟩
      exact ⟨hne, hy⟩
    · rintro ⟨hne, hx⟩
      exact ⟨(x.filename, x.file), ⟨hx, hne⟩, rfl⟩

theorem chooseTagFile_mem {arr : List TagFileChoice} {x : TagFileChoice}
    (h : chooseTagFile connId arr = some x) : x ∈ arr := by
  unfold chooseTagFile at h
  rcases Option.or_eq_some_iff.1 h with h | ⟨-, h⟩
  · exact List.mem_of_find?_eq_some h
  · rcases Option.or_eq_some_iff.1 h with h | ⟨-, h⟩
    · exact List.mem_of_find?_eq_some h
    · exact (List.mem_insertionSort _).1 (List.mem_of_mem_head? h)

theorem chooseTagFile_eq_none {arr : List TagFileChoice} : chooseTagFile connId arr = none ↔ arr = [] := by
  constructor
  · intro h
    unfold chooseTagFile at h
    rw [Option.or_eq_none_iff, Option.or_eq_none_iff, List.head?_eq_none_iff] at h
    have hlen := congrArg List.length h.2.2
    rw [List.length_insertionSort] at hlen
    exact List.length_eq_zero_iff.1 hlen
  · rintro rfl
    rfl

theorem fullTagFile_id {tf : TagFile} (h : dir.fullTagFile connId = some tf) :
    tf.connectionId = connId ∧ connId ≠ "" := by
  unfold fullTagFile at h
  obtain ⟨x, hx, rfl⟩ := Option.map_eq_some_iff.1 h
  obtain ⟨hcand, hid⟩ := List.mem_filter.1 (chooseTagFile_mem hx)
  have hid' : x.file.connectionId = connId := by simpa using hid
  exact ⟨hid', hid' ▸ (mem_candidates.1 hcand).1⟩

theorem fullTagFile_eq_none : dir.fullTagFile connId = none ↔ dir.byCid connId = [] := by
  unfold fullTagFile
  rw [Option.map_eq_none_iff, chooseTagFile_eq_none]

theorem find_tagsByConn (dir : ConfigDir) (connId : String) :
    dir.tagsByConn.find connId = (dir.fullTagFile connId).map TagFile.tags := by
  unfold tagsByConn
  rw [SortedMap.find_ofList]
  cases h : dir.fullTagFile connId with
  | none =>
    refine lastValue_eq_none.2 fun hmem => ?_
    obtain ⟨y, hy, hkey⟩ := List.mem_map.1 hmem
    obtain ⟨x, hx, hy⟩ := List.mem_filterMap.1 hy
    obtain ⟨tf, htf, rfl⟩ := Option.map_eq_some_iff.1 hy
    have hkey' : x.file.connectionId = connId := hkey
    rw [hkey', h] at htf
    cases htf
  | some tf =>
    have hmem : ∃ x ∈ dir.candidates, x.file.connectionId = connId := by
      have hne : dir.byCid connId ≠ [] := fun hnil => by
        rw [fullTagFile_eq_none.2 hnil] at h
        cases h
      obtain ⟨x, hx⟩ := List.exists_mem_of_ne_nil _ hne
      obtain ⟨hcand, hid⟩ := List.mem_filter.1 hx
      exact ⟨x, hcand, by simpa using hid⟩
    -- each assignment to this key assigns the same tags
    cases hlast : lastValue connId (dir.candidates.filterMap fun x =>
        (dir.fullTagFile x.file.connectionId).map fun tf => (x.file.connectionId, tf.tags)) with
    | none =>
      obtain ⟨x, hx, hid⟩ := hmem
      refine absurd ?_ (lastValue_eq_none.1 hlast)
      refine List.mem_map.2 ⟨(connId, tf.tags), List.mem_filterMap.2 ⟨x, hx, ?_⟩, rfl⟩
      rw [hid, h]
      rfl
    | some tags =>
      obtain ⟨x, -, hx⟩ := List.mem_filterMap.1 (mem_of_lastValue hlast)
      obtain ⟨tf', htf', heq⟩ := Option.map_eq_some_iff.1 hx
      obtain ⟨hid, rfl⟩ := Prod.mk.inj heq
      rw [hid, h] at htf'
      obtain rfl := Option.some.inj htf'
      rfl

theorem connectionJob_id {conn : ConnectionConfig} {job : DriverBuildJob}
    (h : dir.connectionJob connId conn = some job) : job.connCfg = conn := by
  unfold connectionJob at h
  split at h
  · cases h
  · split at h
    · cases h
    · obtain rfl := Option.some.inj h
      rfl

theorem memoryJob_id {tags : List TagConfig} {job : DriverBuildJob}
    (h : dir.memoryJob connId tags = some job) : job.connCfg = memoryConnection connId := by
  unfold memoryJob at h
  split at h
  · cases h
  · split at h
    · cases h
    · obtain rfl := Option.some.inj h
      rfl

/-- The jobs, connection by connection. -/
theorem mem_jobs {job : DriverBuildJob} :
    job ∈ dir.jobs ↔ dir.fullJob job.connCfg.id = some job := by
  have hid : ∀ {id conn}, dir.connectionMap.find id = some conn → conn.id = id := by
    intro id conn h
    rw [find_connectionMap] at h
    exact (mem_connectionsOf (List.mem_of_mem_getLast? h)).2
  unfold jobs fullJob
  rw [List.mem_append, List.mem_filterMap, List.mem_filterMap]
  constructor
  · rintro (⟨x, hx, hjob⟩ | ⟨x, hx, hjob⟩)
    · have hfind := SortedMap.find_eq_some.2 hx
      rw [connectionJob_id hjob, hid hfind, hfind]
      exact hjob
    · have hfind := SortedMap.find_eq_some.2 hx
      have hnone : dir.connectionMap.find x.1 = none := by
        unfold memoryJob SortedMap.contains at hjob
        cases hfull : dir.connectionMap.find x.1 with
        | none => rfl
        | some conn => simp [hfull] at hjob
      have hkey : (memoryConnection x.1).id = x.1 := rfl
      rw [memoryJob_id hjob, hkey, hnone, hfind]
      exact hjob
  · intro h
    cases hfind : dir.connectionMap.find job.connCfg.id with
    | some conn =>
      rw [hfind] at h
      exact .inl ⟨(job.connCfg.id, conn), SortedMap.find_eq_some.1 hfind, h⟩
    | none =>
      rw [hfind] at h
      obtain ⟨tags, htags, hjob⟩ := Option.bind_eq_some_iff.1 h
      exact .inr ⟨(job.connCfg.id, tags), SortedMap.find_eq_some.1 htags, hjob⟩

theorem fullJob_id {job : DriverBuildJob} (h : dir.fullJob connId = some job) :
    job.connCfg.id = connId := by
  unfold fullJob at h
  split at h
  · rename_i conn hfind
    rw [connectionJob_id h]
    rw [find_connectionMap] at hfind
    exact (mem_connectionsOf (List.mem_of_mem_getLast? hfind)).2
  · obtain ⟨tags, -, hjob⟩ := Option.bind_eq_some_iff.1 h
    rw [memoryJob_id hjob]
    rfl

end ConfigDir

theorem buildDriver_conn (epoch : String → Nat) (job : DriverBuildJob) :
    (buildDriver epoch job).conn = job.connCfg := rfl

/-- The driver of a connection after a full load. -/
theorem find_loadAllDrivers (epoch : String → Nat) (dir : ConfigDir) (connId : String) :
    (loadAllDrivers epoch dir).find? (fun d => d.conn.id == connId) =
      (dir.fullJob connId).map (buildDriver epoch) := by
  unfold loadAllDrivers
  rw [List.find?_map]
  congr 1
  cases hfind : dir.jobs.find? ((fun d => d.conn.id == connId) ∘ buildDriver epoch) with
  | some job =>
    have hid : job.connCfg.id = connId := by simpa [buildDriver_conn] using List.find?_some hfind
    have hmem := ConfigDir.mem_jobs.1 (List.mem_of_find?_eq_some hfind)
    rw [hid] at hmem
    exact hmem.symm
  | none =>
    cases hjob : dir.fullJob connId with
    | none => rfl
    | some job =>
      have hid := ConfigDir.fullJob_id hjob
      have hmem : job ∈ dir.jobs := ConfigDir.mem_jobs.2 (hid ▸ hjob)
      have hnone := List.find?_eq_none.1 hfind job hmem
      exact absurd (by simpa [buildDriver_conn] using hid) hnone

end

end OpcBridge
