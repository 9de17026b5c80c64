import OpcBridge.Lib.Arena
import OpcBridge.Ua.Node

/-!
# The bindings of OPC UA nodes

`g_uaBindings` and `g_uaBindingIndex` as an indexed arena, and `syncOpcuaConnectionNodes`, which
brings the bindings of one connection in line with its driver: every live tag is bound, then every
current binding of the connection whose tag is not live is retired and its node deleted. What the
UA library answers is part of the call.

`get?_sync` says what a sync does to each key on its own (`nodeAfter`), `sync_evolves` which slots
it may touch.
-/

namespace OpcBridge

variable [Floats]

/-! ## Bindings -/

structure UaTagBinding where
  handle : Int
  datatype : String
  nodeId : String
  connId : String
  logicalName : String
  /-- Whether UA writes go to the PLC. -/
  writable : Bool
  retired : Bool := false
  physicalReadGate : Bool := false
  readGate : PollReadGate := {}
deriving DecidableEq

def uaKey (connId logicalName : String) : String := connId ++ "::" ++ logicalName

omit [Floats] in
theorem uaKey_inj {c a b : String} : uaKey c a = uaKey c b ↔ a = b := by
  constructor
  · intro h
    simpa [uaKey] using h
  · rintro rfl
    rfl

namespace UaTagBinding

def key (binding : UaTagBinding) : String := uaKey binding.connId binding.logicalName

/-- Retired and closed for writes. -/
def Dead (binding : UaTagBinding) : Prop := binding.retired = true ∧ binding.writable = false

end UaTagBinding

abbrev UaRegistry := Lib.Arena String UaTagBinding

/-- With the server running. -/
def uaRetireTagBinding (binding : UaTagBinding) : UaTagBinding :=
  if binding.retired then binding
  else { binding with retired := true, writable := false, handle := -1 }

section
variable (binding : UaTagBinding)

omit [Floats] in
@[simp] theorem uaRetireTagBinding_key : (uaRetireTagBinding binding).key = binding.key := by
  unfold uaRetireTagBinding
  split <;> rfl

omit [Floats] in
@[simp] theorem uaRetireTagBinding_connId :
    (uaRetireTagBinding binding).connId = binding.connId := by
  unfold uaRetireTagBinding
  split <;> rfl

omit [Floats] in
@[simp] theorem uaRetireTagBinding_logicalName :
    (uaRetireTagBinding binding).logicalName = binding.logicalName := by
  unfold uaRetireTagBinding
  split <;> rfl

omit [Floats] in
@[simp] theorem uaRetireTagBinding_datatype :
    (uaRetireTagBinding binding).datatype = binding.datatype := by
  unfold uaRetireTagBinding
  split <;> rfl

omit [Floats] in
@[simp] theorem uaRetireTagBinding_nodeId :
    (uaRetireTagBinding binding).nodeId = binding.nodeId := by
  unfold uaRetireTagBinding
  split <;> rfl

omit [Floats] in
theorem uaRetireTagBinding_dead (h : binding.retired = true → binding.writable = false) :
    (uaRetireTagBinding binding).Dead := by
  unfold uaRetireTagBinding
  split
  · rename_i hr
    exact ⟨hr, h hr⟩
  · exact ⟨rfl, rfl⟩

end

/-! ## The sync -/

/-- A call of the sync and what the UA library answers during it. -/
structure UaSyncCall where
  driver : DriverContext
  /-- `g_uaServer` is set. -/
  server : Bool := true
  /-- `g_uaBridgeNodeId` is set. -/
  bridgeNode : Bool := true
  /-- The connection object could be added or exists. -/
  connectionObject : Bool := true
  /-- The failing status of `addVariableNode`, by tag name. -/
  addVariableNode : String → Option String := fun _ => none
  /-- `deleteNode` answers GOOD or BADNODEIDUNKNOWN, by binding key. -/
  deleteNode : String → Bool := fun _ => true
  now : Instant

namespace UaSyncCall

def connId (call : UaSyncCall) : String := call.driver.conn.id

def key (call : UaSyncCall) (tag : TagRuntime) : String := uaKey call.connId tag.name

def liveSeed (call : UaSyncCall) (tag : TagRuntime) : Option TagSnapshot :=
  OpcBridge.liveSeed call.driver.conn tag call.now

/-- The call gets as far as the tags. -/
def completes (call : UaSyncCall) : Bool :=
  call.server && call.bridgeNode && call.connectionObject

end UaSyncCall

structure OpcUaSyncResult where
  attempted : Bool := false
  ok : Bool := true
  added : Nat := 0
  updated : Nat := 0
  retired : Nat := 0
  datatypeConflicts : Nat := 0
  addFailures : Nat := 0
  fullRebuildRequired : Bool := false
  message : String := ""
deriving DecidableEq

def uaRestartReadGate (call : UaSyncCall) (tag : TagRuntime) (binding : UaTagBinding) :
    UaTagBinding :=
  { binding with
    physicalReadGate := call.driver.conn.driver == "ab_eip" && !isMemoryTag tag.cfg
    readGate := .restart call.driver.freshnessEpoch call.now.steady }

def uaAddTagVariableNode (call : UaSyncCall) (tag : TagRuntime) : Except String UaTagBinding :=
  if !uaTagHasNode call.driver.conn tag then .error "invalid handle"
  else
    let seed := makeInitialSnapshotForOpcua call.driver.conn tag call.now
    match uaSetVariableAttrFromSnapshot seed with
    | .ok (some _) =>
      match call.addVariableNode tag.name with
      | some status => .error ("addVariableNode failed: " ++ status)
      | none => .ok
        { handle := tag.handle, datatype := seed.datatype,
          nodeId := uaTagNodeidString call.connId tag.name, connId := call.connId,
          logicalName := tag.name, writable := tag.cfg.writable }
    | _ => .error ("unsupported datatype '" ++ seed.datatype ++ "'")

/-- The binding of a node that could be added. -/
def newBinding (call : UaSyncCall) (tag : TagRuntime) : Option UaTagBinding :=
  (uaAddTagVariableNode call tag).toOption.map (uaRestartReadGate call tag)

/-- A binding that stays with its tag. -/
def rebind (call : UaSyncCall) (tag : TagRuntime) (binding : UaTagBinding) : UaTagBinding :=
  uaRestartReadGate call tag { binding with
    handle := tag.handle
    connId := call.connId
    logicalName := tag.name
    writable := tag.cfg.writable && decide (tag.cfg.elemCount ≤ 1)
    retired := false }

/-- The registry, the counters and the keys seen so far. -/
structure SyncState where
  registry : UaRegistry
  sync : OpcUaSyncResult := {}
  liveKeys : List String := []

def syncTag (call : UaSyncCall) (acc : SyncState) (tag : TagRuntime) : SyncState :=
  match call.liveSeed tag with
  | none => acc
  | some seed =>
    let acc := { acc with liveKeys := call.key tag :: acc.liveKeys }
    match acc.registry.get? (call.key tag) with
    | some binding =>
      if binding.datatype ≠ seed.datatype then
        -- the node cannot carry the new type; it keeps its identity but no good value
        { acc with
          registry := acc.registry.modify (call.key tag) uaRetireTagBinding
          sync := { acc.sync with
            datatypeConflicts := acc.sync.datatypeConflicts + 1, fullRebuildRequired := true } }
      else
        { acc with
          registry := acc.registry.modify (call.key tag) (rebind call tag)
          sync := { acc.sync with updated := acc.sync.updated + 1 } }
    | none =>
      match uaAddTagVariableNode call tag with
      | .error _ =>
        { acc with sync := { acc.sync with
            addFailures := acc.sync.addFailures + 1, fullRebuildRequired := true } }
      | .ok binding =>
        { acc with
          registry := acc.registry.insert (call.key tag) (uaRestartReadGate call tag binding)
          sync := { acc.sync with added := acc.sync.added + 1 } }

/-- The cleanup of slot `i`. -/
def retireSlot (call : UaSyncCall) (acc : SyncState) (i : Nat) : SyncState :=
  match acc.registry.slots[i]? with
  | none => acc
  | some binding =>
    if binding.connId ≠ call.connId then acc
    -- an older binding of the key stays allocated, only the current node may be deleted
    else if acc.registry.index binding.key ≠ some i then acc
    else if binding.key ∈ acc.liveKeys then acc
    else
      let registry := acc.registry.modify binding.key uaRetireTagBinding
      let sync := { acc.sync with retired := acc.sync.retired + 1 }
      if call.deleteNode binding.key then
        { acc with registry := registry.erase binding.key, sync := sync }
      else
        { acc with
          registry := registry
          sync := { sync with fullRebuildRequired := true, addFailures := sync.addFailures + 1 } }

/-- What the function returns and leaves. -/
structure UaSyncOutcome where
  returned : Bool
  err : String
  sync : OpcUaSyncResult
  registry : UaRegistry

/-- The two loops. -/
def syncNodes (call : UaSyncCall) (registry : UaRegistry) : SyncState :=
  let acc := call.driver.tags.foldl (syncTag call) { registry, sync := { attempted := true } }
  (List.range acc.registry.slots.length).foldl (retireSlot call) acc

def syncOpcuaConnectionNodes (call : UaSyncCall) (registry : UaRegistry) : UaSyncOutcome :=
  let failed (err : String) : UaSyncOutcome :=
    { returned := false, err, registry
      sync := { attempted := true, ok := false, fullRebuildRequired := true } }
  if !call.server then
    { returned := true, err := "", sync := { message := "OPC UA server not active." }, registry }
  else if !call.bridgeNode then failed "OPC UA bridge node is unavailable"
  else if !call.connectionObject then failed "failed to ensure OPC UA connection object"
  else
    let acc := syncNodes call registry
    let sync := { acc.sync with
      ok := acc.sync.addFailures == 0
      message :=
        if acc.sync.fullRebuildRequired then "OPC UA synced with cleanup/rebuild recommended."
        else if acc.sync.added ≠ 0 ∨ acc.sync.updated ≠ 0 then "OPC UA synced."
        else "OPC UA already current." }
    { returned := true, err := "", sync, registry := acc.registry }

/-- A call that does not get as far as the tags leaves the registry alone. -/
theorem syncOpcuaConnectionNodes_registry (call : UaSyncCall) (registry : UaRegistry) :
    (syncOpcuaConnectionNodes call registry).registry =
      if call.completes then (syncNodes call registry).registry else registry := by
  unfold syncOpcuaConnectionNodes UaSyncCall.completes
  cases call.server <;> cases call.bridgeNode <;> cases call.connectionObject <;> rfl

/-! ## What one key sees -/

/-- The live tag of the driver with this key, and its seed. -/
def liveTagIn (call : UaSyncCall) (tags : List TagRuntime) (key : String) :
    Option (TagRuntime × TagSnapshot) :=
  tags.findSome? fun tag =>
    if call.key tag = key then (call.liveSeed tag).map fun seed => (tag, seed) else none

def liveTag (call : UaSyncCall) (key : String) : Option (TagRuntime × TagSnapshot) :=
  liveTagIn call call.driver.tags key

/-- The binding of a live tag after the sync. -/
def syncNode (call : UaSyncCall) (tag : TagRuntime) (seed : TagSnapshot) :
    Option UaTagBinding → Option UaTagBinding
  | some b =>
    some (if b.datatype ≠ seed.datatype then uaRetireTagBinding b else rebind call tag b)
  | none => newBinding call tag

/-- The binding of a key that is not live after the sync. -/
def retireNode (call : UaSyncCall) (key : String) : Option UaTagBinding → Option UaTagBinding
  | some b =>
    if b.connId ≠ call.connId then some b
    else if call.deleteNode key then none
    else some (uaRetireTagBinding b)
  | none => none

/-- The binding that the index leads to from a key, after the sync. -/
def nodeAfter (call : UaSyncCall) (key : String) (binding : Option UaTagBinding) :
    Option UaTagBinding :=
  match liveTag call key with
  | some (tag, seed) => syncNode call tag seed binding
  | none => retireNode call key binding

section
variable {call : UaSyncCall} {tag : TagRuntime} {seed : TagSnapshot} {key : String}

theorem liveTagIn_eq_some {tags : List TagRuntime} (h : liveTagIn call tags key = some (tag, seed)) :
    tag ∈ tags ∧ call.key tag = key ∧ call.liveSeed tag = some seed := by
  obtain ⟨t, ht, h⟩ := List.exists_of_findSome?_eq_some h
  split at h
  · rename_i hk
    obtain ⟨s, hs, he⟩ := Option.map_eq_some_iff.1 h
    cases he
    exact ⟨ht, hk, hs⟩
  · cases h

theorem liveTag_of_mem (ht : tag ∈ call.driver.tags) (hs : call.liveSeed tag = some seed) :
    liveTag call (call.key tag) = some (tag, seed) := by
  obtain ⟨x, hx⟩ : ∃ x, liveTag call (call.key tag) = some x := by
    rw [← Option.isSome_iff_exists, liveTag, liveTagIn, List.findSome?_isSome_iff]
    exact ⟨tag, ht, by rw [if_pos rfl, hs]; rfl⟩
  obtain ⟨t, s⟩ := x
  obtain ⟨h1, h2, h3⟩ := liveTagIn_eq_some hx
  -- names are distinct, so the tag found is the tag itself
  have htt : t = tag := List.inj_on_of_nodup_map call.driver.names_nodup h1 ht (uaKey_inj.1 h2)
  subst htt
  rw [hs, Option.some.injEq] at h3
  rw [hx, h3]

/-- Only a live tag gets a node. -/
theorem uaAddTagVariableNode_ok {b : UaTagBinding} (h : uaAddTagVariableNode call tag = .ok b) :
    ∃ seed, call.liveSeed tag = some seed ∧ b.connId = call.connId ∧ b.logicalName = tag.name ∧
      b.datatype = seed.datatype ∧ b.retired = false := by
  unfold uaAddTagVariableNode at h
  split at h
  · cases h
  · rename_i hn
    simp only [Bool.not_eq_true', Bool.not_eq_false] at hn
    dsimp only at h
    split at h
    · rename_i attr hattr
      refine ⟨makeInitialSnapshotForOpcua call.driver.conn tag call.now, ?_, ?_⟩
      · simp [UaSyncCall.liveSeed, liveSeed, hn, hattr]
      · split at h
        · cases h
        · cases h
          exact ⟨rfl, rfl, rfl, rfl⟩
    · cases h

theorem newBinding_eq_some {b : UaTagBinding} (h : newBinding call tag = some b) :
    ∃ seed, call.liveSeed tag = some seed ∧ b.connId = call.connId ∧ b.logicalName = tag.name ∧
      b.datatype = seed.datatype ∧ b.retired = false := by
  obtain ⟨b₀, hb₀, rfl⟩ := Option.map_eq_some_iff.1 h
  cases hadd : uaAddTagVariableNode call tag with
  | error err =>
    rw [hadd] at hb₀
    cases hb₀
  | ok b₁ =>
    rw [hadd] at hb₀
    cases hb₀
    obtain ⟨seed, h⟩ := uaAddTagVariableNode_ok hadd
    exact ⟨seed, h⟩

@[simp] theorem uaRestartReadGate_key (b : UaTagBinding) :
    (uaRestartReadGate call tag b).key = b.key := rfl

@[simp] theorem rebind_key (b : UaTagBinding) : (rebind call tag b).key = call.key tag := rfl

end

/-! ## The invariant of the pair -/

/-- Every index entry leads to a binding of its key, a binding that the index does not lead to is
dead, and a retired binding is closed for writes. -/
structure RegistryOk (registry : UaRegistry) : Prop where
  wf : registry.Wf UaTagBinding.key UaTagBinding.Dead
  closed : ∀ b ∈ registry.slots, b.retired = true → b.writable = false

namespace RegistryOk

variable {registry : UaRegistry} {key : String} {f : UaTagBinding → UaTagBinding}

omit [Floats] in
theorem mem_of_get? {b : UaTagBinding} (hg : registry.get? key = some b) : b ∈ registry.slots := by
  obtain ⟨i, -, hi⟩ := Option.bind_eq_some_iff.1 hg
  exact List.mem_of_getElem? hi

omit [Floats] in
theorem modify (h : RegistryOk registry)
    (hkey : ∀ b, registry.get? key = some b → (f b).key = b.key)
    (hf : ∀ b, registry.get? key = some b → (f b).retired = true → (f b).writable = false) :
    RegistryOk (registry.modify key f) := by
  refine ⟨h.wf.modify hkey, fun b hb => ?_⟩
  obtain ⟨i, hi⟩ := List.mem_iff_getElem?.1 hb
  by_cases hidx : registry.index key = some i
  · rw [Lib.Arena.modify_slots_self hidx] at hi
    obtain ⟨b₀, hb₀, rfl⟩ := Option.map_eq_some_iff.1 hi
    exact hf b₀ (by rw [Lib.Arena.get?, hidx]; exact hb₀)
  · rw [Lib.Arena.modify_slots_of_ne hidx] at hi
    exact h.closed b (List.mem_of_getElem? hi)

omit [Floats] in
theorem insert (h : RegistryOk registry) {b : UaTagBinding} (hb : b.key = key)
    (hk : registry.get? key = none) (hr : b.retired = false) :
    RegistryOk (registry.insert key b) := by
  refine ⟨h.wf.insert hb hk, fun b' hb' hret => ?_⟩
  rcases List.mem_append.1 hb' with hm | hm
  · exact h.closed b' hm hret
  · rw [List.mem_singleton] at hm
    rw [hm, hr] at hret
    cases hret

omit [Floats] in
theorem erase (h : RegistryOk registry) (hd : ∀ b, registry.get? key = some b → b.Dead) :
    RegistryOk (registry.erase key) :=
  ⟨h.wf.erase hd, h.closed⟩

end RegistryOk

/-! ## One tag -/

/-- What a sync may touch: bindings of the connection and bindings under the key of a live tag. -/
def Touches (call : UaSyncCall) (b : UaTagBinding) : Prop :=
  b.connId = call.connId ∨ (liveTag call b.key).isSome

/-- The step lemma of the first loop. -/
theorem syncTag_spec (call : UaSyncCall) (acc : SyncState) {tag : TagRuntime}
    (htag : tag ∈ call.driver.tags) (h : RegistryOk acc.registry) :
    RegistryOk (syncTag call acc tag).registry ∧
      Lib.Arena.Evolves UaTagBinding.key (Touches call) acc.registry
        (syncTag call acc tag).registry ∧
      (∀ key, (syncTag call acc tag).registry.get? key =
        match liveTagIn call [tag] key with
        | some (tag, seed) => syncNode call tag seed (acc.registry.get? key)
        | none => acc.registry.get? key) ∧
      ∀ key, key ∈ (syncTag call acc tag).liveKeys ↔
        (liveTagIn call [tag] key).isSome ∨ key ∈ acc.liveKeys := by
  have hone : ∀ key, liveTagIn call [tag] key =
      if call.key tag = key then (call.liveSeed tag).map fun seed => (tag, seed) else none := by
    intro key
    unfold liveTagIn
    rw [List.findSome?_cons, List.findSome?_nil]
    split
    · exact Eq.symm ‹_›
    · exact Eq.symm ‹_›
  unfold syncTag
  split
  · rename_i hs
    refine ⟨h, .refl _, fun key => ?_, fun key => ?_⟩
    · rw [hone, hs]
      simp
    · rw [hone, hs]
      simp
  · rename_i seed hs
    have htouch : ∀ b, acc.registry.get? (call.key tag) = some b → Touches call b := by
      intro b hb
      right
      rw [h.wf.get?_own hb, liveTag_of_mem htag hs]
      rfl
    have hkeys : ∀ key, key ∈ call.key tag :: acc.liveKeys ↔
        (liveTagIn call [tag] key).isSome ∨ key ∈ acc.liveKeys := by
      intro key
      rw [hone, hs, List.mem_cons]
      by_cases hk : call.key tag = key
      · simp [hk]
      · have hk' : ¬ key = call.key tag := fun he => hk he.symm
        simp [hk, hk']
    have hget : ∀ key, (match liveTagIn call [tag] key with
          | some (tag, seed) => syncNode call tag seed (acc.registry.get? key)
          | none => acc.registry.get? key) =
        if key = call.key tag then syncNode call tag seed (acc.registry.get? key)
        else acc.registry.get? key := by
      intro key
      rw [hone, hs]
      by_cases hk : call.key tag = key
      · simp [hk]
      · have hk' : ¬ key = call.key tag := fun he => hk he.symm
        simp [hk, hk']
    dsimp only
    simp only [hget]
    split
    · rename_i b hb
      split
      · rename_i hdt
        refine ⟨h.modify (fun _ _ => uaRetireTagBinding_key _) fun c hc _ => ?_,
          .modify h.wf htouch, fun key => ?_, hkeys⟩
        · exact (uaRetireTagBinding_dead c (h.closed c (RegistryOk.mem_of_get? hc))).2
        · rw [h.wf.get?_modify]
          split
          · rename_i hk
            rw [hk, hb]
            simp [syncNode, hdt]
          · rfl
      · rename_i hdt
        refine ⟨h.modify (fun c hc => ?_) (fun _ _ hr => by cases hr),
          .modify h.wf htouch, fun key => ?_, hkeys⟩
        · rw [rebind_key, h.wf.get?_own hc]
        · rw [h.wf.get?_modify]
          split
          · rename_i hk
            rw [hk, hb]
            simp [syncNode, not_not.1 hdt]
          · rfl
    · rename_i hb
      split
      · rename_i err he
        refine ⟨h, .refl _, fun key => ?_, hkeys⟩
        split
        · rename_i hk
          rw [hk, hb, syncNode, newBinding, he]
          rfl
        · rfl
      · rename_i b he
        obtain ⟨-, -, h1, h2, -, h4⟩ := uaAddTagVariableNode_ok he
        have hbk : (uaRestartReadGate call tag b).key = call.key tag := by
          rw [uaRestartReadGate_key, UaTagBinding.key, h1, h2]
          rfl
        refine ⟨h.insert hbk hb h4, .insert, fun key => ?_, hkeys⟩
        rw [h.wf.get?_insert]
        split
        · rename_i hk
          rw [hk, hb, syncNode, newBinding, he]
          rfl
        · rfl

/-! ## All tags -/

theorem liveTagIn_cons (call : UaSyncCall) (tag : TagRuntime) (tags : List TagRuntime)
    (key : String) :
    liveTagIn call (tag :: tags) key = (liveTagIn call [tag] key).or (liveTagIn call tags key) := by
  unfold liveTagIn
  rw [List.findSome?_cons, List.findSome?_cons, List.findSome?_nil]
  split <;> simp_all

/-- Distinct names have distinct keys. -/
theorem liveTagIn_tail {call : UaSyncCall} {tag : TagRuntime} {tags : List TagRuntime} {key : String}
    (hnd : ((tag :: tags).map TagRuntime.name).Nodup) (h : (liveTagIn call [tag] key).isSome) :
    liveTagIn call tags key = none := by
  obtain ⟨⟨t, s⟩, ht⟩ := Option.isSome_iff_exists.1 h
  obtain ⟨hm, hk, -⟩ := liveTagIn_eq_some ht
  rw [List.mem_singleton] at hm
  subst hm
  cases ho : liveTagIn call tags key with
  | none => rfl
  | some x =>
    obtain ⟨t', s'⟩ := x
    obtain ⟨hm', hk', -⟩ := liveTagIn_eq_some ho
    have hname : t'.name = t.name := uaKey_inj.1 (hk'.trans hk.symm)
    rw [List.map_cons, List.nodup_cons] at hnd
    exact absurd (hname ▸ List.mem_map_of_mem hm') hnd.1

/-- The run lemma of the first loop. -/
theorem syncTags_spec (call : UaSyncCall) (tags : List TagRuntime)
    (hsub : ∀ tag ∈ tags, tag ∈ call.driver.tags) (hnd : (tags.map TagRuntime.name).Nodup)
    (acc : SyncState) (h : RegistryOk acc.registry) :
    RegistryOk (tags.foldl (syncTag call) acc).registry ∧
      Lib.Arena.Evolves UaTagBinding.key (Touches call) acc.registry
        (tags.foldl (syncTag call) acc).registry ∧
      (∀ key, (tags.foldl (syncTag call) acc).registry.get? key =
        match liveTagIn call tags key with
        | some (tag, seed) => syncNode call tag seed (acc.registry.get? key)
        | none => acc.registry.get? key) ∧
      ∀ key, key ∈ (tags.foldl (syncTag call) acc).liveKeys ↔
        (liveTagIn call tags key).isSome ∨ key ∈ acc.liveKeys := by
  induction tags generalizing acc with
  | nil => exact ⟨h, .refl _, fun key => rfl, fun key => by simp [liveTagIn]⟩
  | cons tag tags ih =>
    obtain ⟨h1, h2, h3, h4⟩ := syncTag_spec call acc (hsub tag (by simp)) h
    have hnd' : (tags.map TagRuntime.name).Nodup := (List.nodup_cons.1 hnd).2
    obtain ⟨i1, i2, i3, i4⟩ := ih (fun t ht => hsub t (List.mem_cons_of_mem _ ht)) hnd' _ h1
    refine ⟨i1, h2.trans i2, fun key => ?_, fun key => ?_⟩
    · rw [List.foldl_cons, i3, h3, liveTagIn_cons call tag tags]
      cases hone : liveTagIn call [tag] key with
      | none => simp
      | some x => rw [liveTagIn_tail hnd (by rw [hone]; rfl)]; rfl
    · rw [List.foldl_cons, i4, h4, liveTagIn_cons call tag tags]
      cases liveTagIn call [tag] key <;> simp

/-! ## The cleanup -/

/-- How far the cleanup has come after the slots below `n`. -/
structure Cleaned (call : UaSyncCall) (start acc : SyncState) (n : Nat) : Prop where
  ok : RegistryOk acc.registry
  evolves : Lib.Arena.Evolves UaTagBinding.key (Touches call) start.registry acc.registry
  length : acc.registry.slots.length = start.registry.slots.length
  liveKeys : acc.liveKeys = start.liveKeys
  /-- Entries only disappear. -/
  index : ∀ key, acc.registry.index key = none ∨
    acc.registry.index key = start.registry.index key
  done : ∀ key i, start.registry.index key = some i → i < n → acc.registry.get? key =
    if key ∈ start.liveKeys then start.registry.get? key
    else retireNode call key (start.registry.get? key)
  todo : ∀ key, (∀ i, start.registry.index key = some i → n ≤ i) →
    acc.registry.index key = start.registry.index key ∧
      acc.registry.get? key = start.registry.get? key

/-- A slot that the cleanup passes over. -/
theorem Cleaned.skip {call : UaSyncCall} {start acc : SyncState} {n : Nat}
    (h : Cleaned call start acc n)
    (hskip : ∀ key, start.registry.index key = some n →
      key ∈ start.liveKeys ∨
        retireNode call key (start.registry.get? key) = start.registry.get? key) :
    Cleaned call start acc (n + 1) := by
  refine { h with done := fun key i hi hlt => ?_, todo := fun key hk => ?_ }
  · rcases Nat.lt_succ_iff_lt_or_eq.1 hlt with hlt | rfl
    · exact h.done key i hi hlt
    · have hk : ∀ j, start.registry.index key = some j → i ≤ j := by
        intro j hj
        rw [hi, Option.some.injEq] at hj
        omega
      rw [(h.todo key hk).2]
      rcases hskip key hi with hl | hr
      · rw [if_pos hl]
      · rw [hr, ite_self]
  · exact h.todo key fun i hi => by have := hk i hi; omega

/-- The step lemma of the second loop. -/
theorem retireSlot_cleaned {call : UaSyncCall} {start acc : SyncState} {n : Nat}
    (h : Cleaned call start acc n) (hn : n < start.registry.slots.length) :
    Cleaned call start (retireSlot call acc n) (n + 1) := by
  have hget : ∀ {key}, start.registry.index key = some n → ∃ b,
      acc.registry.slots[n]? = some b ∧ b.key = key ∧ acc.registry.index key = some n ∧
        start.registry.get? key = some b := by
    intro key hi
    obtain ⟨h1, h2⟩ := h.todo key fun i hi' => by
      rw [hi, Option.some.injEq] at hi'
      omega
    obtain ⟨b, hb, hk⟩ := h.ok.wf.own key n (h1.trans hi)
    refine ⟨b, hb, hk, h1.trans hi, ?_⟩
    rw [← h2, Lib.Arena.get?, h1, hi]
    exact hb
  unfold retireSlot
  split
  · rename_i hnone
    rw [List.getElem?_eq_none_iff, h.length] at hnone
    omega
  · rename_i b hb
    split
    · rename_i hc
      refine h.skip fun key hi => .inr ?_
      obtain ⟨b', hb', -, -, hg⟩ := hget hi
      rw [hb, Option.some.injEq] at hb'
      subst hb'
      rw [hg, retireNode, if_pos hc]
    · rename_i hc
      split
      · rename_i hidx
        refine h.skip fun key hi => absurd ?_ hidx
        obtain ⟨b', hb', hk, hi', -⟩ := hget hi
        rw [hb, Option.some.injEq] at hb'
        rw [hb', hk]
        exact hi'
      · rename_i hidx
        rw [not_not] at hc hidx
        -- the entry is the one of the start
        have hstart : start.registry.index b.key = some n := by
          rcases h.index b.key with h0 | h0
          · rw [h0] at hidx
            cases hidx
          · rw [← h0]
            exact hidx
        have hacc : acc.registry.get? b.key = some b := by
          rw [Lib.Arena.get?, hidx]
          exact hb
        obtain ⟨b', hb', -, -, hsb⟩ := hget hstart
        rw [hb, Option.some.injEq] at hb'
        subst hb'
        split
        · rename_i hl
          refine h.skip fun key hi => .inl ?_
          obtain ⟨b', hb', hk, -, -⟩ := hget hi
          rw [hb, Option.some.injEq] at hb'
          rw [← hk, ← hb', ← h.liveKeys]
          exact hl
        · rename_i hl
          rw [h.liveKeys] at hl
          have htouch : ∀ c, acc.registry.get? b.key = some c → Touches call c := by
            intro c hc'
            rw [hacc, Option.some.injEq] at hc'
            exact .inl (hc' ▸ hc)
          have hret : RegistryOk (acc.registry.modify b.key uaRetireTagBinding) :=
            h.ok.modify (fun _ _ => uaRetireTagBinding_key _) fun c hc' _ =>
              (uaRetireTagBinding_dead c (h.ok.closed c (RegistryOk.mem_of_get? hc'))).2
          have hmod : ∀ key, (acc.registry.modify b.key uaRetireTagBinding).get? key =
              if key = b.key then (acc.registry.get? b.key).map uaRetireTagBinding
              else acc.registry.get? key := fun _ => h.ok.wf.get?_modify
          have hdone : ∀ key i, start.registry.index key = some i → i < n + 1 → key ≠ b.key →
              i < n := by
            intro key i hi hlt hne
            rcases Nat.lt_succ_iff_lt_or_eq.1 hlt with hlt | rfl
            · exact hlt
            · obtain ⟨c, hc', hk, -, -⟩ := hget hi
              rw [hb, Option.some.injEq] at hc'
              exact absurd (hc' ▸ hk.symm) hne
          have htodo : ∀ key, (∀ i, start.registry.index key = some i → n + 1 ≤ i) →
              key ≠ b.key := by
            rintro key hk rfl
            have := hk n hstart
            omega
          dsimp only
          split
          · rename_i hdel
            refine
              { ok := hret.erase fun c hc' => ?_
                evolves := (h.evolves.trans (.modify h.ok.wf htouch)).trans .erase
                length := by simpa [Lib.Arena.erase] using h.length
                liveKeys := h.liveKeys
                index := fun key => ?_
                done := fun key i hi hlt => ?_
                todo := fun key hk => ?_ }
            · rw [hmod, if_pos rfl, hacc] at hc'
              cases hc'
              exact uaRetireTagBinding_dead b (h.ok.closed b (RegistryOk.mem_of_get? hacc))
            · by_cases hk : key = b.key
              · left
                rw [hk]
                exact Lib.Arena.erase_index_self
              · rw [Lib.Arena.erase_index_of_ne hk, Lib.Arena.modify_index]
                exact h.index key
            · rw [Lib.Arena.get?_erase]
              split
              · rename_i hk
                rw [hk, if_neg hl, hsb, retireNode, if_neg (not_not.2 hc), if_pos hdel]
              · rename_i hk
                rw [hmod, if_neg hk]
                exact h.done key i hi (hdone key i hi hlt hk)
            · have hk' := htodo key hk
              rw [Lib.Arena.erase_index_of_ne hk', Lib.Arena.modify_index, Lib.Arena.get?_erase,
                if_neg hk', hmod, if_neg hk']
              exact h.todo key fun i hi => by have := hk i hi; omega
          · rename_i hdel
            refine
              { ok := hret
                evolves := h.evolves.trans (.modify h.ok.wf htouch)
                length := by simpa using h.length
                liveKeys := h.liveKeys
                index := fun key => by simpa using h.index key
                done := fun key i hi hlt => ?_
                todo := fun key hk => ?_ }
            · rw [hmod]
              split
              · rename_i hk
                rw [hk, if_neg hl, hsb, hacc, retireNode, if_neg (not_not.2 hc), if_neg hdel]
                rfl
              · rename_i hk
                exact h.done key i hi (hdone key i hi hlt hk)
            · have hk' := htodo key hk
              rw [Lib.Arena.modify_index, hmod, if_neg hk']
              exact h.todo key fun i hi => by have := hk i hi; omega

/-- The run lemma of the second loop. -/
theorem retireSlots_cleaned (call : UaSyncCall) (start : SyncState) (h : RegistryOk start.registry)
    {n : Nat} (hn : n ≤ start.registry.slots.length) :
    Cleaned call start ((List.range n).foldl (retireSlot call) start) n := by
  induction n with
  | zero =>
    exact
      { ok := h, evolves := .refl _, length := rfl, liveKeys := rfl, index := fun _ => .inr rfl,
        done := fun _ _ _ hlt => absurd hlt (Nat.not_lt_zero _), todo := fun _ _ => ⟨rfl, rfl⟩ }
  | succ n ih =>
    rw [List.range_succ, List.foldl_append]
    exact retireSlot_cleaned (ih (by omega)) (by omega)

/-! ## The whole sync -/

/-- **What a sync does.** The invariant of the registry is kept, each key sees `nodeAfter`, and
only slots that the call may touch change. -/
theorem syncNodes_spec (call : UaSyncCall) {registry : UaRegistry} (h : RegistryOk registry) :
    RegistryOk (syncNodes call registry).registry ∧
      Lib.Arena.Evolves UaTagBinding.key (Touches call) registry
        (syncNodes call registry).registry ∧
      ∀ key, (syncNodes call registry).registry.get? key =
        nodeAfter call key (registry.get? key) := by
  unfold syncNodes
  dsimp only
  obtain ⟨h1, h2, h3, h4⟩ := syncTags_spec call call.driver.tags (fun _ ht => ht)
    call.driver.names_nodup { registry, sync := { attempted := true } } h
  generalize call.driver.tags.foldl (syncTag call) { registry, sync := { attempted := true } } =
    start at h1 h2 h3 h4 ⊢
  have hcl := retireSlots_cleaned call start h1 le_rfl
  refine ⟨hcl.ok, h2.trans hcl.evolves, fun key => ?_⟩
  have hkey : key ∈ start.liveKeys ↔ (liveTag call key).isSome := by
    rw [h4]
    simp [liveTag]
  have hstart : start.registry.get? key =
      match liveTag call key with
      | some (tag, seed) => syncNode call tag seed (registry.get? key)
      | none => registry.get? key := h3 key
  have hfinal : ((List.range start.registry.slots.length).foldl (retireSlot call)
      start).registry.get? key =
      if key ∈ start.liveKeys then start.registry.get? key
      else retireNode call key (start.registry.get? key) := by
    cases hi : start.registry.index key with
    | none =>
      have hnone : start.registry.get? key = none := h1.wf.get?_eq_none.2 hi
      rw [(hcl.todo key fun i hi' => by rw [hi] at hi'; cases hi').2, hnone]
      simp [retireNode]
    | some i =>
      obtain ⟨b, hb, -⟩ := h1.wf.own key i hi
      exact hcl.done key i hi (List.getElem?_eq_some_iff.1 hb).1
  rw [hfinal, nodeAfter]
  cases hl : liveTag call key with
  | none =>
    have hnl : key ∉ start.liveKeys := fun hm => by
      have := hkey.1 hm
      rw [hl] at this
      cases this
    rw [hl] at hstart
    rw [if_neg hnl, hstart]
  | some x =>
    have hml : key ∈ start.liveKeys := hkey.2 (by rw [hl]; rfl)
    rw [hl] at hstart
    rw [if_pos hml, hstart]

end OpcBridge
