import OpcBridge.Lib.Run
import OpcBridge.Ua.Bindings
import Mathlib.Data.List.Pairwise

/-!
# The binding registry over reloads

`UaState` puts beside the registry what the last completed sync of each connection found live. A
run is the build of the registry at start-up and then any sequence of sync calls, with any answers
of the UA library. `BindingsOk` is what has to hold in every state, `SyncOk` what has to hold of
every call; both follow from the effect of a sync on one key (`get?_sync`) and on one slot
(`slot_sync`).

A key is the connection id and the tag name with `::` between them, and both may hold `::`
themselves. The run keeps the registry in order as long as the keys it meets are `Clear`; the
example at the end is a run where they are not.
-/

namespace OpcBridge

section
variable [Floats]

/-! ## Runs -/

structure UaState where
  registry : UaRegistry
  /-- The datatype with which the last completed sync of a connection found a tag live. -/
  live : String → String → Option String

def liveDatatype (call : UaSyncCall) (name : String) : Option String :=
  (liveTag call (uaKey call.connId name)).map fun x => x.2.datatype

def UaState.sync (s : UaState) (call : UaSyncCall) : UaState where
  registry := (syncOpcuaConnectionNodes call s.registry).registry
  live :=
    if call.completes then Function.update s.live call.connId (liveDatatype call) else s.live

/-- The bindings that the start-up creates for one driver. -/
def startBindings (call : UaSyncCall) : List UaTagBinding :=
  if !call.connectionObject then []
  else call.driver.tags.filterMap (newBinding call)

/-- The registry and index that `init_opcua_server` builds. -/
def UaState.start (calls : List UaSyncCall) : UaState where
  registry := .ofList UaTagBinding.key (calls.flatMap startBindings)
  live := fun c n => calls.findSome? fun call =>
    if call.connectionObject = true ∧ call.connId = c then liveDatatype call n else none

/-- The keys of the live tags of a driver. -/
def liveKeys (call : UaSyncCall) : List String :=
  if !call.connectionObject then []
  else (call.driver.tags.filter fun tag => (call.liveSeed tag).isSome).map call.key

/-- At start-up the live tags of all drivers have distinct keys. -/
def StartClear (calls : List UaSyncCall) : Prop := (calls.flatMap liveKeys).Nodup

/-- No live tag of the driver shares its key with a binding or a live tag of another connection. -/
structure Clear (s : UaState) (call : UaSyncCall) : Prop where
  binding : ∀ tag ∈ call.driver.tags, (call.liveSeed tag).isSome → ∀ b,
    s.registry.get? (call.key tag) = some b → b.connId = call.connId
  live : ∀ tag ∈ call.driver.tags, (call.liveSeed tag).isSome → ∀ c n, (s.live c n).isSome →
    uaKey c n = call.key tag → c = call.connId

/-! ## What has to hold -/

structure BindingsOk (s : UaState) : Prop where
  /-- The index maps a key to a binding with that connection and name. -/
  own : ∀ key i, s.registry.index key = some i →
    ∃ b, s.registry.slots[i]? = some b ∧ uaKey b.connId b.logicalName = key
  /-- The binding of a live tag is retired exactly when it was made for another datatype. -/
  live : ∀ c n dt b, s.live c n = some dt → s.registry.get? (uaKey c n) = some b →
    b.connId = c ∧ b.logicalName = n ∧ (b.retired = true ↔ b.datatype ≠ dt)
  /-- A binding of a tag that is not live is retired and closed for writes. -/
  notLive : ∀ b ∈ s.registry.slots, s.live b.connId b.logicalName = none →
    b.retired = true ∧ b.writable = false
  /-- A binding that the index does not lead to is retired and closed for writes. -/
  dead : ∀ i b, s.registry.slots[i]? = some b →
    s.registry.index (uaKey b.connId b.logicalName) = some i ∨
      (b.retired = true ∧ b.writable = false)
  closed : ∀ b ∈ s.registry.slots, b.retired = true → b.writable = false

structure SyncOk (s : UaState) (call : UaSyncCall) : Prop where
  /-- Bindings of other connections are untouched. -/
  others : ∀ (i : Nat) (b : UaTagBinding), s.registry.slots[i]? = some b → b.connId ≠ call.connId →
    (s.sync call).registry.slots[i]? = some b ∧
      (s.registry.get? b.key = some b → (s.sync call).registry.get? b.key = some b)
  /-- A key that keeps a binding keeps its node and its datatype. -/
  identity : ∀ key b b', s.registry.get? key = some b → (s.sync call).registry.get? key = some b' →
    b'.nodeId = b.nodeId ∧ b'.datatype = b.datatype

omit [Floats] in
theorem BindingsOk.registryOk {s : UaState} (h : BindingsOk s) : RegistryOk s.registry :=
  ⟨⟨h.own, h.dead⟩, h.closed⟩

/-! ## One key and one slot -/

section
variable {s : UaState} {call : UaSyncCall}

theorem sync_of_not_completes (hc : call.completes = false) : s.sync call = s := by
  unfold UaState.sync
  rw [syncOpcuaConnectionNodes_registry, hc]
  rfl

theorem sync_registry (hc : call.completes = true) :
    (s.sync call).registry = (syncNodes call s.registry).registry := by
  unfold UaState.sync
  rw [syncOpcuaConnectionNodes_registry, if_pos hc]

theorem sync_live (hc : call.completes = true) :
    (s.sync call).live = Function.update s.live call.connId (liveDatatype call) := by
  unfold UaState.sync
  rw [if_pos hc]

theorem get?_sync (h : RegistryOk s.registry) (hc : call.completes = true) (key : String) :
    (s.sync call).registry.get? key = nodeAfter call key (s.registry.get? key) := by
  rw [sync_registry hc]
  exact (syncNodes_spec call h).2.2 key

theorem sync_registryOk (h : RegistryOk s.registry) (hc : call.completes = true) :
    RegistryOk (s.sync call).registry := by
  rw [sync_registry hc]
  exact (syncNodes_spec call h).1

/-- Where the keys are clear, a slot of another connection stays as it is. -/
theorem slot_sync (h : RegistryOk s.registry) (hc : call.completes = true) (hclear : Clear s call)
    {i : Nat} {b : UaTagBinding} (hb : s.registry.slots[i]? = some b)
    (hne : b.connId ≠ call.connId) : (s.sync call).registry.slots[i]? = some b := by
  rw [sync_registry hc]
  refine (syncNodes_spec call h).2.1.slots i b hb ?_
  rintro ⟨hi, ht | ht⟩
  · exact hne ht
  · obtain ⟨⟨tag, seed⟩, hl⟩ := Option.isSome_iff_exists.1 ht
    obtain ⟨hm, hk, hs⟩ := liveTagIn_eq_some hl
    refine hne (hclear.binding tag hm (by rw [hs]; rfl) b ?_)
    rw [hk, Lib.Arena.get?, hi]
    exact hb

theorem syncNode_of_some {tag : TagRuntime} {seed : TagSnapshot} {b b' : UaTagBinding}
    (h : syncNode call tag seed (some b) = some b') :
    b'.nodeId = b.nodeId ∧ b'.datatype = b.datatype := by
  simp only [syncNode, Option.some.injEq] at h
  subst h
  split
  · simp
  · exact ⟨rfl, rfl⟩

theorem retireNode_eq_some {key : String} {o : Option UaTagBinding} {b' : UaTagBinding}
    (h : retireNode call key o = some b') :
    ∃ b, o = some b ∧
      ((b.connId ≠ call.connId ∧ b' = b) ∨
        (b.connId = call.connId ∧ b' = uaRetireTagBinding b)) := by
  unfold retireNode at h
  split at h
  · rename_i b
    refine ⟨b, rfl, ?_⟩
    split at h
    · exact .inl ⟨‹_›, (Option.some.inj h).symm⟩
    · rename_i hc
      split at h
      · cases h
      · exact .inr ⟨not_not.1 hc, (Option.some.inj h).symm⟩
  · cases h

/-- The binding of a live tag after the sync. -/
theorem syncNode_live {tag : TagRuntime} {seed : TagSnapshot} {o : Option UaTagBinding}
    {b' : UaTagBinding} (hs : call.liveSeed tag = some seed)
    (ho : ∀ b, o = some b → b.connId = call.connId ∧ b.logicalName = tag.name)
    (hclosed : ∀ b, o = some b → b.retired = true → b.writable = false)
    (h : syncNode call tag seed o = some b') :
    b'.connId = call.connId ∧ b'.logicalName = tag.name ∧
      (b'.retired = true ↔ b'.datatype ≠ seed.datatype) := by
  cases o with
  | none =>
    obtain ⟨seed', hs', h1, h2, h3, h4⟩ := newBinding_eq_some h
    rw [hs, Option.some.injEq] at hs'
    subst hs'
    exact ⟨h1, h2, by simp [h3, h4]⟩
  | some b =>
    obtain ⟨h1, h2⟩ := ho b rfl
    simp only [syncNode, Option.some.injEq] at h
    subst h
    split
    · rename_i hdt
      refine ⟨by simpa using h1, by simpa using h2, ?_⟩
      simpa [(uaRetireTagBinding_dead b (hclosed b rfl)).1] using hdt
    · rename_i hdt
      exact ⟨rfl, rfl, by simpa [rebind, uaRestartReadGate] using hdt⟩

/-! ## One call -/

/-- **The step lemma**: a call with clear keys keeps the registry in order. -/
theorem sync_bindingsOk (h : BindingsOk s) (hclear : Clear s call) : BindingsOk (s.sync call) := by
  cases hc : call.completes with
  | false => rwa [sync_of_not_completes hc]
  | true =>
    have hreg := h.registryOk
    have hreg' := sync_registryOk hreg hc
    -- a binding under the key of a live tag of the driver is that tag's
    have hmine : ∀ tag ∈ call.driver.tags, (call.liveSeed tag).isSome → ∀ b,
        s.registry.get? (call.key tag) = some b →
          b.connId = call.connId ∧ b.logicalName = tag.name := by
      intro tag hm hs b hb
      have h1 := hclear.binding tag hm hs b hb
      refine ⟨h1, ?_⟩
      have hk := hreg.wf.get?_own hb
      rw [UaTagBinding.key, h1] at hk
      exact uaKey_inj.1 hk
    have hlive : ∀ c n dt b, (s.sync call).live c n = some dt →
        (s.sync call).registry.get? (uaKey c n) = some b →
        b.connId = c ∧ b.logicalName = n ∧ (b.retired = true ↔ b.datatype ≠ dt) := by
      intro c n dt b hl hg
      rw [get?_sync hreg hc] at hg
      rw [sync_live hc] at hl
      by_cases hcc : c = call.connId
      · subst hcc
        rw [Function.update_self, liveDatatype] at hl
        obtain ⟨⟨tag, seed⟩, ht, rfl⟩ := Option.map_eq_some_iff.1 hl
        obtain ⟨hm, hk, hs⟩ := liveTagIn_eq_some ht
        have hname : tag.name = n := uaKey_inj.1 hk
        rw [nodeAfter, ht] at hg
        have hres := syncNode_live hs
          (fun b hb => hmine tag hm (by rw [hs]; rfl) b (by rw [hk]; exact hb))
          (fun b hb => h.closed b (RegistryOk.mem_of_get? hb)) hg
        rw [hname] at hres
        exact hres
      · rw [Function.update_of_ne hcc] at hl
        cases ht : liveTag call (uaKey c n) with
        | some x =>
          obtain ⟨tag, seed⟩ := x
          obtain ⟨hm, hk, hs⟩ := liveTagIn_eq_some ht
          exact absurd (hclear.live tag hm (by rw [hs]; rfl) c n (by rw [hl]; rfl) hk.symm) hcc
        | none =>
          rw [nodeAfter, ht] at hg
          obtain ⟨b₀, hb₀, ⟨-, rfl⟩ | ⟨hb, -⟩⟩ := retireNode_eq_some hg
          · exact h.live c n dt _ hl hb₀
          · exact absurd ((h.live c n dt b₀ hl hb₀).1.symm.trans hb) hcc
    refine ⟨hreg'.wf.own, hlive, fun b hb hl => ?_, hreg'.wf.dead, hreg'.closed⟩
    obtain ⟨i, hi⟩ := List.mem_iff_getElem?.1 hb
    rcases hreg'.wf.dead i b hi with hcur | hdead
    · have hg : (s.sync call).registry.get? b.key = some b := by
        rw [Lib.Arena.get?, hcur]
        exact hi
      have hg' := hg
      rw [get?_sync hreg hc] at hg'
      rw [sync_live hc] at hl
      cases ht : liveTag call b.key with
      | some x =>
        obtain ⟨tag, seed⟩ := x
        obtain ⟨hm, hk, hs⟩ := liveTagIn_eq_some ht
        rw [nodeAfter, ht] at hg'
        obtain ⟨h1, h2, -⟩ := syncNode_live hs
          (fun b' hb' => hmine tag hm (by rw [hs]; rfl) b' (by rw [hk]; exact hb'))
          (fun b' hb' => h.closed b' (RegistryOk.mem_of_get? hb')) hg'
        rw [h1, h2, Function.update_self, liveDatatype] at hl
        have hsome := liveTag_of_mem hm hs
        rw [UaSyncCall.key] at hsome
        rw [hsome] at hl
        cases hl
      | none =>
        rw [nodeAfter, ht] at hg'
        obtain ⟨b₀, hb₀, ⟨hne, rfl⟩ | ⟨-, rfl⟩⟩ := retireNode_eq_some hg'
        · rw [Function.update_of_ne hne] at hl
          exact h.notLive b (RegistryOk.mem_of_get? hb₀) hl
        · exact uaRetireTagBinding_dead b₀ (h.closed b₀ (RegistryOk.mem_of_get? hb₀))
    · exact hdead

/-- What a call with clear keys leaves alone. -/
theorem sync_syncOk (h : BindingsOk s) (hclear : Clear s call) : SyncOk s call := by
  cases hc : call.completes with
  | false =>
    refine ⟨fun i b hb _ => ?_, fun key b b' hb hb' => ?_⟩
    · rw [sync_of_not_completes hc]
      exact ⟨hb, id⟩
    · rw [sync_of_not_completes hc, hb, Option.some.injEq] at hb'
      rw [hb']
      exact ⟨rfl, rfl⟩
  | true =>
    have hreg := h.registryOk
    refine ⟨fun i b hb hne => ⟨slot_sync hreg hc hclear hb hne, fun hg => ?_⟩,
      fun key b b' hb hb' => ?_⟩
    · rw [get?_sync hreg hc, nodeAfter]
      cases ht : liveTag call b.key with
      | some x =>
        obtain ⟨tag, seed⟩ := x
        obtain ⟨hm, hk, hs⟩ := liveTagIn_eq_some ht
        exact absurd (hclear.binding tag hm (by rw [hs]; rfl) b (by rw [hk]; exact hg)) hne
      | none =>
        dsimp only
        rw [hg, retireNode, if_pos hne]
    · rw [get?_sync hreg hc, nodeAfter, hb] at hb'
      cases ht : liveTag call key with
      | some x =>
        rw [ht] at hb'
        exact syncNode_of_some hb'
      | none =>
        rw [ht] at hb'
        obtain ⟨b₀, hb₀, ⟨-, rfl⟩ | ⟨-, rfl⟩⟩ := retireNode_eq_some hb'
        · cases hb₀
          exact ⟨rfl, rfl⟩
        · cases hb₀
          simp

end

/-! ## Start-up -/

theorem mem_liveKeys {call : UaSyncCall} {key : String} :
    key ∈ liveKeys call ↔ call.connectionObject = true ∧ (liveTag call key).isSome := by
  unfold liveKeys
  split
  · simp_all
  · rename_i hc
    simp only [Bool.not_eq_true', Bool.not_eq_false] at hc
    simp only [hc, true_and, List.mem_map, List.mem_filter]
    constructor
    · rintro ⟨tag, ⟨hm, hs⟩, rfl⟩
      obtain ⟨seed, hs⟩ := Option.isSome_iff_exists.1 hs
      rw [liveTag_of_mem hm hs]
      rfl
    · intro h
      obtain ⟨⟨tag, seed⟩, hl⟩ := Option.isSome_iff_exists.1 h
      obtain ⟨hm, hk, hs⟩ := liveTagIn_eq_some hl
      exact ⟨tag, ⟨hm, by rw [hs]; rfl⟩, hk⟩

theorem newBinding_key {call : UaSyncCall} {tag : TagRuntime} {b : UaTagBinding}
    (h : newBinding call tag = some b) : b.key = call.key tag := by
  obtain ⟨-, -, h1, h2, -, -⟩ := newBinding_eq_some h
  rw [UaTagBinding.key, h1, h2]
  rfl

/-- Each binding has the key of its own live tag. -/
theorem startBindings_keys (call : UaSyncCall) :
    List.Sublist ((startBindings call).map UaTagBinding.key) (liveKeys call) := by
  unfold startBindings liveKeys
  split
  · exact .slnil
  · induction call.driver.tags with
    | nil => exact .slnil
    | cons tag tags ih =>
      rw [List.filterMap_cons]
      split
      · refine ih.trans (List.Sublist.map _ ?_)
        exact (List.sublist_cons_self tag tags).filter _
      · rename_i b hb
        obtain ⟨seed, hs, -⟩ := newBinding_eq_some hb
        have hlive : (call.liveSeed tag).isSome = true := by rw [hs]; rfl
        rw [List.filter_cons, if_pos hlive, List.map_cons, List.map_cons, newBinding_key hb]
        exact ih.cons_cons _

theorem startBindings_nodup {calls : List UaSyncCall} (h : StartClear calls) :
    ((calls.flatMap startBindings).map UaTagBinding.key).Nodup := by
  refine List.Nodup.sublist ?_ h
  clear h
  induction calls with
  | nil => exact .slnil
  | cons call calls ih =>
    rw [List.flatMap_cons, List.flatMap_cons, List.map_append]
    exact (startBindings_keys call).append ih

/-- A key belongs to one driver only. -/
theorem liveKeys_unique {calls : List UaSyncCall} (h : StartClear calls) {call call' : UaSyncCall}
    (hm : call ∈ calls) (hm' : call' ∈ calls) {key : String} (hk : key ∈ liveKeys call)
    (hk' : key ∈ liveKeys call') : call = call' := by
  by_contra hne
  have hdisj : calls.Pairwise (Function.onFun List.Disjoint liveKeys) :=
    (List.nodup_flatMap.1 h).2
  have hsymm : Std.Symm (Function.onFun List.Disjoint (liveKeys)) :=
    ⟨fun _ _ hd _ h1 h2 => hd h2 h1⟩
  exact hdisj.forall hm hm' hne hk hk'

theorem start_bindingsOk {calls : List UaSyncCall} (h : StartClear calls) :
    BindingsOk (UaState.start calls) := by
  have hnd := startBindings_nodup h
  have hwf : (UaState.start calls).registry.Wf UaTagBinding.key UaTagBinding.Dead :=
    Lib.Arena.wf_ofList hnd
  have hmem : ∀ b ∈ calls.flatMap startBindings, ∃ call ∈ calls, ∃ tag ∈ call.driver.tags,
      newBinding call tag = some b ∧ call.connectionObject = true := by
    intro b hb
    obtain ⟨call, hc, hb⟩ := List.mem_flatMap.1 hb
    unfold startBindings at hb
    split at hb
    · cases hb
    · rename_i hobj
      obtain ⟨tag, ht, hb⟩ := List.mem_filterMap.1 hb
      exact ⟨call, hc, tag, ht, hb, by simpa using hobj⟩
  refine ⟨hwf.own, fun c n dt b hl hg => ?_, fun b hb hl => ?_, hwf.dead, fun b hb hr => ?_⟩
  · obtain ⟨hb, hk⟩ := (Lib.Arena.get?_ofList hnd).1 hg
    obtain ⟨call', hc', tag, ht, hnew, hobj'⟩ := hmem b hb
    obtain ⟨seed, hs, h1, h2, h3, h4⟩ := newBinding_eq_some hnew
    obtain ⟨call, hc, hl⟩ := List.exists_of_findSome?_eq_some hl
    split at hl
    · rename_i hobj
      obtain ⟨⟨t, s⟩, hlt, rfl⟩ := Option.map_eq_some_iff.1 hl
      have hkey : b.key = call'.key tag := newBinding_key hnew
      have hlt' := liveTag_of_mem ht hs
      have hsame : call = call' := by
        refine liveKeys_unique h hc hc' (mem_liveKeys.2 ⟨hobj.1, by rw [hlt]; rfl⟩)
          (mem_liveKeys.2 ⟨hobj', ?_⟩)
        rw [hobj.2, ← hk, hkey, hlt']
        rfl
      subst hsame
      rw [hobj.2, ← hk, hkey, hlt'] at hlt
      cases hlt
      refine ⟨h1.trans hobj.2, ?_, by simp [h3, h4]⟩
      rw [UaTagBinding.key, h1, hobj.2] at hk
      exact uaKey_inj.1 hk
    · cases hl
  · obtain ⟨call, hc, tag, ht, hnew, hobj⟩ := hmem b hb
    obtain ⟨seed, hs, h1, h2, h3, h4⟩ := newBinding_eq_some hnew
    have hnone := List.findSome?_eq_none_iff.1 hl call hc
    rw [if_pos ⟨hobj, h1.symm⟩, liveDatatype, h2] at hnone
    have hlt := liveTag_of_mem ht hs
    rw [UaSyncCall.key] at hlt
    rw [hlt] at hnone
    cases hnone
  · obtain ⟨call, hc, tag, ht, hnew, hobj⟩ := hmem b hb
    obtain ⟨-, -, -, -, -, h4⟩ := newBinding_eq_some hnew
    rw [h4] at hr
    cases hr

/-! ## Every run -/

/-- **The registry stays in order over every run with clear keys**: in every state reached, and in
every call made on the way. -/
theorem bindings_ok_along_reloads {starts calls : List UaSyncCall} (hstart : StartClear starts)
    (hrun : Lib.Along UaState.sync Clear (.start starts) calls) :
    BindingsOk (Lib.run UaState.sync (.start starts) calls) ∧
      ∀ before call after, calls = before ++ call :: after →
        SyncOk (Lib.run UaState.sync (.start starts) before) call := by
  have hstep : ∀ s call, BindingsOk s → Clear s call → BindingsOk (s.sync call) :=
    fun _ _ h hclear => sync_bindingsOk h hclear
  refine ⟨Lib.run_invariant hstep (start_bindingsOk hstart) hrun, ?_⟩
  rintro before call after rfl
  obtain ⟨h, hclear⟩ := Lib.run_step hstep (start_bindingsOk hstart) hrun
  exact sync_syncOk h hclear

/-! ## Ids without a colon -/

omit [Floats] in
/-- A key gives the connection id back where the id has no colon. -/
theorem connId_of_uaKey {c c' n n' : String} (hc : ':' ∉ c.toList) (hc' : ':' ∉ c'.toList)
    (h : uaKey c n = uaKey c' n') : c = c' := by
  have hread : ∀ {d m : String}, ':' ∉ d.toList →
      (uaKey d m).toList.takeWhile (fun x => x != ':') = d.toList := by
    intro d m hd
    have hall : ∀ x ∈ d.toList, (x != ':') = true := by
      intro x hx
      have hne : x ≠ ':' := fun he => hd (he ▸ hx)
      simpa using hne
    simp only [uaKey, String.toList_append, List.append_assoc]
    rw [List.takeWhile_append_of_pos hall]
    simp
  rw [← String.toList_inj, ← hread hc, h, hread hc']

/-- Connections whose bindings or live tags a state knows have no colon in their id. -/
structure NoColon (s : UaState) : Prop where
  binding : ∀ key b, s.registry.get? key = some b → ':' ∉ b.connId.toList
  live : ∀ c n, (s.live c n).isSome → ':' ∉ c.toList

theorem NoColon.clear {s : UaState} {call : UaSyncCall} (h : NoColon s) (hreg : RegistryOk s.registry)
    (hc : ':' ∉ call.connId.toList) : Clear s call := by
  refine ⟨fun tag _ _ b hb => ?_, fun tag _ _ c n hl hk => ?_⟩
  · exact connId_of_uaKey (h.binding _ b hb) hc (hreg.wf.get?_own hb)
  · exact connId_of_uaKey (h.live c n hl) hc hk

theorem NoColon.sync {s : UaState} {call : UaSyncCall} (h : NoColon s) (hreg : RegistryOk s.registry)
    (hc : ':' ∉ call.connId.toList) : NoColon (s.sync call) := by
  cases hcomp : call.completes with
  | false => rwa [sync_of_not_completes hcomp]
  | true =>
    refine ⟨fun key b hb => ?_, fun c n hl => ?_⟩
    · rw [get?_sync hreg hcomp, nodeAfter] at hb
      split at hb
      · cases ho : s.registry.get? key with
        | none =>
          rw [ho] at hb
          obtain ⟨-, -, h1, -⟩ := newBinding_eq_some hb
          rwa [h1]
        | some b₀ =>
          rw [ho] at hb
          simp only [syncNode, Option.some.injEq] at hb
          subst hb
          split
          · rw [uaRetireTagBinding_connId]
            exact h.binding key b₀ ho
          · exact hc
      · obtain ⟨b₀, hb₀, ⟨-, rfl⟩ | ⟨-, rfl⟩⟩ := retireNode_eq_some hb
        · exact h.binding key _ hb₀
        · rw [uaRetireTagBinding_connId]
          exact h.binding key b₀ hb₀
    · rw [sync_live hcomp] at hl
      by_cases hcc : c = call.connId
      · rwa [hcc]
      · rw [Function.update_of_ne hcc] at hl
        exact h.live c n hl

theorem start_noColon {starts : List UaSyncCall} (hstart : StartClear starts)
    (h : ∀ call ∈ starts, ':' ∉ call.connId.toList) : NoColon (.start starts) := by
  refine ⟨fun key b hb => ?_, fun c n hl => ?_⟩
  · obtain ⟨hb, -⟩ := (Lib.Arena.get?_ofList (startBindings_nodup hstart)).1 hb
    obtain ⟨call, hc, hb⟩ := List.mem_flatMap.1 hb
    unfold startBindings at hb
    split at hb
    · cases hb
    · obtain ⟨tag, -, hb⟩ := List.mem_filterMap.1 hb
      obtain ⟨-, -, h1, -⟩ := newBinding_eq_some hb
      rw [h1]
      exact h call hc
  · obtain ⟨dt, hl⟩ := Option.isSome_iff_exists.1 hl
    obtain ⟨call, hc, hl⟩ := List.exists_of_findSome?_eq_some hl
    split at hl
    · rename_i hobj
      rw [← hobj.2]
      exact h call hc
    · cases hl

/-- Drivers with distinct ids that have no colon never share a key. -/
theorem start_clear_of_no_colon {starts : List UaSyncCall}
    (hids : (starts.map UaSyncCall.connId).Nodup)
    (h : ∀ call ∈ starts, ':' ∉ call.connId.toList) : StartClear starts := by
  refine List.nodup_flatMap.2 ⟨fun call _ => ?_, ?_⟩
  · unfold liveKeys
    split
    · exact List.nodup_nil
    · have hsub := (List.filter_sublist (p := fun tag => (call.liveSeed tag).isSome)
        (l := call.driver.tags)).map TagRuntime.name
      have hnd := call.driver.names_nodup.sublist hsub
      rw [List.Nodup, List.pairwise_map] at hnd ⊢
      exact hnd.imp fun hne he => hne (uaKey_inj.1 he)
  · rw [List.Nodup, List.pairwise_map] at hids
    refine hids.imp_of_mem fun {call call'} hm hm' hne key hk hk' => hne ?_
    obtain ⟨⟨tag, seed⟩, hl⟩ := Option.isSome_iff_exists.1 (mem_liveKeys.1 hk).2
    obtain ⟨⟨tag', seed'⟩, hl'⟩ := Option.isSome_iff_exists.1 (mem_liveKeys.1 hk').2
    obtain ⟨-, h1, -⟩ := liveTagIn_eq_some hl
    obtain ⟨-, h2, -⟩ := liveTagIn_eq_some hl'
    exact connId_of_uaKey (h call hm) (h call' hm') (h1.trans h2.symm)

/-- Ids without a colon keep the keys of a whole run clear. -/
theorem along_clear_of_no_colon {starts calls : List UaSyncCall} (hstart : StartClear starts)
    (h : ∀ call ∈ starts, ':' ∉ call.connId.toList)
    (h' : ∀ call ∈ calls, ':' ∉ call.connId.toList) :
    Lib.Along UaState.sync Clear (.start starts) calls := by
  have hgen : ∀ (calls : List UaSyncCall) (s : UaState), BindingsOk s → NoColon s →
      (∀ call ∈ calls, ':' ∉ call.connId.toList) → Lib.Along UaState.sync Clear s calls := by
    intro calls
    induction calls with
    | nil => exact fun _ _ _ _ => trivial
    | cons call calls ih =>
      intro s hok hs hcalls
      have hc := hcalls call (by simp)
      have hclear := hs.clear hok.registryOk hc
      exact ⟨hclear, ih _ (sync_bindingsOk hok hclear) (hs.sync hok.registryOk hc)
        fun c hm => hcalls c (List.mem_cons_of_mem _ hm)⟩
  exact hgen calls _ (start_bindingsOk hstart) (start_noColon hstart h) h'

end

/-! ## A retyped tag, and two tags with one key -/

section
attribute [local instance] intFloats

def motorDriver (datatype : String) : DriverContext where
  freshnessEpoch := 1
  conn := { id := "PLC", driver := "ab_eip" }
  tags := [{ cfg := { logicalName := "Motor", datatype := datatype, writable := true } }]
  names_nodup := by simp

def emptyDriver : DriverContext :=
  { freshnessEpoch := 1, conn := { id := "PLC", driver := "ab_eip" }, tags := [] }

def motorStart : List UaSyncCall := [{ driver := motorDriver "int32", now := ⟨1, 1⟩ }]

/-- A tag is retyped, typed back and removed while its node cannot be deleted. -/
def motorReloads : List UaSyncCall :=
  [{ driver := motorDriver "float32", now := ⟨2, 2⟩ }, { driver := motorDriver "int32", now := ⟨3, 3⟩ },
    { driver := emptyDriver, deleteNode := fun _ => false, now := ⟨4, 4⟩ }]

theorem motor_bindings_ok : BindingsOk (Lib.run UaState.sync (.start motorStart) motorReloads) ∧
    ∀ before call after, motorReloads = before ++ call :: after →
      SyncOk (Lib.run UaState.sync (.start motorStart) before) call := by
  have hstart : StartClear motorStart := start_clear_of_no_colon (by decide) (by decide)
  exact bindings_ok_along_reloads hstart (along_clear_of_no_colon hstart (by decide) (by decide))

/-- Tag `B::C` of connection `A`. -/
def firstOwner : UaSyncCall :=
  { driver := { freshnessEpoch := 1, conn := { id := "A", driver := "ab_eip" },
                tags := [{ cfg := { logicalName := "B::C", datatype := "int32" } }] }
    now := ⟨1, 1⟩ }

/-- Tag `C` of connection `A::B`. -/
def secondOwner : UaSyncCall :=
  { driver := { freshnessEpoch := 1, conn := { id := "A::B", driver := "ab_eip" },
                tags := [{ cfg := { logicalName := "C", datatype := "int32" } }] }
    now := ⟨1, 1⟩ }

/-- The sync of `A::B` hands the node of `A` to its own tag. -/
theorem binding_taken_over :
    ¬ SyncOk ((UaState.start []).sync firstOwner) secondOwner ∧
      (((UaState.start []).sync firstOwner).sync secondOwner).registry.slots.map
        (fun b => (b.nodeId, b.connId, b.logicalName)) =
        [("Tags/A/B%3A%3AC", "A::B", "C")] := by
  refine ⟨fun h => ?_, by decide +kernel⟩
  generalize hs : (UaState.start []).sync firstOwner = s at h
  have hconn : (s.registry.slots[0]?).map UaTagBinding.connId = some "A" := by
    rw [← hs]
    decide +kernel
  have hnow : ((s.sync secondOwner).registry.slots[0]?).map UaTagBinding.connId = some "A::B" := by
    rw [← hs]
    decide +kernel
  obtain ⟨b, hb, hid⟩ := Option.map_eq_some_iff.1 hconn
  have hother : b.connId ≠ secondOwner.connId := by
    rw [hid]
    decide
  rw [(h.others 0 b hb hother).1, Option.map_some, hid] at hnow
  exact absurd hnow (by decide)

end

end OpcBridge
