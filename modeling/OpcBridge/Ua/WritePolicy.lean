import OpcBridge.Load.Build
import OpcBridge.Ua.Registry

/-!
# The write policy of nodes

Three places decide whether a tag has a node and who may write it: the start-up
(`startupPolicy`), the incremental add (`addedPolicy`) and the update of a bound node
(`updatedPolicy`). All three ask `ua_tag_has_node` and the value; only the update closes whole arrays
for writes in both the node and the binding, the start-up in the node alone, the add in neither
(`one_write_policy_iff`).

`policies_of_bindings` connects the three with the bindings of the registry: what a sync leaves of a
live tag, after any history, is `addedPolicy` or `updatedPolicy`.
-/

namespace OpcBridge

section
variable [Floats]

/-! ## The three places -/

/-- `UA_ACCESSLEVELMASK_READ` -/
def accessLevelRead : UInt8 := 1

/-- `UA_ACCESSLEVELMASK_WRITE` -/
def accessLevelWrite : UInt8 := 2

/-- The access level of a node and the flag of its binding. -/
structure UaNodePolicy where
  accessLevel : UInt8
  writable : Bool
deriving DecidableEq

/-- The server takes writes of clients. -/
def UaNodePolicy.clientWritable (policy : UaNodePolicy) : Bool :=
  policy.accessLevel &&& accessLevelWrite != 0

def accessLevelOf (write : Bool) : UInt8 :=
  if write then accessLevelRead ||| accessLevelWrite else accessLevelRead

/-- The seed of the tag can be the value of a node. -/
def hasNodeValue (conn : ConnectionConfig) (tag : TagRuntime) (now : Instant) : Bool :=
  match uaSetVariableAttrFromSnapshot (makeInitialSnapshotForOpcua conn tag now) with
  | .ok (some _) => true
  | _ => false

/-- `init_opcua_server` -/
def startupPolicy (conn : ConnectionConfig) (tag : TagRuntime) (now : Instant) :
    Option UaNodePolicy :=
  if !tag.cfg.enabled then none
  else if !uaTagHasNode conn tag then none
  else
    let accessLevel := accessLevelOf (tag.cfg.writable && decide (tag.cfg.elemCount ≤ 1))
    if !hasNodeValue conn tag now then none
    else some { accessLevel, writable := tag.cfg.writable }

/-- `ua_add_tag_variable_node` -/
def addedPolicy (conn : ConnectionConfig) (tag : TagRuntime) (now : Instant) :
    Option UaNodePolicy :=
  if !uaTagHasNode conn tag then none
  else
    let accessLevel := accessLevelOf tag.cfg.writable
    if !hasNodeValue conn tag now then none
    else some { accessLevel, writable := tag.cfg.writable }

/-- The update of a node in `sync_opcua_connection_nodes`; a node that is not live is deleted, one
with another datatype retired. -/
def updatedPolicy (conn : ConnectionConfig) (tag : TagRuntime) (now : Instant)
    (binding : UaTagBinding) : Option UaNodePolicy :=
  if !uaTagHasNode conn tag then none
  else if !hasNodeValue conn tag now then none
  else if binding.datatype ≠ (makeInitialSnapshotForOpcua conn tag now).datatype then
    some { accessLevel := accessLevelRead, writable := false }
  else
    let writable := tag.cfg.writable && decide (tag.cfg.elemCount ≤ 1)
    some { accessLevel := accessLevelOf writable, writable }

variable {conn : ConnectionConfig} {tag : TagRuntime} {now : Instant} {binding : UaTagBinding}

/-! ## Agreement -/

/-- The three places agree on the node of a tag, and a whole array is closed for clients. -/
structure OnePolicy (conn : ConnectionConfig) (tag : TagRuntime) (now : Instant)
    (binding : UaTagBinding) : Prop where
  added : addedPolicy conn tag now = startupPolicy conn tag now
  updated : updatedPolicy conn tag now binding = startupPolicy conn tag now
  array : 1 < tag.cfg.elemCount → ∀ policy, startupPolicy conn tag now = some policy ∨
    addedPolicy conn tag now = some policy ∨ updatedPolicy conn tag now binding = some policy →
    policy.clientWritable = false

/-- A tag that is live: the eligibility of the three places. -/
theorem live_iff : (liveSeed conn tag now).isSome =
    (uaTagHasNode conn tag && hasNodeValue conn tag now) := by
  unfold liveSeed hasNodeValue
  cases uaTagHasNode conn tag with
  | false => rfl
  | true =>
    rw [Bool.true_and, Bool.not_true, if_neg Bool.false_ne_true]
    dsimp only
    split
    · rename_i hattr
      rw [hattr]
      rfl
    · rename_i hattr
      rw [hattr]
      rfl
    · rename_i hattr
      rw [hattr]
      rfl

theorem enabled_of_hasNode (h : uaTagHasNode conn tag = true) : tag.cfg.enabled = true := by
  simp only [uaTagHasNode, Bool.and_eq_true] at h
  exact h.1

theorem startupPolicy_eq (conn : ConnectionConfig) (tag : TagRuntime) (now : Instant) :
     startupPolicy conn tag now =
    if (liveSeed conn tag now).isSome then
      some ⟨accessLevelOf (tag.cfg.writable && decide (tag.cfg.elemCount ≤ 1)), tag.cfg.writable⟩
    else none := by
  rw [live_iff]
  unfold startupPolicy
  cases hnode : uaTagHasNode conn tag with
  | false => simp
  | true =>
    rw [enabled_of_hasNode hnode]
    cases hasNodeValue conn tag now <;> rfl

theorem addedPolicy_eq (conn : ConnectionConfig) (tag : TagRuntime) (now : Instant) :
     addedPolicy conn tag now =
    if (liveSeed conn tag now).isSome then
      some ⟨accessLevelOf tag.cfg.writable, tag.cfg.writable⟩
    else none := by
  rw [live_iff]
  unfold addedPolicy
  cases uaTagHasNode conn tag <;> cases hasNodeValue conn tag now <;> rfl

theorem updatedPolicy_eq
    (h : binding.datatype = (makeInitialSnapshotForOpcua conn tag now).datatype) :
    updatedPolicy conn tag now binding =
      if (liveSeed conn tag now).isSome then
        some ⟨accessLevelOf (tag.cfg.writable && decide (tag.cfg.elemCount ≤ 1)),
          tag.cfg.writable && decide (tag.cfg.elemCount ≤ 1)⟩
      else none := by
  rw [live_iff]
  unfold updatedPolicy
  rw [if_neg (not_not.2 h)]
  cases uaTagHasNode conn tag <;> cases hasNodeValue conn tag now <;> rfl

/-- **One write policy.** The three places agree if and only if the tag is no writable array with a
node. -/
theorem one_write_policy_iff (conn : ConnectionConfig) (tag : TagRuntime) (now : Instant)
    (binding : UaTagBinding)
    (h : binding.datatype = (makeInitialSnapshotForOpcua conn tag now).datatype) :
    OnePolicy conn tag now binding ↔
      ((liveSeed conn tag now).isSome → tag.cfg.writable = true → tag.cfg.elemCount ≤ 1) := by
  have hstartup := startupPolicy_eq conn tag now
  have hadded := addedPolicy_eq conn tag now
  have hupdated := updatedPolicy_eq h
  cases hlive : (liveSeed conn tag now).isSome with
  | false =>
    rw [hlive, if_neg Bool.false_ne_true] at hstartup hadded hupdated
    refine iff_of_true ⟨hadded.trans hstartup.symm, hupdated.trans hstartup.symm, ?_⟩ nofun
    intro _ policy hpolicy
    rw [hstartup, hadded, hupdated] at hpolicy
    rcases hpolicy with hpolicy | hpolicy | hpolicy <;> cases hpolicy
  | true =>
    rw [hlive, if_pos rfl] at hstartup hadded hupdated
    constructor
    · intro hone _ hwritable
      have hsame := hone.updated
      rw [hstartup, hupdated, hwritable] at hsame
      simpa using hsame
    · intro hclosed
      have hwritable : (tag.cfg.writable && decide (tag.cfg.elemCount ≤ 1)) = tag.cfg.writable := by
        cases hw : tag.cfg.writable with
        | false => rfl
        | true => simpa using hclosed rfl hw
      rw [hwritable] at hstartup hupdated
      refine ⟨hadded.trans hstartup.symm, hupdated.trans hstartup.symm, fun harray policy hpolicy => ?_⟩
      have hread : tag.cfg.writable = false := by
        cases hw : tag.cfg.writable with
        | false => rfl
        | true => exact absurd (hclosed rfl hw) (not_le.2 harray)
      rw [hstartup, hadded, hupdated, hread] at hpolicy
      rcases hpolicy with hpolicy | hpolicy | hpolicy <;> cases hpolicy <;> rfl

/-! ## The bindings -/

theorem newBinding_writable {call : UaSyncCall} {b : UaTagBinding}
    (h : newBinding call tag = some b) : b.writable = tag.cfg.writable := by
  obtain ⟨b', hb', rfl⟩ := Option.map_eq_some_iff.1 h
  unfold uaAddTagVariableNode at hb'
  split at hb'
  · cases hb'
  · dsimp only at hb'
    split at hb'
    · split at hb'
      · cases hb'
      · cases hb'
        rfl
    · cases hb'

/-- What a sync leaves of a live tag is the policy of the add or of the update, whatever the binding
was before. -/
theorem policies_of_bindings {call : UaSyncCall} {seed : TagSnapshot}
    (hlive : call.liveSeed tag = some seed) {before : Option UaTagBinding} {after : UaTagBinding}
    (hbefore : ∀ b ∈ before, b.retired = true → b.writable = false)
    (hafter : syncNode call tag seed before = some after) :
    ∃ policy, (match before with
        | none => addedPolicy call.driver.conn tag call.now
        | some b => updatedPolicy call.driver.conn tag call.now b) = some policy ∧
      policy.writable = after.writable := by
  obtain ⟨hnode, rfl, attr, hattr⟩ := liveSeed_eq_some hlive
  have hvalue : hasNodeValue call.driver.conn tag call.now = true := by
    unfold hasNodeValue
    rw [hattr]
  cases before with
  | none =>
    refine ⟨⟨accessLevelOf tag.cfg.writable, tag.cfg.writable⟩, ?_, ?_⟩
    · simp [addedPolicy, hnode, hvalue]
    · exact (newBinding_writable hafter).symm
  | some b =>
    obtain rfl : _ = after := Option.some.inj hafter
    by_cases hdt : b.datatype =
        (makeInitialSnapshotForOpcua call.driver.conn tag call.now).datatype
    · refine ⟨⟨accessLevelOf (tag.cfg.writable && decide (tag.cfg.elemCount ≤ 1)),
        tag.cfg.writable && decide (tag.cfg.elemCount ≤ 1)⟩, ?_, ?_⟩
      · simp [updatedPolicy, hnode, hvalue, hdt]
      · rw [if_neg (not_not.2 hdt)]
        rfl
    · refine ⟨⟨accessLevelRead, false⟩, ?_, ?_⟩
      · simp [updatedPolicy, hnode, hvalue, hdt]
      · rw [if_pos hdt]
        exact (uaRetireTagBinding_dead b (hbefore b rfl)).2.symm

/-- **After every history** of connections whose ids have no colon, a live tag that is no writable
array and kept its datatype is bound as a fresh start would bind it. -/
theorem writable_after_reloads {starts calls : List UaSyncCall} {call : UaSyncCall}
    (hids : (starts.map UaSyncCall.connId).Nodup)
    (hcolon : ∀ c ∈ starts ++ calls, ':' ∉ c.connId.toList)
    (hcall : call.completes = true) (htag : tag ∈ call.driver.tags) {seed : TagSnapshot}
    (hlive : call.liveSeed tag = some seed) {after : UaTagBinding}
    (hafter : ((Lib.run UaState.sync (.start starts) calls).sync call).registry.get?
      (call.key tag) = some after)
    (hdt : after.datatype = seed.datatype)
    (hclosed : tag.cfg.writable = true → tag.cfg.elemCount ≤ 1) :
    (startupPolicy call.driver.conn tag call.now).map UaNodePolicy.writable =
      some after.writable := by
  have hstart := start_clear_of_no_colon hids fun c hc => hcolon c (List.mem_append_left _ hc)
  have hrun := along_clear_of_no_colon hstart (fun c hc => hcolon c (List.mem_append_left _ hc))
    fun c hc => hcolon c (List.mem_append_right _ hc)
  have hok := (Lib.run_invariant (fun _ _ h hclear => sync_bindingsOk h hclear)
    (start_bindingsOk hstart) hrun).registryOk
  generalize Lib.run UaState.sync (.start starts) calls = s at hafter hok
  rw [get?_sync hok hcall, nodeAfter, liveTag_of_mem htag hlive] at hafter
  obtain ⟨policy, hpolicy, hwritable⟩ := policies_of_bindings hlive
    (fun b hb => hok.closed b (RegistryOk.mem_of_get? hb)) hafter
  have hwrite : (tag.cfg.writable && decide (tag.cfg.elemCount ≤ 1)) = tag.cfg.writable := by
    cases hw : tag.cfg.writable with
    | false => rfl
    | true => simpa using hclosed hw
  have hsome : (OpcBridge.liveSeed call.driver.conn tag call.now).isSome = true := by
    show (call.liveSeed tag).isSome = true
    rw [hlive]
    rfl
  obtain ⟨-, rfl, -⟩ := liveSeed_eq_some hlive
  rw [startupPolicy_eq, if_pos hsome, ← hwritable]
  cases hbefore : s.registry.get? (call.key tag) with
  | none =>
    rw [hbefore] at hpolicy
    rw [addedPolicy_eq, if_pos hsome] at hpolicy
    cases hpolicy
    rfl
  | some b =>
    rw [hbefore] at hpolicy hafter
    have hsame : b.datatype = after.datatype := by
      obtain rfl : _ = after := Option.some.inj hafter
      split
      · exact (uaRetireTagBinding_datatype b).symm
      · rfl
    dsimp only at hpolicy
    rw [updatedPolicy_eq (hsame.trans hdt), if_pos hsome, hwrite] at hpolicy
    cases hpolicy
    rfl

end

section
attribute [local instance] intFloats

def lineConnection : ConnectionConfig := { id := "PLC", driver := "ab_eip" }

/-- A writable tag with a deferred handle. -/
def levelTag (elemCount : Nat) : TagRuntime :=
  makeRoot { logicalName := "Level", datatype := "int16", elemCount, writable := true } true

def levelBinding : UaTagBinding where
  handle := plctagErrNotFound
  datatype := "int16"
  nodeId := "PLC/Level"
  connId := "PLC"
  logicalName := "Level"
  writable := true

def motorBack : UaSyncCall := { driver := motorDriver "int32", now := ⟨3, 3⟩ }

def motorTag : TagRuntime := (motorDriver "int32").tags.head (List.cons_ne_nil _ _)

/-- A tag is open again after it was retyped and typed back. -/
theorem motor_writable_again :
    (startupPolicy motorBack.driver.conn motorTag motorBack.now).map UaNodePolicy.writable =
      (((Lib.run UaState.sync (.start motorStart) (motorReloads.take 1)).sync
        motorBack).registry.get? (motorBack.key motorTag)).map UaTagBinding.writable := by
  have hdatatype : (((Lib.run UaState.sync (.start motorStart) (motorReloads.take 1)).sync
      motorBack).registry.get? (motorBack.key motorTag)).map UaTagBinding.datatype =
        some "int32" := by
    decide +kernel
  have hseed : (motorBack.liveSeed motorTag).map TagSnapshot.datatype = some "int32" := by
    decide +kernel
  obtain ⟨after, hafter, hdt⟩ := Option.map_eq_some_iff.1 hdatatype
  obtain ⟨seed, hlive, hdt'⟩ := Option.map_eq_some_iff.1 hseed
  rw [hafter]
  exact writable_after_reloads (by decide) (by decide) (by decide) (List.mem_singleton_self _) hlive
    hafter (hdt.trans hdt'.symm) fun _ => by decide

theorem level_one_policy : OnePolicy lineConnection (levelTag 1) ⟨1, 1⟩ levelBinding :=
  (one_write_policy_iff lineConnection (levelTag 1) ⟨1, 1⟩ levelBinding (by decide +kernel)).2
    fun _ _ => Nat.le_refl 1

/-- A writable array is open for clients after an add, and its binding after a start. -/
theorem array_policies : ¬ ∀ (conn : ConnectionConfig) (tag : TagRuntime) (now : Instant)
    (binding : UaTagBinding),
    binding.datatype = (makeInitialSnapshotForOpcua conn tag now).datatype →
    OnePolicy conn tag now binding := by
  intro h
  have harray := (h lineConnection (levelTag 3) ⟨1, 1⟩ levelBinding (by decide +kernel)).array
    (by decide) ⟨3, true⟩ (.inr (.inl (by decide +kernel)))
  exact absurd harray (by decide)

end

end OpcBridge
