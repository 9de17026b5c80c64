import OpcBridge.Load.Drivers

/-!
# Entries with other writability

The full loader overrides the writability of the tags of an MQTT connection before it builds the
driver. `build_setWritable` says that the driver then has the same tags, each with the new
writability of the entry it comes from, and `tagConfigs_normalized` when that changes nothing.
-/

namespace OpcBridge

variable [Floats]

/-! ## Writability -/

/-- The entry that a runtime tag comes from. -/
def TagRuntime.root (t : TagRuntime) : String := if t.pollSource = "" then t.name else t.pollSource

def TagConfig.setWritable (w : String → Bool → Bool) (tc : TagConfig) : TagConfig :=
  { tc with writable := w tc.logicalName tc.writable }

def TagRuntime.setWritable (w : String → Bool → Bool) (t : TagRuntime) : TagRuntime :=
  { t with cfg := { t.cfg with writable := w t.root t.cfg.writable } }

@[simp] theorem TagRuntime.setWritable_name (w : String → Bool → Bool) (t : TagRuntime) :
    (t.setWritable w).name = t.name := rfl

theorem TagRuntime.setWritable_cfg {w : String → Bool → Bool} {t : TagRuntime} :
    (t.setWritable w).cfg = t.cfg ↔ w t.root t.cfg.writable = t.cfg.writable := by
  unfold TagRuntime.setWritable
  constructor
  · intro h
    exact congrArg TagConfig.writable h
  · intro h
    dsimp only
    rw [h]

@[simp] theorem TagConfig.setWritable_name (w : String → Bool → Bool) (tc : TagConfig) :
    (tc.setWritable w).logicalName = tc.logicalName := rfl

@[simp] theorem TagConfig.setWritable_plcTagName (w : String → Bool → Bool) (tc : TagConfig) :
    (tc.setWritable w).plcTagName = tc.plcTagName := rfl

@[simp] theorem TagConfig.setWritable_datatype (w : String → Bool → Bool) (tc : TagConfig) :
    (tc.setWritable w).datatype = tc.datatype := rfl

theorem normalizedTags_eq (conn : ConnectionConfig) (tags : List TagConfig) :
    normalizedTags conn tags = tags.map (TagConfig.setWritable (mqttWritable conn)) := rfl

theorem makeRoot_pollSource (tc : TagConfig) (deferred : Bool) :
    (makeRoot tc deferred).pollSource = "" := (makeRoot_spec tc deferred).2.2.2.2.2

theorem makeRoot_writable (tc : TagConfig) (deferred : Bool) :
    (makeRoot tc deferred).cfg.writable = tc.writable := by
  unfold makeRoot initTagScaling
  dsimp only
  split_ifs <;> rfl

theorem makeRoot_setWritable (w : String → Bool → Bool) (tc : TagConfig) (deferred : Bool) :
    makeRoot (tc.setWritable w) deferred = (makeRoot tc deferred).setWritable w := by
  have hroot : (makeRoot tc deferred).root = tc.logicalName := by
    unfold TagRuntime.root
    rw [makeRoot_pollSource, if_pos rfl, makeRoot_name]
  unfold TagRuntime.setWritable
  rw [hroot, makeRoot_writable]
  unfold makeRoot initTagScaling TagConfig.setWritable
  dsimp only
  split_ifs <;> rfl

theorem scheduleNextPeriodic_setWritable (w : String → Bool → Bool) (t : TagRuntime) :
    scheduleNextPeriodic (t.setWritable w) = (scheduleNextPeriodic t).setWritable w := rfl

theorem makeElement_setWritable (w : String → Bool → Bool) (plcTagName : Nat → String)
    (tc : TagConfig) (i : Nat) :
    makeElement plcTagName (tc.setWritable w) i = (makeElement plcTagName tc i).setWritable w := by
  have hroot : (makeElement plcTagName tc i).root = tc.logicalName := if_neg tc.logicalName_ne
  unfold TagRuntime.setWritable
  rw [hroot]
  rfl

theorem buildArrayElementPlcTagName_setWritable (w : String → Bool → Bool) (conn : ConnectionConfig)
    (tc : TagConfig) : buildArrayElementPlcTagName conn (tc.setWritable w) =
      buildArrayElementPlcTagName conn tc := by
  funext i
  unfold buildArrayElementPlcTagName
  rw [TagConfig.setWritable_plcTagName, TagConfig.setWritable_datatype]

theorem seen_setWritable (w : String → Bool → Bool) (tags : List TagRuntime) (name : String) :
    seen (tags.map (TagRuntime.setWritable w)) name ↔ seen tags name := by
  unfold seen
  rw [List.map_map]
  exact Iff.rfl

theorem addElements_setWritable (w : String → Bool → Bool) (plcTagName : Nat → String)
    (tc : TagConfig) (tags : List TagRuntime) :
    addElements plcTagName (tc.setWritable w) (tags.map (TagRuntime.setWritable w)) =
      (addElements plcTagName tc tags).map (TagRuntime.setWritable w) := by
  unfold addElements
  rw [show (tc.setWritable w).elemCount = tc.elemCount from rfl]
  split
  · generalize List.range tc.elemCount = is
    induction is generalizing tags with
    | nil => rfl
    | cons i is ih =>
      rw [List.foldl_cons, List.foldl_cons]
      refine Eq.trans ?_ (ih _)
      congr 1
      by_cases hs : seen tags (elementName tc.logicalName i)
      · rw [if_pos hs]
        exact if_pos ((seen_setWritable w tags _).2 hs)
      · rw [if_neg hs, List.map_append, List.map_singleton, ← makeElement_setWritable]
        exact if_neg fun h => hs ((seen_setWritable w tags _).1 h)
  · rfl

theorem addTag_setWritable (w : String → Bool → Bool) (conn : ConnectionConfig)
    (tags : List TagRuntime) (tc : TagConfig) :
    addTag conn (tags.map (TagRuntime.setWritable w)) (tc.setWritable w) =
      (addTag conn tags tc).map (TagRuntime.setWritable w) := by
  have hroot : ∀ deferred, tags.map (TagRuntime.setWritable w) ++ [makeRoot (tc.setWritable w) deferred] =
      (tags ++ [makeRoot tc deferred]).map (TagRuntime.setWritable w) := by
    intro deferred
    rw [makeRoot_setWritable, List.map_append, List.map_singleton]
  have hperiodic : ∀ deferred, tags.map (TagRuntime.setWritable w) ++
      [scheduleNextPeriodic (makeRoot (tc.setWritable w) deferred)] =
      (tags ++ [scheduleNextPeriodic (makeRoot tc deferred)]).map (TagRuntime.setWritable w) := by
    intro deferred
    rw [makeRoot_setWritable, scheduleNextPeriodic_setWritable, List.map_append,
      List.map_singleton]
  unfold addTag
  by_cases hs : seen tags tc.logicalName
  · rw [if_pos hs]
    exact if_pos ((seen_setWritable w tags _).2 hs)
  · rw [if_neg hs]
    refine (if_neg fun h => hs ((seen_setWritable w tags _).1 h)).trans ?_
    by_cases hpassive : (!tc.enabled || isMemoryTag tc || tc.sourceTag != "") = true
    · rw [if_pos hpassive]
      exact (if_pos hpassive).trans (hroot false)
    · rw [if_neg hpassive]
      refine (if_neg hpassive).trans ?_
      split
      · rw [hperiodic]
        exact addElements_setWritable w _ tc _
      · by_cases hdt : (!isSupportedDatatype tc.datatype) = true
        · rw [if_pos hdt]
          exact (if_pos hdt).trans (hroot false)
        · rw [if_neg hdt]
          refine (if_neg hdt).trans ?_
          rw [hperiodic, buildArrayElementPlcTagName_setWritable]
          exact addElements_setWritable w _ tc _

theorem buildTags_setWritable (w : String → Bool → Bool) (conn : ConnectionConfig)
    (tagCfgs : List TagConfig) : buildTags conn (tagCfgs.map (TagConfig.setWritable w)) =
      (buildTags conn tagCfgs).map (TagRuntime.setWritable w) := by
  unfold buildTags
  have hgen : ∀ tags : List TagRuntime,
      (tagCfgs.map (TagConfig.setWritable w)).foldl (addTag conn)
        (tags.map (TagRuntime.setWritable w)) =
      (tagCfgs.foldl (addTag conn) tags).map (TagRuntime.setWritable w) := by
    induction tagCfgs with
    | nil => exact fun _ => rfl
    | cons tc tagCfgs ih =>
      intro tags
      rw [List.map_cons, List.foldl_cons, List.foldl_cons, addTag_setWritable]
      exact ih _
  exact hgen []

theorem disabledNames_setWritable (w : String → Bool → Bool) (tagCfgs : List TagConfig) :
    disabledNames (tagCfgs.map (TagConfig.setWritable w)) = disabledNames tagCfgs := by
  unfold disabledNames
  rw [List.filter_map, List.map_map]
  rfl

/-- The driver with other writability: the same tags, each with the writability of its entry. -/
theorem build_setWritable (w : String → Bool → Bool) (epoch : Nat) (conn : ConnectionConfig)
    (tagCfgs : List TagConfig) :
    (buildDriverContextForConnection epoch conn (tagCfgs.map (TagConfig.setWritable w))).tags =
      (buildDriverContextForConnection epoch conn tagCfgs).tags.map (TagRuntime.setWritable w) := by
  show (buildTags conn (tagCfgs.map _)).map _ = ((buildTags conn tagCfgs).map _).map _
  rw [buildTags_setWritable, disabledNames_setWritable, List.map_map, List.map_map]
  refine List.map_congr_left fun t _ => ?_
  show applyDisabled _ (t.setWritable w) = (applyDisabled _ t).setWritable w
  unfold applyDisabled
  rw [TagRuntime.setWritable_name]
  split
  · rfl
  · rfl

/-! ## Drivers as configurations -/

/-- The connection and the tag configurations of a driver. -/
def DriverContext.config (d : DriverContext) : ConnectionConfig × List TagConfig :=
  (d.conn, d.tags.map TagRuntime.cfg)

/-- The tag configurations that the entries of a file come to. -/
def tagConfigs (conn : ConnectionConfig) (tagCfgs : List TagConfig) : List TagConfig :=
  (buildDriverContextForConnection 0 conn tagCfgs).tags.map TagRuntime.cfg

/-- No topic gives an entry that gets its name another writability. -/
def KeepsWritability (conn : ConnectionConfig) (tagCfgs : List TagConfig) : Prop :=
  ∀ before tc after, tagCfgs = before ++ tc :: after → tc.logicalName ∉ claimedNames before →
    mqttWritable conn tc.logicalName tc.writable = tc.writable

theorem rootTag_root (conn : ConnectionConfig) (tc : TagConfig) (names : List String) :
    (applyDisabled names (rootTag conn tc)).root = tc.logicalName ∧
      (applyDisabled names (rootTag conn tc)).cfg.writable = tc.writable := by
  have hname : (rootTag conn tc).name = tc.logicalName := rootTag_name conn tc
  have hsource : (rootTag conn tc).pollSource = "" := (rootTag_spec conn tc).2.2
  have hwritable : (rootTag conn tc).cfg.writable = tc.writable := by
    unfold rootTag
    dsimp only
    generalize (tc.enabled && !isMemoryTag tc && tc.sourceTag == "" &&
      !isOpcuaClientDriverName conn.driver) = deferred
    split
    · exact makeRoot_writable tc deferred
    · exact makeRoot_writable tc deferred
  unfold TagRuntime.root
  rw [(applyDisabled_spec conn names _).2.2, hsource, if_pos rfl, applyDisabled_name, hname]
  refine ⟨rfl, ?_⟩
  unfold applyDisabled
  split
  · exact hwritable
  · exact hwritable

theorem elementTag_root (conn : ConnectionConfig) (tc : TagConfig) (i : Nat) (names : List String) :
    (applyDisabled names (elementTag conn tc i)).root = tc.logicalName ∧
      (applyDisabled names (elementTag conn tc i)).cfg.writable = tc.writable := by
  have hsource : (elementTag conn tc i).pollSource = tc.logicalName := rfl
  unfold TagRuntime.root
  rw [(applyDisabled_spec conn names _).2.2, hsource, if_neg tc.logicalName_ne]
  refine ⟨rfl, ?_⟩
  unfold applyDisabled
  split
  · rfl
  · rfl

theorem tagConfigs_setWritable {w : String → Bool → Bool} {conn : ConnectionConfig}
    {tagCfgs : List TagConfig} (h : ∀ tc ∈ tagCfgs, tc.Loaded) :
    tagConfigs conn (tagCfgs.map (TagConfig.setWritable w)) = tagConfigs conn tagCfgs ↔
      ∀ before tc after, tagCfgs = before ++ tc :: after →
        tc.logicalName ∉ claimedNames before → w tc.logicalName tc.writable = tc.writable := by
  unfold tagConfigs
  rw [build_setWritable, List.map_map, List.map_inj_left]
  have hcfg : ∀ t : TagRuntime, (TagRuntime.cfg ∘ TagRuntime.setWritable w) t = t.cfg ↔
      w t.root t.cfg.writable = t.cfg.writable := fun t => TagRuntime.setWritable_cfg
  simp only [hcfg]
  constructor
  · intro hall before tc after hsplit hfree
    have hmem := (@mem_driver_tags _ 0 conn _ h
      (applyDisabled (disabledNames tagCfgs) (rootTag conn tc))).2
        ⟨before, tc, after, hsplit, hfree, .inl rfl⟩
    have ht := hall _ hmem
    rw [(rootTag_root conn tc _).1, (rootTag_root conn tc _).2] at ht
    exact ht
  · intro hkeep t ht
    obtain ⟨before, tc, after, hsplit, hfree, rfl | ⟨-, i, -, -, rfl⟩⟩ := (mem_driver_tags h).1 ht
    · rw [(rootTag_root conn tc _).1, (rootTag_root conn tc _).2]
      exact hkeep before tc after hsplit hfree
    · rw [(elementTag_root conn tc i _).1, (elementTag_root conn tc i _).2]
      exact hkeep before tc after hsplit hfree

/-- Normalising changes nothing exactly when no entry that gets its name changes. -/
theorem tagConfigs_normalized {conn : ConnectionConfig} {tagCfgs : List TagConfig}
    (h : ∀ tc ∈ tagCfgs, tc.Loaded) :
    tagConfigs conn (normalizedTags conn tagCfgs) = tagConfigs conn tagCfgs ↔
      KeepsWritability conn tagCfgs := by
  rw [normalizedTags_eq, tagConfigs_setWritable h]
  exact Iff.rfl

end OpcBridge
