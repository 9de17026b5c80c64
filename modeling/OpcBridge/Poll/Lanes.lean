import OpcBridge.Load.Build
import Mathlib.Data.List.Perm.Basic
import Mathlib.Data.List.Range

/-!
# What the pollers are given

`startPollers` turns the tags of a driver into poll items and deals them out to the lanes of the
connection. An item is a tag with a handle, open or deferred, and on an OPC UA client connection any
tag at all: there the derived tags, the elements, the memory tags and the disabled tags of the
driver are polled as well. A deferred handle is also polled where a later entry has disabled the
name. `poll_eligibility` says that the items are the eligible tags exactly when neither happens.
-/

namespace OpcBridge

section
variable [Floats]

/-! ## Items and lanes -/

structure PollTagItem where
  cfg : TagConfig
  handle : Int
  handleDeferred : Bool
  sweepIndex : Nat
  scalingLinear : Bool
  scaleSlope : F64
  scaleOffset : F64
  outDatatype : String

def pollTagItem (t : TagRuntime) (sweepIndex : Nat) : PollTagItem where
  cfg := t.cfg
  handle := t.handle
  handleDeferred := t.handleDeferred
  sweepIndex := sweepIndex
  scalingLinear := t.scalingLinear
  scaleSlope := t.scaleSlope
  scaleOffset := t.scaleOffset
  outDatatype := t.outDatatype

/-- The tag is not skipped. -/
def polled (conn : ConnectionConfig) (t : TagRuntime) : Bool :=
  !(decide (t.handle < 0) && !t.handleDeferred && !isOpcuaClientDriverName conn.driver)

/-- `baseSpec.tags` -/
def pollTags (d : DriverContext) : List PollTagItem :=
  (d.tags.filter (polled d.conn)).zipIdx.map fun x => pollTagItem x.1 x.2

def laneCount (d : DriverContext) : Nat :=
  if isOpcuaClientDriverName d.conn.driver then 1
  else max 1 (min d.conn.pollLanes (max (pollTags d).length 1))

/-- `idx = lane; idx < total; idx += lanes` -/
def laneIndices (total lanes lane : Nat) : List Nat :=
  List.range' lane ((total - lane + lanes - 1) / lanes) lanes

def laneTags (d : DriverContext) (lane : Nat) : List PollTagItem :=
  (laneIndices (pollTags d).length (laneCount d) lane).filterMap fun idx => (pollTags d)[idx]?

theorem laneCount_pos (d : DriverContext) : 0 < laneCount d := by
  unfold laneCount
  split <;> omega

omit [Floats] in
theorem mem_laneIndices {total lanes lane idx : Nat} (hlanes : 0 < lanes) (hlane : lane < lanes) :
    idx ∈ laneIndices total lanes lane ↔ idx < total ∧ idx % lanes = lane := by
  unfold laneIndices
  rw [List.mem_range']
  constructor
  · rintro ⟨i, hi, rfl⟩
    rw [Nat.lt_div_iff_mul_lt hlanes] at hi
    refine ⟨?_, by rw [Nat.add_mul_mod_self_left, Nat.mod_eq_of_lt hlane]⟩
    rw [Nat.mul_comm] at hi
    omega
  · rintro ⟨hidx, rfl⟩
    refine ⟨idx / lanes, ?_, (Nat.mod_add_div idx lanes).symm⟩
    rw [Nat.lt_div_iff_mul_lt hlanes]
    have h := Nat.mod_add_div idx lanes
    rw [Nat.mul_comm] at h
    omega

omit [Floats] in
/-- The lanes split the indices. -/
theorem laneIndices_perm (total : Nat) {lanes : Nat} (hlanes : 0 < lanes) :
    ((List.range lanes).flatMap (laneIndices total lanes)).Perm (List.range total) := by
  refine (List.perm_ext_iff_of_nodup ?_ List.nodup_range).2 fun idx => ?_
  · rw [List.nodup_flatMap]
    refine ⟨fun lane _ => List.nodup_range' lanes hlanes, ?_⟩
    refine List.Pairwise.imp_of_mem ?_ List.nodup_range
    intro a b ha hb hab idx hia hib
    rw [List.mem_range] at ha hb
    rw [mem_laneIndices hlanes ha] at hia
    rw [mem_laneIndices hlanes hb] at hib
    exact hab (hia.2.symm.trans hib.2)
  · rw [List.mem_flatMap, List.mem_range]
    constructor
    · rintro ⟨lane, hlane, hidx⟩
      exact ((mem_laneIndices hlanes (List.mem_range.1 hlane)).1 hidx).1
    · intro hidx
      have hlane := Nat.mod_lt idx hlanes
      exact ⟨idx % lanes, List.mem_range.2 hlane, (mem_laneIndices hlanes hlane).2 ⟨hidx, rfl⟩⟩

/-- Every item is in one lane and once. -/
theorem laneTags_perm (d : DriverContext) :
    ((List.range (laneCount d)).flatMap (laneTags d)).Perm (pollTags d) := by
  have hflat : (List.range (laneCount d)).flatMap (laneTags d) =
      ((List.range (laneCount d)).flatMap (laneIndices (pollTags d).length (laneCount d))).filterMap
        fun idx => (pollTags d)[idx]? := by
    rw [List.filterMap_flatMap]
    rfl
  have hall : (List.range (pollTags d).length).filterMap (fun idx => (pollTags d)[idx]?) =
      pollTags d := by
    generalize pollTags d = items
    induction items using List.reverseRecOn with
    | nil => rfl
    | append_singleton items item ih =>
      rw [List.length_append, List.length_singleton, List.range_succ, List.filterMap_append]
      congr 1
      · refine (List.filterMap_congr fun idx hidx => ?_).trans ih
        exact List.getElem?_append_left (List.mem_range.1 hidx)
      · simp
  have hperm := (laneIndices_perm (pollTags d).length (laneCount_pos d)).filterMap
    fun idx => (pollTags d)[idx]?
  rw [hall] at hperm
  rw [hflat]
  exact hperm

/-! ## Eligible tags -/

/-- An enabled tag with a remote item of its own. -/
def TagRuntime.eligible (t : TagRuntime) : Bool :=
  t.cfg.enabled && !isMemoryTag t.cfg && t.cfg.sourceTag == "" && t.pollSource == ""

/-- The same for an entry. -/
def TagConfig.eligible (tc : TagConfig) : Bool :=
  tc.enabled && !isMemoryTag tc && tc.sourceTag == ""

theorem initTagScaling_keeps (rt : TagRuntime) :
    (initTagScaling rt).handle = rt.handle ∧
      (initTagScaling rt).cfg.enabled = rt.cfg.enabled ∧
      (initTagScaling rt).cfg.sourceType = rt.cfg.sourceType ∧
      (initTagScaling rt).cfg.sourceTag = rt.cfg.sourceTag := by
  unfold initTagScaling
  dsimp only
  split_ifs <;> exact ⟨rfl, rfl, rfl, rfl⟩

theorem makeRoot_spec (tc : TagConfig) (deferred : Bool) :
    (makeRoot tc deferred).handle = plctagErrNotFound ∧
      (makeRoot tc deferred).handleDeferred = deferred ∧
      (makeRoot tc deferred).cfg.enabled = tc.enabled ∧
      (makeRoot tc deferred).cfg.sourceType = tc.sourceType ∧
      (makeRoot tc deferred).cfg.sourceTag = tc.sourceTag ∧
      (makeRoot tc deferred).pollSource = "" := by
  have hkeep := initTagScaling_keeps { cfg := tc, handle := plctagErrNotFound }
  have hsource := initTagScaling_pollSource { cfg := tc, handle := plctagErrNotFound }
  unfold makeRoot
  generalize initTagScaling { cfg := tc, handle := plctagErrNotFound } = rt at hkeep hsource
  exact ⟨hkeep.1, rfl, hkeep.2.1, hkeep.2.2.1, hkeep.2.2.2, hsource⟩

/-- What the pollers look at in the tag of an entry. -/
theorem rootTag_spec (conn : ConnectionConfig) (tc : TagConfig) :
    polled conn (rootTag conn tc) = (tc.eligible || isOpcuaClientDriverName conn.driver) ∧
      (rootTag conn tc).eligible = tc.eligible ∧ (rootTag conn tc).pollSource = "" := by
  have hfields : (rootTag conn tc).handle = plctagErrNotFound ∧
      (rootTag conn tc).handleDeferred =
        (tc.eligible && !isOpcuaClientDriverName conn.driver) ∧
      (rootTag conn tc).cfg.enabled = tc.enabled ∧
      (rootTag conn tc).cfg.sourceType = tc.sourceType ∧
      (rootTag conn tc).cfg.sourceTag = tc.sourceTag ∧ (rootTag conn tc).pollSource = "" := by
    have hroot := makeRoot_spec tc (tc.eligible && !isOpcuaClientDriverName conn.driver)
    have heq : rootTag conn tc =
        if tc.eligible then
          scheduleNextPeriodic (makeRoot tc (tc.eligible && !isOpcuaClientDriverName conn.driver))
        else makeRoot tc (tc.eligible && !isOpcuaClientDriverName conn.driver) := rfl
    rw [heq]
    generalize makeRoot tc (tc.eligible && !isOpcuaClientDriverName conn.driver) = rt at hroot
    split
    · exact hroot
    · exact hroot
  obtain ⟨h1, h2, h3, h4, h5, h6⟩ := hfields
  refine ⟨?_, ?_, h6⟩
  · unfold polled
    rw [h1, h2, show decide (plctagErrNotFound < 0) = true from rfl]
    cases tc.eligible <;> cases isOpcuaClientDriverName conn.driver <;> rfl
  · unfold TagRuntime.eligible TagConfig.eligible isMemoryTag
    rw [h3, h4, h5, h6]
    simp

theorem elementTag_spec (conn : ConnectionConfig) (tc : TagConfig) (i : Nat) :
    polled conn (elementTag conn tc i) = isOpcuaClientDriverName conn.driver ∧
      (elementTag conn tc i).eligible = false ∧
      (elementTag conn tc i).pollSource = tc.logicalName := by
  refine ⟨?_, ?_, rfl⟩
  · unfold polled
    rw [show (elementTag conn tc i).handleDeferred = false from rfl,
      show decide ((elementTag conn tc i).handle < 0) = true from rfl]
    simp
  · have hne : (tc.logicalName == "") = false := by simpa using tc.logicalName_ne
    unfold TagRuntime.eligible
    rw [show (elementTag conn tc i).pollSource = tc.logicalName from rfl, hne, Bool.and_false]

theorem applyDisabled_spec (conn : ConnectionConfig) (names : List String) (t : TagRuntime) :
    polled conn (applyDisabled names t) = polled conn t ∧
      (applyDisabled names t).eligible = (t.eligible && decide (t.name ∉ names)) ∧
      (applyDisabled names t).pollSource = t.pollSource := by
  unfold applyDisabled
  split
  · rename_i h
    exact ⟨rfl, by simp [TagRuntime.eligible, h], rfl⟩
  · rename_i h
    exact ⟨rfl, by simp [h], rfl⟩

/-! ## The property and its condition -/

/-- The items are the eligible tags, each in one lane; names are unique; an array has its elements;
disabled names are neither enabled nor polled. -/
structure PollsEligible (d : DriverContext) (tagCfgs : List TagConfig) : Prop where
  items : (pollTags d).map (·.cfg.logicalName) = (d.tags.filter TagRuntime.eligible).map (·.name)
  lanes : ((List.range (laneCount d)).flatMap (laneTags d)).Perm (pollTags d)
  names : (d.tags.map TagRuntime.name).Nodup
  elements : ∀ before tc after, tagCfgs = before ++ tc :: after → tc.generates = true →
    tc.logicalName ∉ claimedNames before → ∀ name,
      (∃ t ∈ d.tags, t.name = name ∧ t.pollSource = tc.logicalName) ↔
        ∃ i < tc.elemCount, name = elementName tc.logicalName i ∧
          name ∉ before.map TagConfig.logicalName
  disabled : ∀ name ∈ disabledNames tagCfgs,
    (∀ t ∈ d.tags, t.name = name → t.cfg.enabled = false) ∧
      ∀ item ∈ pollTags d, item.cfg.logicalName ≠ name

/-- No entry that gets its name is polled wrongly: on an OPC UA client connection each is eligible
and generates no element; and no later entry disables an eligible one. -/
def PollSafe (conn : ConnectionConfig) (tagCfgs : List TagConfig) : Prop :=
  ∀ before tc after, tagCfgs = before ++ tc :: after → tc.logicalName ∉ claimedNames before →
    (isOpcuaClientDriverName conn.driver = true → tc.eligible = true ∧
      (tc.generates = true → ∀ i < tc.elemCount,
        elementName tc.logicalName i ∈ before.map TagConfig.logicalName)) ∧
    (tc.eligible = true → ∀ other ∈ after, other.logicalName = tc.logicalName →
      other.enabled = true)

theorem claimedNames_of_mem {tagCfgs : List TagConfig} {tc : TagConfig} (h : tc ∈ tagCfgs) :
    tc.logicalName ∈ claimedNames tagCfgs := by
  induction tagCfgs using List.reverseRecOn with
  | nil => cases h
  | append_singleton tagCfgs last ih =>
    rw [mem_claimedNames_snoc]
    rcases List.mem_append.1 h with h | h
    · exact .inl (ih h)
    · rw [List.mem_singleton.1 h]
      by_cases hc : last.logicalName ∈ claimedNames tagCfgs
      · exact .inl hc
      · exact .inr ⟨hc, .inl rfl⟩

/-- The name of an element is claimed before its array gets its own name by an entry only. -/
theorem element_claimed {before : List TagConfig} {root : String} (hfree : root ∉ claimedNames before)
    (i : Nat) : elementName root i ∈ claimedNames before ↔
      elementName root i ∈ before.map TagConfig.logicalName := by
  constructor
  · intro h
    induction before using List.reverseRecOn with
    | nil => cases h
    | append_singleton before last ih =>
      rw [mem_claimedNames_snoc, not_or] at hfree
      rw [List.map_append, List.mem_append]
      rcases mem_claimedNames_snoc.1 h with h | ⟨hlast, hname | ⟨-, j, -, hname⟩⟩
      · exact .inl (ih hfree.1 h)
      · exact .inr (by simp [hname])
      · -- an earlier array of that name would have claimed the root
        exact absurd ⟨hlast, .inl (elementName_root_inj hname)⟩ hfree.2
  · intro h
    obtain ⟨tc, htc, hname⟩ := List.mem_map.1 h
    rw [← hname]
    exact claimedNames_of_mem htc

theorem mem_disabledNames {tagCfgs : List TagConfig} {name : String} :
    name ∈ disabledNames tagCfgs ↔ ∃ tc ∈ tagCfgs, tc.enabled = false ∧ tc.logicalName = name := by
  unfold disabledNames
  rw [List.mem_map]
  constructor
  · rintro ⟨tc, htc, rfl⟩
    obtain ⟨h1, h2⟩ := List.mem_filter.1 htc
    exact ⟨tc, h1, by simpa using h2, rfl⟩
  · rintro ⟨tc, htc, hen, rfl⟩
    exact ⟨tc, List.mem_filter.2 ⟨htc, by simpa using hen⟩, rfl⟩

/-- The name of an eligible entry that gets it is disabled by a later entry or not at all. -/
theorem disabled_later {before after : List TagConfig} {tc : TagConfig}
    (hfree : tc.logicalName ∉ claimedNames before) (hen : tc.enabled = true) :
    tc.logicalName ∈ disabledNames (before ++ tc :: after) ↔
      ∃ other ∈ after, other.logicalName = tc.logicalName ∧ other.enabled = false := by
  rw [mem_disabledNames]
  constructor
  · rintro ⟨other, hother, hdis, hname⟩
    rcases List.mem_append.1 hother with h | h
    · exact absurd (hname ▸ claimedNames_of_mem h) hfree
    · rcases List.mem_cons.1 h with rfl | h
      · exact absurd (hen.symm.trans hdis) (by decide)
      · exact ⟨other, h, hname, hdis⟩
  · rintro ⟨other, hother, hname, hdis⟩
    exact ⟨other, List.mem_append_right _ (List.mem_cons_of_mem _ hother), hdis, hname⟩

theorem pollTags_names (d : DriverContext) :
    (pollTags d).map (·.cfg.logicalName) = (d.tags.filter (polled d.conn)).map (·.name) := by
  unfold pollTags
  generalize d.tags.filter (polled d.conn) = tags
  rw [List.map_map]
  have hfst : tags.zipIdx.map Prod.fst = tags := List.zipIdx_map_fst 0 tags
  have hname := congrArg (List.map TagRuntime.name) hfst
  rw [List.map_map] at hname
  exact hname

/-! ## The tags of the driver -/

variable {freshnessEpoch : Nat} {conn : ConnectionConfig} {tagCfgs : List TagConfig}

/-- The tags of the built driver: roots and elements of the entries that get their names. -/
theorem mem_driver_tags (h : ∀ tc ∈ tagCfgs, tc.Loaded) {t : TagRuntime} :
    t ∈ (buildDriverContextForConnection freshnessEpoch conn tagCfgs).tags ↔
      ∃ before tc after, tagCfgs = before ++ tc :: after ∧ tc.logicalName ∉ claimedNames before ∧
        (t = applyDisabled (disabledNames tagCfgs) (rootTag conn tc) ∨ tc.generates = true ∧
          ∃ i < tc.elemCount, elementName tc.logicalName i ∉ claimedNames before ∧
            t = applyDisabled (disabledNames tagCfgs) (elementTag conn tc i)) := by
  show t ∈ (buildTags conn tagCfgs).map _ ↔ _
  rw [List.mem_map]
  constructor
  · rintro ⟨t₀, ht₀, rfl⟩
    obtain ⟨before, tc, after, hsplit, hfree, rfl | ⟨hg, i, hi, hname, rfl⟩⟩ :=
      (mem_buildTags h).1 ht₀
    · exact ⟨before, tc, after, hsplit, hfree, .inl rfl⟩
    · exact ⟨before, tc, after, hsplit, hfree, .inr ⟨hg, i, hi, hname, rfl⟩⟩
  · rintro ⟨before, tc, after, hsplit, hfree, rfl | ⟨hg, i, hi, hname, rfl⟩⟩
    · exact ⟨_, (mem_buildTags h).2 ⟨before, tc, after, hsplit, hfree, .inl rfl⟩, rfl⟩
    · exact ⟨_, (mem_buildTags h).2 ⟨before, tc, after, hsplit, hfree, .inr ⟨hg, i, hi, hname, rfl⟩⟩,
        rfl⟩

/-- An entry of a list gets its name in one place. -/
theorem split_unique {before after before' after' : List TagConfig} {tc tc' : TagConfig}
    (hsplit : before ++ tc :: after = before' ++ tc' :: after')
    (hfree : tc.logicalName ∉ claimedNames before) (hfree' : tc'.logicalName ∉ claimedNames before')
    (hname : tc.logicalName = tc'.logicalName) : before = before' ∧ tc = tc' ∧ after = after' := by
  rcases List.append_eq_append_iff.1 hsplit with ⟨cs, h1, h2⟩ | ⟨cs, h1, h2⟩
  · cases cs with
    | nil =>
      rw [List.append_nil] at h1
      rw [List.nil_append, List.cons.injEq] at h2
      exact ⟨h1.symm, h2.1, h2.2⟩
    | cons c cs =>
      rw [List.cons_append, List.cons.injEq] at h2
      have hmem : tc ∈ before' := by
        rw [h1, ← h2.1]
        simp
      exact absurd (hname ▸ claimedNames_of_mem hmem) hfree'
  · cases cs with
    | nil =>
      rw [List.append_nil] at h1
      rw [List.nil_append, List.cons.injEq] at h2
      exact ⟨h1, h2.1.symm, h2.2.symm⟩
    | cons c cs =>
      rw [List.cons_append, List.cons.injEq] at h2
      have hmem : tc' ∈ before := by
        rw [h1, ← h2.1]
        simp
      exact absurd (hname ▸ claimedNames_of_mem hmem) hfree

/-- The tags that an array's root serves are its elements whose names were free. -/
theorem elements_of_array (h : ∀ tc ∈ tagCfgs, tc.Loaded) {before after : List TagConfig}
    {tc : TagConfig} (hsplit : tagCfgs = before ++ tc :: after) (hg : tc.generates = true)
    (hfree : tc.logicalName ∉ claimedNames before) (name : String) :
    (∃ t ∈ (buildDriverContextForConnection freshnessEpoch conn tagCfgs).tags, t.name = name ∧
      t.pollSource = tc.logicalName) ↔
      ∃ i < tc.elemCount, name = elementName tc.logicalName i ∧
        name ∉ before.map TagConfig.logicalName := by
  constructor
  · rintro ⟨t, ht, rfl, hsource⟩
    obtain ⟨before', tc', after', hsplit', hfree', rfl | ⟨hg', i, hi, hname, rfl⟩⟩ :=
      (mem_driver_tags h).1 ht
    · rw [(applyDisabled_spec conn _ _).2.2, (rootTag_spec conn tc').2.2] at hsource
      exact absurd hsource.symm tc.logicalName_ne
    · rw [(applyDisabled_spec conn _ _).2.2, (elementTag_spec conn tc' i).2.2] at hsource
      obtain ⟨rfl, rfl, rfl⟩ := split_unique (hsplit'.symm.trans hsplit) hfree' hfree hsource
      rw [applyDisabled_name]
      exact ⟨i, hi, rfl, fun hmem => hname ((element_claimed hfree i).2 hmem)⟩
  · rintro ⟨i, hi, rfl, hmem⟩
    refine ⟨_, (mem_driver_tags h).2 ⟨before, tc, after, hsplit, hfree,
      .inr ⟨hg, i, hi, fun hc => hmem ((element_claimed hfree i).1 hc), rfl⟩⟩, ?_, ?_⟩
    · rw [applyDisabled_name]
      rfl
    · rw [(applyDisabled_spec conn _ _).2.2]
      rfl

theorem disabled_of_name {d : DriverContext} {t : TagRuntime}
    (hd : d = buildDriverContextForConnection freshnessEpoch conn tagCfgs) (ht : t ∈ d.tags)
    (hname : t.name ∈ disabledNames tagCfgs) : t.cfg.enabled = false := by
  subst hd
  obtain ⟨t₀, -, rfl⟩ := List.mem_map.1 ht
  rw [applyDisabled_name] at hname
  unfold applyDisabled
  rw [if_pos hname]

/-- **Poll eligibility.** The items of the lanes are the eligible tags exactly when the entries are
safe to poll; the rest of the property always holds. -/
theorem poll_eligibility (freshnessEpoch : Nat) (conn : ConnectionConfig)
    (tagCfgs : List TagConfig) (h : ∀ tc ∈ tagCfgs, tc.Loaded) :
    PollsEligible (buildDriverContextForConnection freshnessEpoch conn tagCfgs) tagCfgs ↔
      PollSafe conn tagCfgs := by
  have hmem := fun t => @mem_driver_tags _ freshnessEpoch conn tagCfgs h t
  generalize hd : buildDriverContextForConnection freshnessEpoch conn tagCfgs = d at hmem
  have hconn : d.conn = conn := by
    rw [← hd]
    rfl
  -- the items are the eligible tags if and only if polling and eligibility agree on every tag
  have hitems : (pollTags d).map (·.cfg.logicalName) =
      (d.tags.filter TagRuntime.eligible).map (·.name) ↔
      ∀ t ∈ d.tags, polled conn t = t.eligible := by
    rw [pollTags_names, hconn]
    constructor
    · intro heq t ht
      have hiff : polled conn t = true ↔ t.eligible = true := by
        have hfilter : ∀ p : TagRuntime → Bool,
            t.name ∈ (d.tags.filter p).map (·.name) ↔ p t = true := by
          intro p
          rw [List.mem_map]
          constructor
          · rintro ⟨t', ht', hname⟩
            obtain ⟨h1, h2⟩ := List.mem_filter.1 ht'
            rwa [← List.inj_on_of_nodup_map d.names_nodup h1 ht hname]
          · exact fun hp => ⟨t, List.mem_filter.2 ⟨ht, hp⟩, rfl⟩
        rw [← hfilter, heq, hfilter]
      cases h1 : polled conn t <;> cases h2 : t.eligible <;> simp_all
    · intro hagree
      rw [List.filter_congr hagree]
  constructor
  · intro hp before tc after hsplit hfree
    have hroot := (hmem _).2 ⟨before, tc, after, hsplit, hfree, .inl rfl⟩
    have hagree := hitems.1 hp.items
    have h1 := hagree _ hroot
    rw [(applyDisabled_spec conn _ _).1, (applyDisabled_spec conn _ _).2.1,
      (rootTag_spec conn tc).1, (rootTag_spec conn tc).2.1, rootTag_name] at h1
    refine ⟨fun hua => ?_, fun hel other hother hname => ?_⟩
    · rw [hua, Bool.or_true, eq_comm, Bool.and_eq_true] at h1
      refine ⟨h1.1, fun hg i hi => ?_⟩
      by_contra hnot
      have helement := (hmem _).2 ⟨before, tc, after, hsplit, hfree,
        .inr ⟨hg, i, hi, fun hc => hnot ((element_claimed hfree i).1 hc), rfl⟩⟩
      have h2 := hagree _ helement
      rw [(applyDisabled_spec conn _ _).1, (applyDisabled_spec conn _ _).2.1,
        (elementTag_spec conn tc i).1, (elementTag_spec conn tc i).2.1, hua] at h2
      simp at h2
    · rw [hel, Bool.true_or, Bool.true_and, eq_comm, decide_eq_true_eq, hsplit] at h1
      have hen : tc.enabled = true := by
        simp only [TagConfig.eligible, Bool.and_eq_true] at hel
        exact hel.1.1
      cases hother' : other.enabled with
      | true => rfl
      | false => exact absurd ((disabled_later hfree hen).2 ⟨other, hother, hname, hother'⟩) h1
  · intro hsafe
    have hagree : ∀ t ∈ d.tags, polled conn t = t.eligible := by
      intro t ht
      obtain ⟨before, tc, after, hsplit, hfree, rfl | ⟨hg, i, hi, hname, rfl⟩⟩ := (hmem t).1 ht
      · obtain ⟨hua, hlater⟩ := hsafe before tc after hsplit hfree
        rw [(applyDisabled_spec conn _ _).1, (applyDisabled_spec conn _ _).2.1,
          (rootTag_spec conn tc).1, (rootTag_spec conn tc).2.1, rootTag_name]
        cases hel : tc.eligible with
        | false =>
          cases hd' : isOpcuaClientDriverName conn.driver with
          | false => rfl
          | true => exact absurd (hel.symm.trans (hua hd').1) (by decide)
        | true =>
          have hen : tc.enabled = true := by
            simp only [TagConfig.eligible, Bool.and_eq_true] at hel
            exact hel.1.1
          have hnot : tc.logicalName ∉ disabledNames tagCfgs := by
            rw [hsplit, disabled_later hfree hen]
            rintro ⟨other, hother, hname, hdis⟩
            exact absurd ((hlater hel other hother hname).symm.trans hdis) (by decide)
          simp [hnot]
      · obtain ⟨hua, -⟩ := hsafe before tc after hsplit hfree
        rw [(applyDisabled_spec conn _ _).1, (applyDisabled_spec conn _ _).2.1,
          (elementTag_spec conn tc i).1, (elementTag_spec conn tc i).2.1, Bool.false_and]
        cases hd' : isOpcuaClientDriverName conn.driver with
        | false => rfl
        | true =>
          exact absurd ((element_claimed hfree i).2 ((hua hd').2 hg i hi)) hname
    have hpolled : ∀ name ∈ (pollTags d).map (·.cfg.logicalName), ∃ t ∈ d.tags, t.name = name ∧
        t.eligible = true := by
      intro name hname
      rw [hitems.2 hagree] at hname
      obtain ⟨t, ht, rfl⟩ := List.mem_map.1 hname
      exact ⟨t, (List.mem_filter.1 ht).1, rfl, (List.mem_filter.1 ht).2⟩
    refine ⟨hitems.2 hagree, laneTags_perm d, d.names_nodup, ?_, fun name hname => ⟨?_, ?_⟩⟩
    · intro before tc after hsplit hg hfree name
      rw [← hd]
      exact elements_of_array h hsplit hg hfree name
    · exact fun t ht hn => disabled_of_name hd.symm ht (hn ▸ hname)
    · intro item hitem hn
      obtain ⟨t, ht, hname', hel⟩ := hpolled _ (List.mem_map_of_mem hitem)
      have hdis := disabled_of_name hd.symm ht (by rw [hname', hn]; exact hname)
      simp only [TagRuntime.eligible, hdis, Bool.false_and] at hel
      exact absurd hel (by decide)

end

/-! ## Two connections -/

section
attribute [local instance] intFloats

def recipeLevel : TagConfig where
  logicalName := "Recipe"
  plcTagName := "Recipe"
  datatype := "int32"
  elemCount := 2

def recipeBit : TagConfig where
  logicalName := "RecipeOn"
  datatype := "bool"
  sourceType := "derived"
  sourceTag := "Recipe"
  bit := some 0

theorem recipe_loaded : ∀ tc ∈ [recipeLevel, recipeBit], tc.Loaded := by
  intro tc htc
  rw [List.mem_cons, List.mem_singleton] at htc
  obtain rfl | rfl := htc
  · exact ⟨by decide, by decide, fun h => absurd rfl h, fun h => absurd h (by decide)⟩
  · exact ⟨by decide, by decide, fun _ => rfl, fun h => absurd h (by decide)⟩

/-- On an OPC UA client connection the derived bit and the elements are polled too; on a PLC
connection an array is polled that its second entry disables. -/
theorem poll_eligibility_broken :
    (pollTags (buildDriverContextForConnection 1 { id := "REMOTE", driver := "opcua_client" }
      [recipeLevel, recipeBit])).map (·.cfg.logicalName) =
        ["Recipe", "Recipe[0]", "Recipe[1]", "RecipeOn"] ∧
    (pollTags (buildDriverContextForConnection 1 { id := "PLC", driver := "ab_eip" }
      [recipeLevel, { recipeLevel with enabled := false }])).map
        (fun item => (item.cfg.logicalName, item.cfg.enabled)) = [("Recipe", false)] := by
  exact ⟨by decide +kernel, by decide +kernel⟩

theorem recipe_polls_eligible :
    PollsEligible (buildDriverContextForConnection 1 { id := "PLC", driver := "ab_eip" }
      [recipeLevel, recipeBit]) [recipeLevel, recipeBit] ↔
      PollSafe { id := "PLC", driver := "ab_eip" } [recipeLevel, recipeBit] :=
  poll_eligibility 1 { id := "PLC", driver := "ab_eip" } [recipeLevel, recipeBit] recipe_loaded

end

end OpcBridge
