import OpcBridge.Ua.Node
import Mathlib.Data.List.Nodup
import Mathlib.Data.List.Induction

/-!
# Building the driver of a connection

`build_driver_context_for_connection`: one runtime tag for each configured name, the first entry of
a name winning, and one for each element of an enabled array whose name is still free. Names that
any entry disables are disabled at the end. Handles are always deferred, so no tag has one yet; a
deferred handle marks what the pollers open.
-/

namespace OpcBridge

variable [Floats]

/-! ## Runtime tags -/

/-- `PLCTAG_ERR_NOT_FOUND` of the PLC library; it is negative. -/
def plctagErrNotFound : Int := -19

def scheduleNextPeriodic (rt : TagRuntime) : TagRuntime :=
  { rt with
    periodicEnabled := rt.cfg.logPeriodic && rt.cfg.logPeriodicMode == "interval" &&
      decide (0 < rt.cfg.logPeriodicIntervalSec) }

/-- The runtime tag of an entry. -/
def makeRoot (tc : TagConfig) (deferred : Bool) : TagRuntime :=
  { initTagScaling { cfg := tc, handle := plctagErrNotFound } with handleDeferred := deferred }

/-- A generated element of an array. -/
def makeElement (plcTagName : Nat → String) (tc : TagConfig) (i : Nat) : TagRuntime where
  pollSource := tc.logicalName
  cfg := { tc with
    elemCount := 1
    sourceTag := ""
    bit := none
    logicalName := elementName tc.logicalName i
    logicalName_ne := elementName_ne tc.logicalName i
    plcTagName := plcTagName i }
  handle := plctagErrNotFound

/-- `seen_logical_names` holds the names of the tags so far. -/
def seen (tags : List TagRuntime) (name : String) : Prop := name ∈ tags.map TagRuntime.name

instance (tags : List TagRuntime) (name : String) : Decidable (seen tags name) :=
  inferInstanceAs (Decidable (name ∈ _))

def addElements (plcTagName : Nat → String) (tc : TagConfig) (tags : List TagRuntime) :
    List TagRuntime :=
  if 1 < tc.elemCount then
    (List.range tc.elemCount).foldl (fun tags i =>
      if seen tags (elementName tc.logicalName i) then tags
      else tags ++ [makeElement plcTagName tc i]) tags
  else tags

/-- One entry of the configuration. -/
def addTag (conn : ConnectionConfig) (tags : List TagRuntime) (tc : TagConfig) : List TagRuntime :=
  if seen tags tc.logicalName then tags
  else if !tc.enabled || isMemoryTag tc || tc.sourceTag != "" then tags ++ [makeRoot tc false]
  else if isOpcuaClientDriverName conn.driver then
    addElements (fun i => tc.plcTagName ++ "[" ++ toString i ++ "]") tc
      (tags ++ [scheduleNextPeriodic (makeRoot tc false)])
  else if !isSupportedDatatype tc.datatype then tags ++ [makeRoot tc false]
  else
    addElements (buildArrayElementPlcTagName conn tc) tc
      (tags ++ [scheduleNextPeriodic (makeRoot tc true)])

/-- The tags before disabled names are applied. -/
def buildTags (conn : ConnectionConfig) (tagCfgs : List TagConfig) : List TagRuntime :=
  tagCfgs.foldl (addTag conn) []

def disabledNames (tagCfgs : List TagConfig) : List String :=
  (tagCfgs.filter fun config => !config.enabled).map TagConfig.logicalName

/-- Disabled definitions also override generated elements. -/
def applyDisabled (names : List String) (tag : TagRuntime) : TagRuntime :=
  if tag.name ∈ names then { tag with cfg := { tag.cfg with enabled := false } } else tag

/-! ## Names -/

@[simp] theorem makeRoot_name (tc : TagConfig) (deferred : Bool) :
    (makeRoot tc deferred).name = tc.logicalName :=
  initTagScaling_name { cfg := tc, handle := plctagErrNotFound }

@[simp] theorem scheduleNextPeriodic_name (rt : TagRuntime) :
    (scheduleNextPeriodic rt).name = rt.name := rfl

@[simp] theorem makeElement_name (plcTagName : Nat → String) (tc : TagConfig) (i : Nat) :
    (makeElement plcTagName tc i).name = elementName tc.logicalName i := rfl

@[simp] theorem applyDisabled_name (names : List String) (tag : TagRuntime) :
    (applyDisabled names tag).name = tag.name := by
  unfold applyDisabled
  split <;> rfl

theorem nodup_snoc {tags : List TagRuntime} {rt : TagRuntime}
    (h : (tags.map TagRuntime.name).Nodup) (hnew : ¬ seen tags rt.name) :
    ((tags ++ [rt]).map TagRuntime.name).Nodup := by
  rw [List.map_append, List.nodup_append]
  refine ⟨h, List.nodup_singleton _, fun a ha b hb hab => hnew ?_⟩
  rw [List.map_singleton, List.mem_singleton] at hb
  rwa [← hb, ← hab]

theorem addElements_nodup {plcTagName : Nat → String} {tc : TagConfig} {tags : List TagRuntime}
    (h : (tags.map TagRuntime.name).Nodup) :
    ((addElements plcTagName tc tags).map TagRuntime.name).Nodup := by
  unfold addElements
  split
  · generalize List.range tc.elemCount = is
    induction is generalizing tags with
    | nil => exact h
    | cons i is ih =>
      rw [List.foldl_cons]
      split
      · exact ih h
      · rename_i hnew
        exact ih (nodup_snoc h hnew)
  · exact h

theorem addTag_nodup {conn : ConnectionConfig} {tags : List TagRuntime} {tc : TagConfig}
    (h : (tags.map TagRuntime.name).Nodup) : ((addTag conn tags tc).map TagRuntime.name).Nodup := by
  unfold addTag
  split
  · exact h
  · rename_i hnew
    have hroot : ∀ deferred, ((tags ++ [makeRoot tc deferred]).map TagRuntime.name).Nodup :=
      fun deferred => nodup_snoc h (by simpa using hnew)
    have hperiodic : ∀ deferred,
        ((tags ++ [scheduleNextPeriodic (makeRoot tc deferred)]).map TagRuntime.name).Nodup :=
      fun deferred => nodup_snoc h (by simpa using hnew)
    split
    · exact hroot false
    · split
      · exact addElements_nodup (hperiodic false)
      · split
        · exact hroot false
        · exact addElements_nodup (hperiodic true)

theorem buildTags_nodup (conn : ConnectionConfig) (tagCfgs : List TagConfig) :
    ((buildTags conn tagCfgs).map TagRuntime.name).Nodup := by
  unfold buildTags
  have hgen : ∀ (tagCfgs : List TagConfig) (tags : List TagRuntime),
      (tags.map TagRuntime.name).Nodup →
      ((tagCfgs.foldl (addTag conn) tags).map TagRuntime.name).Nodup := by
    intro tagCfgs
    induction tagCfgs with
    | nil => exact fun _ h => h
    | cons tc tagCfgs ih => exact fun tags h => ih _ (addTag_nodup h)
  exact hgen tagCfgs [] List.nodup_nil

theorem map_applyDisabled_name (names : List String) (tags : List TagRuntime) :
    (tags.map (applyDisabled names)).map TagRuntime.name = tags.map TagRuntime.name := by
  rw [List.map_map]
  exact List.map_congr_left fun tag _ => applyDisabled_name names tag

/-- `build_driver_context_for_connection`; it never fails. -/
def buildDriverContextForConnection (freshnessEpoch : Nat) (conn : ConnectionConfig)
    (tagCfgs : List TagConfig) : DriverContext where
  freshnessEpoch := freshnessEpoch
  conn := conn
  tags := (buildTags conn tagCfgs).map (applyDisabled (disabledNames tagCfgs))
  names_nodup := by
    rw [map_applyDisabled_name]
    exact buildTags_nodup conn tagCfgs

/-! ## Claimed names -/

/-- An entry that generates elements where its name is free. -/
def TagConfig.generates (tc : TagConfig) : Bool :=
  tc.enabled && !isMemoryTag tc && tc.sourceTag == "" && decide (1 < tc.elemCount)

/-- The names that entries claim: an entry claims its name, and an array that gets its name those of
its elements. -/
def claimedNames (tagCfgs : List TagConfig) : List String :=
  tagCfgs.foldl (fun names tc =>
    if tc.logicalName ∈ names then names
    else names ++ tc.logicalName ::
      if tc.generates then (List.range tc.elemCount).map (elementName tc.logicalName) else []) []

/-- An entry as `load_tag_file` leaves it. -/
structure TagConfig.Loaded (tc : TagConfig) : Prop where
  supported : isSupportedDatatype tc.datatype = true
  elements : 1 ≤ tc.elemCount
  derived : tc.sourceTag ≠ "" → tc.elemCount = 1
  memory : isMemoryTag tc = true → tc.elemCount = 1 ∧ tc.sourceTag = ""

/-- What an entry with a free name adds. -/
def entryTags (conn : ConnectionConfig) (tags : List TagRuntime) (tc : TagConfig) :
    List TagRuntime :=
  let polled := tc.enabled && !isMemoryTag tc && tc.sourceTag == ""
  let opcua := isOpcuaClientDriverName conn.driver
  let root := makeRoot tc (polled && !opcua)
  let plcTagName := if opcua then fun i => tc.plcTagName ++ "[" ++ toString i ++ "]"
    else buildArrayElementPlcTagName conn tc
  (if polled then scheduleNextPeriodic root else root) ::
    if tc.generates then
      ((List.range tc.elemCount).filter fun i => ¬ seen tags (elementName tc.logicalName i)).map
        (makeElement plcTagName tc)
    else []

omit [Floats] in
/-- Elements of different arrays have different names: the index is what follows the last bracket. -/
theorem elementName_root_inj {root root' : String} {i j : Nat}
    (h : elementName root i = elementName root' j) : root = root' := by
  have hdigits : ∀ k : Nat, '[' ∉ (toString k).toList := by
    intro k hk
    rw [Nat.toString_eq_ofList_toDigits, String.toList_ofList] at hk
    exact absurd (Nat.isDigit_of_mem_toDigits (by omega) (by omega) hk) (by decide)
  have hl := congrArg String.toList h
  simp only [elementName, String.toList_append] at hl
  have hl' : root.toList ++ '[' :: (toString i).toList = root'.toList ++ '[' :: (toString j).toList := by
    have := List.append_inj_left' hl rfl
    simpa using this
  rcases List.append_eq_append_iff.1 hl' with ⟨cs, h1, h2⟩ | ⟨cs, h1, h2⟩
  · cases cs with
    | nil => exact String.toList_inj.1 (by simpa using h1.symm)
    | cons c cs =>
      rw [List.cons_append, List.cons.injEq] at h2
      exact absurd (h2.2 ▸ List.mem_append_right cs List.mem_cons_self) (hdigits i)
  · cases cs with
    | nil => exact String.toList_inj.1 (by simpa using h1)
    | cons c cs =>
      rw [List.cons_append, List.cons.injEq] at h2
      exact absurd (h2.2 ▸ List.mem_append_right cs List.mem_cons_self) (hdigits j)

/-- The elements that are added are those whose names are free. -/
theorem addElements_eq {plcTagName : Nat → String} {tc : TagConfig} (h : 1 < tc.elemCount)
    (tags : List TagRuntime) (rt : TagRuntime) (hrt : rt.name = tc.logicalName) :
    addElements plcTagName tc (tags ++ [rt]) = tags ++ rt ::
      ((List.range tc.elemCount).filter fun i => ¬ seen tags (elementName tc.logicalName i)).map
        (makeElement plcTagName tc) := by
  have hgen : ∀ (is : List Nat) (done : List TagRuntime), is.Nodup →
      (∀ i ∈ is, elementName tc.logicalName i ∉ done.map TagRuntime.name) →
      is.foldl (fun tags i => if seen tags (elementName tc.logicalName i) then tags
        else tags ++ [makeElement plcTagName tc i]) (tags ++ rt :: done) =
      tags ++ rt :: done ++ (is.filter fun i => ¬ seen tags (elementName tc.logicalName i)).map
        (makeElement plcTagName tc) := by
    intro is
    induction is with
    | nil => exact fun done _ _ => by simp
    | cons i is ih =>
      intro done hnodup hfree
      have hseen : seen (tags ++ rt :: done) (elementName tc.logicalName i) ↔
          seen tags (elementName tc.logicalName i) := by
        have h1 := hfree i (by simp)
        have h2 := elementName_ne_root tc.logicalName i
        unfold seen
        simp only [List.map_append, List.map_cons, List.mem_append, List.mem_cons, hrt]
        tauto
      rw [List.foldl_cons]
      rw [List.nodup_cons] at hnodup
      by_cases hs : seen tags (elementName tc.logicalName i)
      · rw [if_pos (hseen.2 hs), ih done hnodup.2 fun j hj => hfree j (List.mem_cons_of_mem _ hj),
          List.filter_cons_of_neg (by simpa using hs)]
      · rw [if_neg fun h => hs (hseen.1 h)]
        have hstep := ih (done ++ [makeElement plcTagName tc i]) hnodup.2 fun j hj => by
          rw [List.map_append, List.mem_append, List.map_singleton, List.mem_singleton]
          rintro (hmem | hmem)
          · exact hfree j (List.mem_cons_of_mem _ hj) hmem
          · exact hnodup.1 (elementName_inj.1 hmem ▸ hj)
        rw [List.filter_cons_of_pos (by simpa using hs)]
        simpa using hstep
  unfold addElements
  rw [if_pos h]
  have hall := hgen (List.range tc.elemCount) [] List.nodup_range (by simp)
  simpa using hall

/-- One entry as `load_tag_file` leaves it. -/
theorem addTag_eq {conn : ConnectionConfig} {tags : List TagRuntime} {tc : TagConfig}
    (h : tc.Loaded) :
    addTag conn tags tc =
      if seen tags tc.logicalName then tags else tags ++ entryTags conn tags tc := by
  unfold addTag
  split
  · rfl
  · unfold entryTags TagConfig.generates
    have hbranch : (!tc.enabled || isMemoryTag tc || tc.sourceTag != "") =
        !(tc.enabled && !isMemoryTag tc && tc.sourceTag == "") := by
      cases tc.enabled <;> cases isMemoryTag tc <;> simp [bne]
    rw [hbranch]
    cases hp : tc.enabled && !isMemoryTag tc && tc.sourceTag == "" with
    | false => simp
    | true =>
      have helements : ∀ (plcTagName : Nat → String) (rt : TagRuntime),
          rt.name = tc.logicalName → addElements plcTagName tc (tags ++ [rt]) = tags ++ rt ::
            (if (true && decide (1 < tc.elemCount)) = true then ((List.range tc.elemCount).filter
              fun i => ¬ seen tags (elementName tc.logicalName i)).map (makeElement plcTagName tc)
            else []) := by
        intro plcTagName rt hrt
        by_cases h1 : 1 < tc.elemCount
        · rw [addElements_eq h1 tags rt hrt]
          simp [h1]
        · unfold addElements
          rw [if_neg h1]
          simp [h1]
      simp only [Bool.not_true, Bool.false_eq_true, if_false, Bool.true_and, if_true, h.supported]
      cases hua : isOpcuaClientDriverName conn.driver with
      | true =>
        simp only [if_true, Bool.not_true]
        rw [helements _ _ (by simp)]
        rfl
      | false =>
        simp only [Bool.false_eq_true, if_false, Bool.not_false]
        rw [helements _ _ (by simp)]
        rfl

/-! ## The tags of a list of entries -/

/-- The runtime tag of an entry whose name was free. -/
def rootTag (conn : ConnectionConfig) (tc : TagConfig) : TagRuntime :=
  let polled := tc.enabled && !isMemoryTag tc && tc.sourceTag == ""
  let root := makeRoot tc (polled && !isOpcuaClientDriverName conn.driver)
  if polled then scheduleNextPeriodic root else root

def elementTag (conn : ConnectionConfig) (tc : TagConfig) (i : Nat) : TagRuntime :=
  makeElement (if isOpcuaClientDriverName conn.driver
    then fun i => tc.plcTagName ++ "[" ++ toString i ++ "]"
    else buildArrayElementPlcTagName conn tc) tc i

@[simp] theorem rootTag_name (conn : ConnectionConfig) (tc : TagConfig) :
    (rootTag conn tc).name = tc.logicalName := by
  unfold rootTag
  dsimp only
  split <;> simp

theorem mem_entryTags {conn : ConnectionConfig} {tags : List TagRuntime} {tc : TagConfig}
    {t : TagRuntime} :
    t ∈ entryTags conn tags tc ↔ t = rootTag conn tc ∨ tc.generates = true ∧
      ∃ i < tc.elemCount, ¬ seen tags (elementName tc.logicalName i) ∧ t = elementTag conn tc i := by
  unfold entryTags
  dsimp only
  rw [List.mem_cons]
  refine or_congr Iff.rfl ?_
  cases hg : tc.generates with
  | false => simp
  | true =>
    simp only [if_true, List.mem_map, List.mem_filter, List.mem_range, decide_eq_true_eq, true_and]
    constructor
    · rintro ⟨i, ⟨hi, hs⟩, rfl⟩
      exact ⟨i, hi, hs, rfl⟩
    · rintro ⟨i, hi, hs, rfl⟩
      exact ⟨i, ⟨hi, hs⟩, rfl⟩

theorem buildTags_snoc (conn : ConnectionConfig) (tagCfgs : List TagConfig) (tc : TagConfig) :
    buildTags conn (tagCfgs ++ [tc]) = addTag conn (buildTags conn tagCfgs) tc := by
  simp [buildTags]

theorem mem_claimedNames_snoc {tagCfgs : List TagConfig} {tc : TagConfig} {name : String} :
    name ∈ claimedNames (tagCfgs ++ [tc]) ↔ name ∈ claimedNames tagCfgs ∨
      tc.logicalName ∉ claimedNames tagCfgs ∧ (name = tc.logicalName ∨
        tc.generates = true ∧ ∃ i < tc.elemCount, name = elementName tc.logicalName i) := by
  have hsnoc : claimedNames (tagCfgs ++ [tc]) =
      if tc.logicalName ∈ claimedNames tagCfgs then claimedNames tagCfgs
      else claimedNames tagCfgs ++ tc.logicalName ::
        if tc.generates then (List.range tc.elemCount).map (elementName tc.logicalName) else [] := by
    unfold claimedNames
    rw [List.foldl_append]
    rfl
  rw [hsnoc]
  split
  · rename_i hc
    simp [hc]
  · rename_i hc
    rw [List.mem_append, List.mem_cons]
    simp only [hc, not_false_eq_true, true_and]
    refine or_congr Iff.rfl (or_congr Iff.rfl ?_)
    cases tc.generates with
    | false => simp
    | true => simp [eq_comm]

/-- The tags have the claimed names. -/
theorem seen_buildTags {conn : ConnectionConfig} {tagCfgs : List TagConfig}
    (h : ∀ tc ∈ tagCfgs, tc.Loaded) {name : String} :
    seen (buildTags conn tagCfgs) name ↔ name ∈ claimedNames tagCfgs := by
  induction tagCfgs using List.reverseRecOn generalizing name with
  | nil => simp [seen, buildTags, claimedNames]
  | append_singleton tagCfgs tc ih =>
    have hih : ∀ name, seen (buildTags conn tagCfgs) name ↔ name ∈ claimedNames tagCfgs :=
      fun name => ih fun tc' htc' => h tc' (List.mem_append_left _ htc')
    rw [buildTags_snoc, addTag_eq (h tc (by simp)), mem_claimedNames_snoc]
    by_cases hs : seen (buildTags conn tagCfgs) tc.logicalName
    · rw [if_pos hs]
      have hc := (hih _).1 hs
      simp only [hc, not_true_eq_false, false_and, or_false]
      exact hih name
    · rw [if_neg hs]
      have hc : tc.logicalName ∉ claimedNames tagCfgs := fun hc => hs ((hih _).2 hc)
      simp only [hc, not_false_eq_true, true_and]
      show name ∈ (_ ++ _ : List TagRuntime).map TagRuntime.name ↔ _
      rw [List.map_append, List.mem_append]
      have hstep : name ∈ (entryTags conn (buildTags conn tagCfgs) tc).map TagRuntime.name ↔
          name = tc.logicalName ∨ tc.generates = true ∧ ∃ i < tc.elemCount,
            ¬ seen (buildTags conn tagCfgs) (elementName tc.logicalName i) ∧
            name = elementName tc.logicalName i := by
        simp only [List.mem_map, mem_entryTags]
        constructor
        · rintro ⟨t, rfl | ⟨hg, i, hi, hfree, rfl⟩, rfl⟩
          · exact .inl (rootTag_name conn tc)
          · exact .inr ⟨hg, i, hi, hfree, rfl⟩
        · rintro (rfl | ⟨hg, i, hi, hfree, rfl⟩)
          · exact ⟨rootTag conn tc, .inl rfl, rootTag_name conn tc⟩
          · exact ⟨elementTag conn tc i, .inr ⟨hg, i, hi, hfree, rfl⟩, rfl⟩
      rw [hstep]
      constructor
      · rintro (hname | rfl | ⟨hg, i, hi, -, rfl⟩)
        · exact .inl ((hih name).1 hname)
        · exact .inr (.inl rfl)
        · exact .inr (.inr ⟨hg, i, hi, rfl⟩)
      · rintro (hname | rfl | ⟨hg, i, hi, rfl⟩)
        · exact .inl ((hih name).2 hname)
        · exact .inr (.inl rfl)
        · by_cases hfree : seen (buildTags conn tagCfgs) (elementName tc.logicalName i)
          · exact .inl hfree
          · exact .inr (.inr ⟨hg, i, hi, hfree, rfl⟩)

/-- **The runtime tags.** A tag is the root of an entry whose name was free, or an element of such an
entry whose own name was free. -/
theorem mem_buildTags {conn : ConnectionConfig} {tagCfgs : List TagConfig}
    (h : ∀ tc ∈ tagCfgs, tc.Loaded) {t : TagRuntime} :
    t ∈ buildTags conn tagCfgs ↔ ∃ before tc after, tagCfgs = before ++ tc :: after ∧
      tc.logicalName ∉ claimedNames before ∧ (t = rootTag conn tc ∨ tc.generates = true ∧
        ∃ i < tc.elemCount, elementName tc.logicalName i ∉ claimedNames before ∧
          t = elementTag conn tc i) := by
  induction tagCfgs using List.reverseRecOn with
  | nil => simp [buildTags]
  | append_singleton tagCfgs last ih =>
    have hinit : ∀ tc ∈ tagCfgs, tc.Loaded := fun tc htc => h tc (List.mem_append_left _ htc)
    have hsnoc : t ∈ buildTags conn (tagCfgs ++ [last]) ↔ t ∈ buildTags conn tagCfgs ∨
        last.logicalName ∉ claimedNames tagCfgs ∧
          t ∈ entryTags conn (buildTags conn tagCfgs) last := by
      rw [buildTags_snoc, addTag_eq (h last (by simp)), ← @seen_buildTags _ conn _ hinit]
      split
      · rename_i hs
        simp [hs]
      · rename_i hs
        simp [hs]
    rw [hsnoc, ih hinit, mem_entryTags]
    simp only [seen_buildTags hinit]
    constructor
    · rintro (⟨before, tc, after, rfl, hrest⟩ | ⟨hfree, hentry⟩)
      · exact ⟨before, tc, after ++ [last], by simp, hrest⟩
      · exact ⟨tagCfgs, last, [], rfl, hfree, hentry⟩
    · rintro ⟨before, tc, after, hsplit, hrest⟩
      obtain rfl | ⟨after', last', rfl⟩ := List.eq_nil_or_concat' after
      · obtain ⟨rfl, hlast⟩ := List.append_inj' hsplit rfl
        rw [List.singleton_inj] at hlast
        subst hlast
        exact .inr hrest
      · rw [← List.cons_append, ← List.append_assoc] at hsplit
        obtain ⟨rfl, -⟩ := List.append_inj' hsplit rfl
        exact .inl ⟨before, tc, after', rfl, hrest⟩

end OpcBridge
