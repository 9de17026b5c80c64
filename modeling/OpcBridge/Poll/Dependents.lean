import OpcBridge.Core.Snapshot
import OpcBridge.Lib.Closure

/-!
# Dependents of a root

Both the write readback and the demand transition of the poll lane close a root under the links of
a driver (`DriverContext.affected`) and then run `transitionPollCache` over the selected tags.
`mem_affected` says which tags the closure holds; the lemmas on `transitionAll` say what the loop
leaves: a selected tag is transitioned once, from the state before the loop, and everything else is
as it was.
-/

namespace OpcBridge

open Lib

variable [Floats]

namespace DriverContext

/-- Each tag with the tag it is computed from. -/
def links (driver : DriverContext) : List (String × Option String) :=
  driver.tags.map fun tag => (tag.name, tag.parent)

/-- A chain of `poll_source`/`source_tag` links leads from `name` to `root`. -/
def DependsOn (driver : DriverContext) (root name : String) : Prop :=
  Below driver.links {root} name

/-- The `while (changed)` loop from the root. -/
def affected (driver : DriverContext) (root : String) : Finset String :=
  saturate driver.links (driver.links.length + 1) {root}

theorem mem_affected {driver : DriverContext} {root name : String} :
    name ∈ driver.affected root ↔ driver.DependsOn root name := mem_saturate

/-- The loop ended with a pass that changed nothing. -/
theorem affected_done (driver : DriverContext) (root : String) :
    pass driver.links (driver.affected root) = (driver.affected root, false) := saturate_done _ _

end DriverContext

/-! ## The transition loop -/

/-- The tags a closure transitions: affected, enabled, not memory and not skipped. -/
def selects (affected : Finset String) (skip : TagRuntime → Bool) (tag : TagRuntime) : Bool :=
  decide (tag.name ∈ affected) && tag.cfg.enabled && !isMemoryTag tag.cfg && !skip tag

/-- Transition every selected tag, in tag order. -/
def transitionAll (selected active : TagRuntime → Bool) (restart : Bool) (now : Instant)
    (tags : List TagRuntime) (acc : DriverContext × TagTable) : DriverContext × TagTable :=
  tags.foldl (fun acc tag =>
    if selected tag then transitionPollCache acc.1 tag acc.2 (active tag) restart now else acc) acc

section
variable {selected active : TagRuntime → Bool} {restart : Bool} {now : Instant}

theorem transitionAll_cons (tag : TagRuntime) (tags : List TagRuntime)
    (acc : DriverContext × TagTable) :
    transitionAll selected active restart now (tag :: tags) acc =
      transitionAll selected active restart now tags
        (if selected tag then transitionPollCache acc.1 tag acc.2 (active tag) restart now
         else acc) := rfl

/-- The loop changes the gates of the driver and nothing else of it. -/
theorem transitionAll_driver (tags : List TagRuntime) (acc : DriverContext × TagTable) :
    ∃ gates, (transitionAll selected active restart now tags acc).1 =
      { acc.1 with pollGates := gates } := by
  induction tags generalizing acc with
  | nil => exact ⟨acc.1.pollGates, rfl⟩
  | cons tag tags ih =>
    rw [transitionAll_cons]
    obtain ⟨gates, h⟩ := ih (if selected tag then
      transitionPollCache acc.1 tag acc.2 (active tag) restart now else acc)
    refine ⟨gates, h.trans ?_⟩
    split
    · rw [transitionPollCache_driver]
    · rfl

/-- Gates of tags that are not selected stay. -/
theorem transitionAll_gate_ne {tags : List TagRuntime} {acc : DriverContext × TagTable}
    {name : String} (h : ∀ tag ∈ tags, selected tag → tag.name ≠ name) :
    (transitionAll selected active restart now tags acc).1.pollGates name =
      acc.1.pollGates name := by
  induction tags generalizing acc with
  | nil => rfl
  | cons tag tags ih =>
    rw [transitionAll_cons, ih fun t ht => h t (List.mem_cons_of_mem _ ht)]
    split
    · rename_i hs
      rw [transitionPollCache_driver]
      exact Function.update_of_ne (Ne.symm (h tag (by simp) hs)) _ _
    · rfl

/-- Cache entries other than those of selected tags stay. -/
theorem transitionAll_table_ne {tags : List TagRuntime} {acc : DriverContext × TagTable}
    {key : String} (h : ∀ tag ∈ tags, selected tag → acc.1.key tag.name ≠ key) :
    (transitionAll selected active restart now tags acc).2 key = acc.2 key := by
  induction tags generalizing acc with
  | nil => rfl
  | cons tag tags ih =>
    rw [transitionAll_cons, ih]
    · split
      · rename_i hs
        exact transitionPollCache_table_ne _ _ _ _ _ _ (Ne.symm (h tag (by simp) hs))
      · rfl
    · intro t ht hs
      have hk := h t (List.mem_cons_of_mem _ ht) hs
      split
      · rwa [transitionPollCache_driver]
      · exact hk

variable (active restart now) in
/-- A selected tag is transitioned from the state before the loop. -/
theorem transitionAll_selected {tags : List TagRuntime} (acc : DriverContext × TagTable)
    (hn : (tags.map TagRuntime.name).Nodup) {tag : TagRuntime} (hm : tag ∈ tags)
    (hs : selected tag) :
    (transitionAll selected active restart now tags acc).1.pollGates tag.name =
      some (((acc.1.pollGates tag.name).getD {}).transition (active tag) restart
        acc.1.freshnessEpoch now.steady) ∧
    (transitionAll selected active restart now tags acc).2 (acc.1.key tag.name) =
      (transitionPollCache acc.1 tag acc.2 (active tag) restart now).2 (acc.1.key tag.name) := by
  induction tags generalizing acc with
  | nil => cases hm
  | cons t tags ih =>
    rw [List.map_cons, List.nodup_cons] at hn
    rw [transitionAll_cons]
    rcases List.mem_cons.1 hm with rfl | hm
    · -- the tags after it have other names
      have hne : ∀ t ∈ tags, selected t → t.name ≠ tag.name :=
        fun t ht _ h => hn.1 (h ▸ List.mem_map_of_mem ht)
      rw [if_pos hs, transitionAll_gate_ne hne, transitionAll_table_ne]
      · rw [transitionPollCache_driver]
        exact ⟨Function.update_self .., rfl⟩
      · intro t ht hst h
        rw [transitionPollCache_driver] at h
        exact hne t ht hst (makeTagKey_inj.1 h)
    · split
      · -- the tag before it has another name
        have hne : tag.name ≠ t.name := fun h => hn.1 (h ▸ List.mem_map_of_mem hm)
        have hkey : acc.1.key tag.name ≠ acc.1.key t.name := fun h => hne (makeTagKey_inj.1 h)
        have hg : (transitionPollCache acc.1 t acc.2 (active t) restart now).1.pollGates tag.name =
            acc.1.pollGates tag.name := by
          rw [transitionPollCache_driver]
          exact Function.update_of_ne hne _ _
        have hk := transitionPollCache_table_ne acc.1 t acc.2 (active t) restart now hkey
        obtain ⟨h1, h2⟩ := ih (transitionPollCache acc.1 t acc.2 (active t) restart now) hn.2 hm
        rw [hg] at h1
        rw [transitionPollCache_table_key, hg] at h2
        have hd := transitionPollCache_driver acc.1 t acc.2 (active t) restart now
        have hc : (transitionPollCache acc.1 t acc.2 (active t) restart now).1.key tag.name =
            acc.1.key tag.name := by rw [hd]; rfl
        rw [hc, hk, hd] at h2
        refine ⟨by rw [h1, hd], ?_⟩
        rw [h2, transitionPollCache_table_key]
      · exact ih acc hn.2 hm

end

/-! ## A small driver -/

/-- A sample that a poll stored as good. -/
def goodSample (driver : DriverContext) (tag : TagRuntime) : TagSnapshot :=
  { connectionId := driver.conn.id, logicalName := tag.name, datatype := tag.cfg.datatype,
    value := defaultTagValueForDatatype tag.cfg.datatype, timestamp := 0, quality := 1 }

/-- The root tag of an array of two words. -/
def arrayRow : TagRuntime := { cfg := { logicalName := "A", datatype := "int16", elemCount := 2 } }

/-- Its first element. -/
def arrayElement : TagRuntime :=
  { pollSource := "A", cfg := { logicalName := "A[0]", datatype := "int16" } }

/-- A driver with the array and its generated elements. -/
def arrayDriver : DriverContext where
  freshnessEpoch := 1
  conn := { id := "C", driver := "ab_eip" }
  tags := [arrayRow, arrayElement,
    { pollSource := "A", cfg := { logicalName := "A[1]", datatype := "int16" } }]
  names_nodup := by simp [TagRuntime.name, arrayRow, arrayElement]

end OpcBridge
