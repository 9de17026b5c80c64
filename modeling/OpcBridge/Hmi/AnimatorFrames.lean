import OpcBridge.Lib.Run
import Mathlib.Data.List.Perm.Basic
import Mathlib.Data.List.InsertIdx
import Mathlib.Algebra.GroupWithZero.Nat
import Mathlib.Algebra.Order.Group.Multiset

/-!
# Animator frames

An Animator group keeps its frames twice: as metadata in order, and as ordinary children of the
group that carry a frame id. `InStep` is the agreement of the two lists, which every edit keeps
(`InStep.step`); `drawings` are the objects on the canvas, without the groups that hold the
drawings of a frame, and the edits that only move them lose and copy none (`step_drawings`).
-/

namespace OpcBridge

open Lib

section
variable {V : Type}

/-! ## Groups -/

/-- An object of a screen; `rotated` is a rotation other than zero, `others` are the properties that
no edit of the Animator looks at. -/
structure SceneObject (V : Type) where
  type : String
  x : V
  y : V
  w : V
  h : V
  rotated : Bool := false
  others : List (String × V) := []
  animatorFrameId : Option String := none
  animatorFrameContainer : Bool := false
  children : List (SceneObject V) := []

/-- The object carries the id of a frame; an empty text is none. -/
def SceneObject.hasFrame (object : SceneObject V) : Bool := object.animatorFrameId.any (· != "")

/-- `create([])`, and what `attach` puts into it. -/
structure AnimatorConfig where
  mode : String := "playback"
  enabled : Bool := true
  frameIntervalMs : Nat := 100
  repeatCount : Option Nat := none
  animateWhenTrue : Bool := true
  inactiveVisible : Bool := true
  inactiveFrame : String := "fallback"
  startValue : Int := 0
  stopValue : Int := 100
  stoppedFrameId : Option String := none
  /-- The ids of the frames in order. -/
  frames : List String := []

structure AnimatorGroup (V : Type) where
  w : V
  h : V
  animator : Option AnimatorConfig := none
  children : List (SceneObject V) := []

def createId (random : String) : String := "frame_" ++ random

/-- `frames[0]?.id || null` -/
def firstFrame (frames : List String) : Option String := frames.head?.filter (· != "")

namespace AnimatorConfig

def move (config : AnimatorConfig) (id : String) (delta : Int) : AnimatorConfig :=
  match config.frames.findIdx? (· == id) with
  | none => config
  | some index =>
    let next := (index : Int) + delta
    if next < 0 ∨ (config.frames.length : Int) ≤ next then config
    else { config with frames := (config.frames.eraseIdx index).insertIdx next.toNat id }

/-- With the id of the new frame. -/
def duplicate (config : AnimatorConfig) (id newId : String) : Option AnimatorConfig :=
  (config.frames.findIdx? (· == id)).map fun index =>
    { config with frames := config.frames.insertIdx (index + 1) newId }

def remove (config : AnimatorConfig) (id : String) : AnimatorConfig :=
  let frames := config.frames.filter (· != id)
  { config with
    frames := frames
    stoppedFrameId := if config.stoppedFrameId = some id then firstFrame frames
      else config.stoppedFrameId }

end AnimatorConfig

/-- A property of the first element with `p` is changed in place. -/
def updateFirst {α : Type} (p : α → Bool) (f : α → α) : List α → List α
  | [] => []
  | a :: rest => if p a then f a :: rest else a :: updateFirst p f rest

namespace AnimatorGroup

/-- With an id for each child. -/
def attach (group : AnimatorGroup V) (ids : List String) : AnimatorGroup V :=
  { group with
    children := List.zipWith (fun object id => { object with animatorFrameId := some id })
      group.children ids
    animator := some { frames := ids, stoppedFrameId := firstFrame ids } }

def carries (id : String) (object : SceneObject V) : Bool := object.animatorFrameId == some id

def frameObject (group : AnimatorGroup V) (id : String) : Option (SceneObject V) :=
  group.children.find? (carries id)

section
variable [Zero V]

/-- The group that holds the drawings of a frame. -/
def frameContainer (group : AnimatorGroup V) (id : Option String)
    (drawings : List (SceneObject V)) : SceneObject V :=
  { type := "group", x := 0, y := 0, w := group.w, h := group.h
    animatorFrameId := id, animatorFrameContainer := true, children := drawings }

def prepareFrameGroups (group : AnimatorGroup V) : AnimatorGroup V :=
  { group with
    children := group.children.map fun object =>
      if !object.hasFrame || object.animatorFrameContainer then object
      else group.frameContainer object.animatorFrameId
        [{ object with animatorFrameId := none }] }

/-- A group without an Animator has no frames to add to. -/
def addFrame (group : AnimatorGroup V) (newId : String) : AnimatorGroup V :=
  let prepared := group.prepareFrameGroups
  match prepared.animator with
  | none => prepared
  | some config => { prepared with
      animator := some { config with frames := config.frames ++ [newId] }
      children := prepared.children ++ [group.frameContainer (some newId) []] }

end

/-- The group and the adopted drawings. -/
def adoptUnassigned (group : AnimatorGroup V) (id : String) :
    AnimatorGroup V × List (SceneObject V) :=
  match group.frameObject id with
  | none => (group, [])
  | some target =>
    if !target.animatorFrameContainer then (group, [])
    else
      let unassigned := group.children.filter (!·.hasFrame)
      ({ group with
        children := (updateFirst (carries id)
          (fun target => { target with children := target.children ++ unassigned })
          group.children).filter (·.hasFrame) }, unassigned)

/-- The elements at the chosen places, or at the others. -/
def pick {α : Type} (chosen : Nat → Bool) (objects : List α) : List α :=
  (objects.zipIdx.filter fun object => chosen object.2).map Prod.fst

/-- `chosen` are the places of the objects among the children of the source. Two frames are one
object if and only if they have one id, as the first child with the id is the object. -/
def transfer (group : AnimatorGroup V) (sourceId targetId : String) (chosen : Nat → Bool) :
    Except String (AnimatorGroup V × List (SceneObject V)) :=
  match group.frameObject sourceId, group.frameObject targetId with
  | some source, some target =>
    if !source.animatorFrameContainer || !target.animatorFrameContainer || sourceId == targetId then
      .ok (group, [])
    else if source.rotated || target.rotated then
      .error "Reset frame group rotation before moving objects between frames."
    else
      let moving := pick chosen source.children
      let emptied := updateFirst (carries sourceId)
        (fun source => { source with children := pick (fun i => !chosen i) source.children })
        group.children
      .ok ({ group with
        children := updateFirst (carries targetId)
          (fun target => { target with children := target.children ++ moving }) emptied }, moving)
  | _, _ => .ok (group, [])

def duplicateFrame (group : AnimatorGroup V) (id newId : String) : Option (AnimatorGroup V) := do
  let index ← group.children.findIdx? (carries id)
  let object ← group.children[index]?
  let config ← group.animator
  let config ← config.duplicate id newId
  some { group with
    animator := some config
    children := group.children.insertIdx (index + 1)
      { object with animatorFrameId := some newId } }

def removeFrame (group : AnimatorGroup V) (id : String) : AnimatorGroup V :=
  match group.animator with
  | none => group
  | some config => { group with
      animator := some (config.remove id)
      children := group.children.filter fun object => !carries id object }

def detach (group : AnimatorGroup V) : AnimatorGroup V :=
  match group.animator with
  | none => group
  | some _ => { group with
      animator := none
      children := group.children.map fun object => { object with animatorFrameId := none } }

end AnimatorGroup

/-! ## Edits -/

/-- A group in the editor, and how many ids were created. -/
structure AnimatorEditor (V : Type) where
  group : AnimatorGroup V
  created : Nat := 0

inductive AnimatorEdit (V : Type)
  | addFrame
  | duplicateFrame (id : String)
  | removeFrame (id : String)
  | move (id : String) (delta : Int)
  | prepareFrameGroups
  | transfer (sourceId targetId : String) (chosen : Nat → Bool)
  | adoptUnassigned (id : String)
  /-- The editor draws an object into the group, or into the group of a frame. -/
  | draw (frame : Option String) (object : SceneObject V)

/-- Attached with the first ids of the supply. -/
def attached (random : Nat → String) (group : AnimatorGroup V) : AnimatorEditor V where
  group := group.attach ((List.range group.children.length).map fun n => createId (random n))
  created := group.children.length

def AnimatorEditor.edit [Zero V] (random : Nat → String) (e : AnimatorEditor V) :
    AnimatorEdit V → AnimatorEditor V
  | .addFrame =>
    { group := e.group.addFrame (createId (random e.created)), created := e.created + 1 }
  | .duplicateFrame id =>
    match e.group.duplicateFrame id (createId (random e.created)) with
    | none => e
    | some group => { group := group, created := e.created + 1 }
  | .removeFrame id => { e with group := e.group.removeFrame id }
  | .move id delta =>
    { e with group := { e.group with
        animator := e.group.animator.map fun config => config.move id delta } }
  | .prepareFrameGroups => { e with group := e.group.prepareFrameGroups }
  | .transfer sourceId targetId chosen =>
    match e.group.transfer sourceId targetId chosen with
    | .error _ => e
    | .ok (group, _) => { e with group := group }
  | .adoptUnassigned id => { e with group := (e.group.adoptUnassigned id).1 }
  | .draw none object =>
    { e with group := { e.group with children := e.group.children ++ [object] } }
  | .draw (some id) object =>
    { e with group := { e.group with
        children := updateFirst (AnimatorGroup.carries id)
          (fun frame => { frame with children := frame.children ++ [object] })
          e.group.children } }

/-! ## Agreement -/

/-- The object or one inside it carries the id. -/
inductive SceneObject.Holds (id : String) : SceneObject V → Prop
  | self {object : SceneObject V} (h : object.animatorFrameId = some id) : Holds id object
  | inside {object child : SceneObject V} (hchild : child ∈ object.children) (h : Holds id child) :
      Holds id object

/-- No id of the supply is in the object. -/
def SceneObject.Unused (random : Nat → String) (object : SceneObject V) : Prop :=
  ∀ n, ¬ object.Holds (createId (random n))

/-- The ids of the children in order. -/
def AnimatorGroup.childIds (group : AnimatorGroup V) : List String :=
  group.children.filterMap SceneObject.animatorFrameId

/-- The frames of the metadata are those of the children. -/
structure InStep (random : Nat → String) (e : AnimatorEditor V) (config : AnimatorConfig) :
    Prop where
  animator : e.group.animator = some config
  distinct : config.frames.Nodup
  carried : e.group.childIds.Perm config.frames
  created : ∀ id ∈ config.frames, ∃ n < e.created, id = createId (random n)
  stopped : ∀ id, config.stoppedFrameId = some id → id ∈ config.frames
  unused : ∀ child ∈ e.group.children, ∀ object ∈ child.children, object.Unused random

/-- What is drawn into the group is not a frame. -/
def AnimatorEdit.Plain (random : Nat → String) : AnimatorEdit V → Prop
  | .draw _ object => object.animatorFrameId = none ∧ object.Unused random
  | _ => True

/-! ## Lists -/

section
variable {α β : Type} {p : α → Bool} {f : α → α}

theorem map_updateFirst {g : α → β} (hf : ∀ a, g (f a) = g a) (l : List α) :
    (updateFirst p f l).map g = l.map g := by
  induction l with
  | nil => rfl
  | cons a l ih =>
    unfold updateFirst
    split
    · rw [List.map_cons, List.map_cons, hf]
    · rw [List.map_cons, List.map_cons, ih]

theorem mem_updateFirst {l : List α} {b : α} (h : b ∈ updateFirst p f l) :
    b ∈ l ∨ ∃ a ∈ l, p a = true ∧ b = f a := by
  induction l with
  | nil => cases h
  | cons a l ih =>
    unfold updateFirst at h
    split at h
    · rename_i hp
      rcases List.mem_cons.1 h with rfl | h
      · exact .inr ⟨a, List.mem_cons_self, hp, rfl⟩
      · exact .inl (List.mem_cons_of_mem _ h)
    · rcases List.mem_cons.1 h with rfl | h
      · exact .inl List.mem_cons_self
      · rcases ih h with hl | ⟨x, hx, hp, rfl⟩
        · exact .inl (List.mem_cons_of_mem _ hl)
        · exact .inr ⟨x, List.mem_cons_of_mem _ hx, hp, rfl⟩

theorem find_updateFirst {q : α → Bool} (hf : ∀ a, q (f a) = q a)
    (hpq : ∀ a, p a = true → q a = false) (l : List α) :
    (updateFirst p f l).find? q = l.find? q := by
  induction l with
  | nil => rfl
  | cons a l ih =>
    unfold updateFirst
    split
    · rename_i hp
      rw [List.find?_cons, List.find?_cons, hf, hpq a hp]
    · rw [List.find?_cons, List.find?_cons, ih]

theorem filter_updateFirst {q : α → Bool} (hp : ∀ a, p a = true → q a = false)
    (hf : ∀ a, q (f a) = q a) (l : List α) : (updateFirst p f l).filter q = l.filter q := by
  induction l with
  | nil => rfl
  | cons a l ih =>
    unfold updateFirst
    split
    · rename_i ha
      simp [hf, hp a ha]
    · rw [List.filter_cons, List.filter_cons, ih]

/-- What a change of the first element does to what the elements stand for. -/
theorem flatMap_updateFirst {g : α → List β} {l : List α} {a : α} (h : l.find? p = some a) :
    ((updateFirst p f l).flatMap g ++ g a).Perm (l.flatMap g ++ g (f a)) := by
  induction l with
  | nil => cases h
  | cons b l ih =>
    unfold updateFirst
    rw [List.find?_cons] at h
    split at h
    · rename_i hp
      obtain rfl := Option.some.inj h
      rw [if_pos hp, List.flatMap_cons, List.flatMap_cons]
      have hswap : (g (f b) ++ l.flatMap g).Perm (l.flatMap g ++ g (f b)) := List.perm_append_comm
      have hwhole : ((g (f b) ++ l.flatMap g) ++ g b).Perm (g b ++ (l.flatMap g ++ g (f b))) :=
        List.perm_append_comm.trans (hswap.append_left _)
      rwa [← List.append_assoc] at hwhole
    · rename_i hp
      rw [if_neg (by simp [hp]), List.flatMap_cons, List.flatMap_cons, List.append_assoc,
        List.append_assoc]
      exact (ih h).append_left _

/-- What is taken from one place and put into another is still there. -/
theorem perm_of_moved {whole emptied filled source target kept moved : List α}
    (hemptied : (emptied ++ source).Perm (whole ++ kept))
    (hfilled : (filled ++ target).Perm (emptied ++ (target ++ moved)))
    (hsource : (kept ++ moved).Perm source) : filled.Perm whole := by
  rw [← Multiset.coe_eq_coe] at hemptied hfilled hsource ⊢
  simp only [← Multiset.coe_add] at hemptied hfilled hsource
  have hmoved : (filled : Multiset α) = ↑emptied + ↑moved := by
    refine add_right_cancel (b := (target : Multiset α)) (hfilled.trans ?_)
    rw [add_assoc, add_comm (target : Multiset α)]
  have hkept : (emptied : Multiset α) + ↑moved = ↑whole := by
    refine add_right_cancel (b := (kept : Multiset α)) (Eq.trans ?_ hemptied)
    rw [add_assoc, add_comm (moved : Multiset α), hsource]
  exact hmoved.trans hkept

/-- The chosen elements and the others are the elements. -/
theorem pick_perm (chosen : Nat → Bool) (objects : List α) :
    (AnimatorGroup.pick (fun i => !chosen i) objects ++ AnimatorGroup.pick chosen objects).Perm
      objects := by
  unfold AnimatorGroup.pick
  rw [← List.map_append]
  have hperm := (List.filter_append_perm (fun object : α × Nat => chosen object.2)
    objects.zipIdx).map Prod.fst
  have hall : objects.zipIdx.map Prod.fst = objects := List.zipIdx_map_fst 0 objects
  rw [hall] at hperm
  refine (List.Perm.map _ List.perm_append_comm).trans hperm

end

/-! ## One edit -/

section
variable {random : Nat → String}

theorem createId_ne (s : String) : createId s ≠ "" := by
  intro h
  have hlength := congrArg String.length h
  simp [createId] at hlength

/-- An object without an id is unused where what is in it is. -/
theorem unused_of_none {object : SceneObject V} (hnone : object.animatorFrameId = none)
    (h : ∀ child ∈ object.children, child.Unused random) : object.Unused random := by
  intro n hholds
  cases hholds with
  | self hid =>
    rw [hnone] at hid
    cases hid
  | inside hchild hid => exact h _ hchild n hid

theorem mem_childIds {group : AnimatorGroup V} {id : String} :
    id ∈ group.childIds ↔ ∃ child ∈ group.children, child.animatorFrameId = some id :=
  List.mem_filterMap

theorem childIds_of_map {group group' : AnimatorGroup V}
    (h : group'.children.map SceneObject.animatorFrameId
      = group.children.map SceneObject.animatorFrameId) : group'.childIds = group.childIds := by
  have hids : ∀ g : AnimatorGroup V, g.childIds
      = (g.children.map SceneObject.animatorFrameId).filterMap fun id => id := by
    intro g
    rw [List.filterMap_map]
    rfl
  rw [hids, hids, h]

namespace InStep

variable {e : AnimatorEditor V} {config : AnimatorConfig}

/-- Every id of a child is one of the supply. -/
theorem frame_of_child (h : InStep random e config) {child : SceneObject V} {id : String}
    (hchild : child ∈ e.group.children) (hid : child.animatorFrameId = some id) :
    id ∈ config.frames := h.carried.mem_iff.1 (mem_childIds.2 ⟨child, hchild, hid⟩)

theorem hasFrame_iff (h : InStep random e config) {child : SceneObject V}
    (hchild : child ∈ e.group.children) :
    child.hasFrame = true ↔ child.animatorFrameId.isSome = true := by
  unfold SceneObject.hasFrame
  cases hid : child.animatorFrameId with
  | none => simp
  | some id =>
    obtain ⟨n, -, rfl⟩ := h.created id (h.frame_of_child hchild hid)
    simp [createId_ne]

/-- A new id is not one of the frames. -/
theorem new_not_mem (h : InStep random e config) (hfresh : Function.Injective random) :
    createId (random e.created) ∉ config.frames := by
  intro hmem
  obtain ⟨n, hn, hid⟩ := h.created _ hmem
  have hsame := hfresh (String.append_right_inj "frame_" |>.1 hid)
  omega

/-- Children with the ids of before keep the agreement. -/
theorem of_children (h : InStep random e config) {children : List (SceneObject V)}
    (hids : children.map SceneObject.animatorFrameId
      = e.group.children.map SceneObject.animatorFrameId)
    (hunused : ∀ child ∈ children, ∀ object ∈ child.children, object.Unused random) :
    InStep random { e with group := { e.group with children := children } } config := by
  refine ⟨h.animator, h.distinct, ?_, h.created, h.stopped, hunused⟩
  have hsame : AnimatorGroup.childIds { e.group with children := children } = e.group.childIds :=
    childIds_of_map hids
  show (AnimatorGroup.childIds { e.group with children := children }).Perm config.frames
  rw [hsame]
  exact h.carried

section
variable [Zero V]

theorem prepareFrameGroups (h : InStep random e config) :
    InStep random { e with group := e.group.prepareFrameGroups } config := by
  refine h.of_children ?_ ?_
  · rw [List.map_map]
    refine List.map_congr_left fun child hchild => ?_
    rw [Function.comp_apply]
    split
    · rfl
    · rfl
  · intro child hchild object hobject
    obtain ⟨old, hold, rfl⟩ := List.mem_map.1 hchild
    split at hobject
    · exact h.unused old hold object hobject
    · obtain rfl := List.mem_singleton.1 hobject
      exact unused_of_none rfl (h.unused old hold)

theorem addFrame (h : InStep random e config) (hfresh : Function.Injective random) :
    ∃ config', InStep random
      { group := e.group.addFrame (createId (random e.created)), created := e.created + 1 }
      config' := by
  have hprepared := h.prepareFrameGroups
  have hnew := h.new_not_mem hfresh
  have hanimator : e.group.prepareFrameGroups.animator = some config := hprepared.animator
  refine ⟨{ config with frames := config.frames ++ [createId (random e.created)] }, ?_⟩
  unfold AnimatorGroup.addFrame
  dsimp only
  rw [hanimator]
  refine ⟨rfl, ?_, ?_, ?_, ?_, ?_⟩
  · refine List.nodup_append.2 ⟨h.distinct, by simp, fun a ha b hb => ?_⟩
    rintro rfl
    rw [List.mem_singleton.1 hb] at ha
    exact hnew ha
  · have hcarried := hprepared.carried
    unfold AnimatorGroup.childIds at hcarried ⊢
    rw [List.filterMap_append]
    exact hcarried.append_right _
  · intro id hid
    rcases List.mem_append.1 hid with hold | hnew
    · obtain ⟨n, hn, rfl⟩ := h.created id hold
      exact ⟨n, Nat.lt_succ_of_lt hn, rfl⟩
    · exact ⟨e.created, Nat.lt_succ_self _, List.mem_singleton.1 hnew⟩
  · intro id hid
    exact List.mem_append_left _ (h.stopped id hid)
  · intro child hchild object hobject
    rcases List.mem_append.1 hchild with hold | hnew
    · exact hprepared.unused child hold object hobject
    · obtain rfl := List.mem_singleton.1 hnew
      cases hobject

end

theorem removeFrame (h : InStep random e config) (id : String) :
    InStep random { e with group := e.group.removeFrame id } (config.remove id) := by
  have hmem : ∀ x, x ∈ (config.remove id).frames ↔ x ∈ config.frames ∧ x ≠ id := by
    intro x
    unfold AnimatorConfig.remove
    rw [List.mem_filter, bne_iff_ne]
  unfold AnimatorGroup.removeFrame
  rw [h.animator]
  refine ⟨rfl, h.distinct.filter _, ?_, fun x hx => h.created x ((hmem x).1 hx).1, ?_, ?_⟩
  · have hkept : AnimatorGroup.childIds { e.group with
        animator := some (config.remove id)
        children := e.group.children.filter fun object => !AnimatorGroup.carries id object }
        = e.group.childIds.filter (· != id) := by
      unfold AnimatorGroup.childIds
      rw [List.filter_filterMap, List.filterMap_filter]
      refine List.filterMap_congr fun child _ => ?_
      unfold AnimatorGroup.carries
      cases hchild : child.animatorFrameId with
      | none => rfl
      | some x =>
        by_cases hx : x = id
        · simp [hx, Option.filter]
        · simp [hx, Option.filter]
    rw [hkept]
    exact h.carried.filter _
  · intro x hx
    unfold AnimatorConfig.remove at hx
    dsimp only at hx
    split at hx
    · -- the first of the frames that are left
      refine List.mem_of_mem_head? ?_
      exact (Option.filter_eq_some_iff.1 hx).1
    · rename_i hother
      refine (hmem x).2 ⟨h.stopped x hx, ?_⟩
      rintro rfl
      exact hother hx
  · intro child hchild
    exact h.unused child (List.mem_filter.1 hchild).1

theorem move (h : InStep random e config) (id : String) (delta : Int) :
    InStep random { e with group := { e.group with
      animator := e.group.animator.map fun config => config.move id delta } }
      (config.move id delta) := by
  have hperm : (config.move id delta).frames.Perm config.frames ∧
      (config.move id delta).stoppedFrameId = config.stoppedFrameId := by
    unfold AnimatorConfig.move
    cases hindex : config.frames.findIdx? (· == id) with
    | none => exact ⟨.refl _, rfl⟩
    | some index =>
      dsimp only
      split
      · exact ⟨.refl _, rfl⟩
      · rename_i hnext
        push Not at hnext
        obtain ⟨hlt, hid, -⟩ := List.findIdx?_eq_some_iff_getElem.1 hindex
        have hlength : (config.frames.eraseIdx index).length = config.frames.length - 1 :=
          List.length_eraseIdx_of_lt hlt
        refine ⟨(List.perm_insertIdx id _ (by omega)).trans ?_, rfl⟩
        have herased := List.getElem_cons_eraseIdx_perm hlt
        rw [beq_iff_eq.1 hid] at herased
        exact herased
  obtain ⟨hframes, hstopped⟩ := hperm
  refine ⟨?_, hframes.nodup_iff.2 h.distinct, h.carried.trans hframes.symm,
    fun x hx => h.created x (hframes.mem_iff.1 hx), fun x hx => ?_, h.unused⟩
  · show e.group.animator.map _ = _
    rw [h.animator]
    rfl
  · rw [hstopped] at hx
    exact hframes.mem_iff.2 (h.stopped x hx)

theorem duplicateFrame (h : InStep random e config) (hfresh : Function.Injective random)
    {id : String} {group : AnimatorGroup V}
    (hgroup : e.group.duplicateFrame id (createId (random e.created)) = some group) :
    ∃ config', InStep random { group := group, created := e.created + 1 } config' := by
  have hnew := h.new_not_mem hfresh
  unfold AnimatorGroup.duplicateFrame at hgroup
  rw [h.animator] at hgroup
  simp only [Option.bind_eq_bind, Option.bind_eq_some_iff, Option.some.injEq,
    exists_eq_left', AnimatorConfig.duplicate, Option.map_eq_some_iff] at hgroup
  obtain ⟨index, hindex, object, hobject, config', ⟨place, hplace, rfl⟩, rfl⟩ := hgroup
  obtain ⟨hlt, -, -⟩ := List.findIdx?_eq_some_iff_getElem.1 hplace
  obtain ⟨hindexlt, hget⟩ := List.getElem?_eq_some_iff.1 hobject
  have hframes := List.perm_insertIdx (createId (random e.created)) config.frames
    (i := place + 1) (by omega)
  have hchildren := List.perm_insertIdx
    { object with animatorFrameId := some (createId (random e.created)) } e.group.children
    (i := index + 1) (by omega)
  refine ⟨_, rfl, hframes.nodup_iff.2 (List.nodup_cons.2 ⟨hnew, h.distinct⟩), ?_, fun x hx => ?_,
    fun x hx => hframes.mem_iff.2 (List.mem_cons_of_mem _ (h.stopped x hx)),
    fun child hchild => ?_⟩
  · refine (hchildren.filterMap _).trans (List.Perm.trans ?_ hframes.symm)
    exact h.carried.cons _
  · rcases List.mem_cons.1 (hframes.mem_iff.1 hx) with rfl | hold
    · exact ⟨e.created, Nat.lt_succ_self _, rfl⟩
    · obtain ⟨n, hn, rfl⟩ := h.created x hold
      exact ⟨n, Nat.lt_succ_of_lt hn, rfl⟩
  · rcases List.mem_cons.1 (hchildren.mem_iff.1 hchild) with rfl | hold
    · exact h.unused object (hget ▸ List.getElem_mem hindexlt)
    · exact h.unused child hold

/-- A change of what is in a child keeps the agreement. -/
theorem update (h : InStep random e config) {p : SceneObject V → Bool}
    {f : SceneObject V → SceneObject V}
    (hf : ∀ child, (f child).animatorFrameId = child.animatorFrameId)
    (hunused : ∀ child ∈ e.group.children, ∀ object ∈ (f child).children,
      object.Unused random) :
    InStep random
      { e with group := { e.group with children := updateFirst p f e.group.children } } config := by
  refine h.of_children (map_updateFirst hf _) fun child hchild => ?_
  rcases mem_updateFirst hchild with hold | ⟨old, hold, -, rfl⟩
  · exact h.unused child hold
  · exact hunused old hold

theorem mem_pick {α : Type} {chosen : Nat → Bool} {objects : List α} {a : α}
    (h : a ∈ AnimatorGroup.pick chosen objects) : a ∈ objects := by
  unfold AnimatorGroup.pick at h
  obtain ⟨x, hx, rfl⟩ := List.mem_map.1 h
  exact List.fst_mem_of_mem_zipIdx (List.mem_filter.1 hx).1

theorem transfer (h : InStep random e config) {sourceId targetId : String} {chosen : Nat → Bool}
    {group : AnimatorGroup V} {moving : List (SceneObject V)}
    (hgroup : e.group.transfer sourceId targetId chosen = .ok (group, moving)) :
    InStep random { e with group := group } config := by
  unfold AnimatorGroup.transfer at hgroup
  cases hsource : e.group.frameObject sourceId with
  | none =>
    rw [hsource] at hgroup
    cases hgroup
    exact h
  | some source =>
    cases htarget : e.group.frameObject targetId with
    | none =>
      rw [hsource, htarget] at hgroup
      cases hgroup
      exact h
    | some target =>
      rw [hsource, htarget] at hgroup
      dsimp only at hgroup
      split at hgroup
      · cases hgroup
        exact h
      split at hgroup
      · cases hgroup
      · cases hgroup
        have hmem : source ∈ e.group.children := List.mem_of_find?_eq_some hsource
        have hemptied := h.update (p := AnimatorGroup.carries sourceId)
          (f := fun source => { source with
            children := AnimatorGroup.pick (fun i => !chosen i) source.children })
          (fun _ => rfl) fun child hchild object hobject => by
            have hkept : object ∈ AnimatorGroup.pick (fun i => !chosen i) child.children := hobject
            exact h.unused child hchild object (mem_pick hkept)
        refine hemptied.update (fun _ => rfl) fun child hchild object hobject => ?_
        rcases List.mem_append.1 hobject with hold | hmoved
        · exact hemptied.unused child hchild object hold
        · exact h.unused source hmem object (mem_pick hmoved)

theorem none_of_plain (h : InStep random e config) {child : SceneObject V}
    (hchild : child ∈ e.group.children) (hplain : child.hasFrame = false) :
    child.animatorFrameId = none := by
  rw [← Option.not_isSome_iff_eq_none, ← h.hasFrame_iff hchild, hplain]
  decide

/-- A child that is not a frame is a drawing. -/
theorem unused_of_plain (h : InStep random e config) {child : SceneObject V}
    (hchild : child ∈ e.group.children) (hplain : child.hasFrame = false) :
    child.Unused random :=
  unused_of_none (h.none_of_plain hchild hplain) (h.unused child hchild)

theorem adoptUnassigned (h : InStep random e config) (id : String) :
    InStep random { e with group := (e.group.adoptUnassigned id).1 } config := by
  unfold AnimatorGroup.adoptUnassigned
  cases htarget : e.group.frameObject id with
  | none => exact h
  | some target =>
    dsimp only
    split
    · exact h
    · have hadopted := h.update (p := AnimatorGroup.carries id)
        (f := fun target => { target with
          children := target.children ++ e.group.children.filter (!·.hasFrame) })
        (fun _ => rfl) fun child hchild object hobject => by
          rcases List.mem_append.1 hobject with hold | hnew
          · exact h.unused child hchild object hold
          · obtain ⟨hmem, hplain⟩ := List.mem_filter.1 hnew
            exact h.unused_of_plain hmem (by simpa using hplain)
      refine ⟨hadopted.animator, hadopted.distinct, ?_, hadopted.created, hadopted.stopped,
        fun child hchild => hadopted.unused child (List.mem_filter.1 hchild).1⟩
      have hkept := hadopted.carried
      unfold AnimatorGroup.childIds at hkept ⊢
      dsimp only at hkept ⊢
      rw [List.filterMap_filter]
      rw [List.filterMap_congr (g := SceneObject.animatorFrameId) fun child hchild => ?_]
      · exact hkept
      · have hframe := hadopted.hasFrame_iff hchild
        split
        · rfl
        · rename_i hno
          rw [hframe, Option.not_isSome_iff_eq_none] at hno
          exact hno.symm

theorem draw (h : InStep random e config) {object : SceneObject V}
    (hnone : object.animatorFrameId = none) (hobject : object.Unused random) :
    InStep random { e with group := { e.group with children := e.group.children ++ [object] } }
      config := by
  refine ⟨h.animator, h.distinct, ?_, h.created, h.stopped, fun child hchild inner hinner => ?_⟩
  · have hcarried := h.carried
    unfold AnimatorGroup.childIds at hcarried ⊢
    rw [List.filterMap_append, List.filterMap_cons, hnone, List.filterMap_nil, List.append_nil]
    exact hcarried
  · rcases List.mem_append.1 hchild with hold | hnew
    · exact h.unused child hold inner hinner
    · obtain rfl := List.mem_singleton.1 hnew
      exact fun n hid => hobject n (.inside hinner hid)

/-- **One edit** keeps the frames and the children in step. -/
theorem edit [Zero V] (h : InStep random e config) (hfresh : Function.Injective random)
    {op : AnimatorEdit V} (hop : op.Plain random) :
    ∃ config', InStep random (e.edit random op) config' := by
  cases op with
  | addFrame => exact h.addFrame hfresh
  | duplicateFrame id =>
    unfold AnimatorEditor.edit
    dsimp only
    cases hgroup : e.group.duplicateFrame id (createId (random e.created)) with
    | none => exact ⟨config, h⟩
    | some group => exact h.duplicateFrame hfresh hgroup
  | removeFrame id => exact ⟨_, h.removeFrame id⟩
  | move id delta => exact ⟨_, h.move id delta⟩
  | prepareFrameGroups => exact ⟨_, h.prepareFrameGroups⟩
  | transfer sourceId targetId chosen =>
    unfold AnimatorEditor.edit
    dsimp only
    cases hgroup : e.group.transfer sourceId targetId chosen with
    | error message => exact ⟨config, h⟩
    | ok result => exact ⟨config, h.transfer hgroup⟩
  | adoptUnassigned id => exact ⟨config, h.adoptUnassigned id⟩
  | draw frame object =>
    cases frame with
    | none => exact ⟨config, h.draw hop.1 hop.2⟩
    | some id =>
      refine ⟨config, h.update (fun _ => rfl) fun child hchild inner hinner => ?_⟩
      rcases List.mem_append.1 hinner with hold | hnew
      · exact h.unused child hchild inner hold
      · obtain rfl := List.mem_singleton.1 hnew
        exact hop.2

end InStep

/-! ## Drawings -/

/-- What a child shows: what is in the group of a frame, or itself. -/
def SceneObject.drawn (child : SceneObject V) : List (SceneObject V) :=
  if child.hasFrame && child.animatorFrameContainer then child.children
  else [{ child with animatorFrameId := none }]

/-- The objects that the group shows, without the groups of frames. -/
def AnimatorGroup.drawings (group : AnimatorGroup V) : List (SceneObject V) :=
  group.children.flatMap SceneObject.drawn

theorem drawn_container {child : SceneObject V} (hframe : child.hasFrame = true)
    (hcontainer : child.animatorFrameContainer = true) : child.drawn = child.children := by
  unfold SceneObject.drawn
  rw [hframe, hcontainer]
  rfl

theorem drawn_of_none {child : SceneObject V} (hnone : child.animatorFrameId = none) :
    child.drawn = [child] := by
  cases child
  dsimp only at hnone
  subst hnone
  rfl

/-- What a change in the group of a frame does to the drawings. -/
theorem drawings_update {group : AnimatorGroup V} {id : String} {child : SceneObject V}
    (hfind : group.frameObject id = some child) (hframe : child.hasFrame = true)
    (hcontainer : child.animatorFrameContainer = true)
    (f : SceneObject V → List (SceneObject V)) :
    (AnimatorGroup.drawings { group with
        children := updateFirst (AnimatorGroup.carries id)
          (fun child => { child with children := f child }) group.children } ++
      child.children).Perm (group.drawings ++ f child) := by
  have hupdate := flatMap_updateFirst (f := fun child => { child with children := f child })
    (g := SceneObject.drawn) hfind
  have hnew : SceneObject.drawn { child with children := f child } = f child :=
    drawn_container hframe hcontainer
  rw [drawn_container hframe hcontainer, hnew] at hupdate
  exact hupdate

namespace InStep

variable {e : AnimatorEditor V} {config : AnimatorConfig}

theorem hasFrame_of_found (h : InStep random e config) {id : String} {child : SceneObject V}
    (hfind : e.group.frameObject id = some child) : child.hasFrame = true := by
  rw [h.hasFrame_iff (List.mem_of_find?_eq_some hfind)]
  have hid : AnimatorGroup.carries id child = true := List.find?_some hfind
  unfold AnimatorGroup.carries at hid
  rw [beq_iff_eq.1 hid]
  rfl

theorem drawings_transfer (h : InStep random e config) {sourceId targetId : String}
    {chosen : Nat → Bool} {group : AnimatorGroup V} {moving : List (SceneObject V)}
    (hgroup : e.group.transfer sourceId targetId chosen = .ok (group, moving)) :
    group.drawings.Perm e.group.drawings := by
  unfold AnimatorGroup.transfer at hgroup
  cases hsource : e.group.frameObject sourceId with
  | none =>
    rw [hsource] at hgroup
    cases hgroup
    exact .refl _
  | some source =>
    cases htarget : e.group.frameObject targetId with
    | none =>
      rw [hsource, htarget] at hgroup
      cases hgroup
      exact .refl _
    | some target =>
      rw [hsource, htarget] at hgroup
      dsimp only at hgroup
      split at hgroup
      · cases hgroup
        exact .refl _
      rename_i hkind
      split at hgroup
      · cases hgroup
      cases hgroup
      simp only [Bool.or_eq_true, Bool.not_eq_true', not_or, Bool.not_eq_false, beq_iff_eq]
        at hkind
      obtain ⟨⟨hsourceContainer, htargetContainer⟩, hne⟩ := hkind
      have hemptied := drawings_update hsource (h.hasFrame_of_found hsource) hsourceContainer
        fun source => AnimatorGroup.pick (fun i => !chosen i) source.children
      -- the target is another object, so that it is still the same
      have hfind : AnimatorGroup.frameObject { e.group with
          children := updateFirst (AnimatorGroup.carries sourceId)
            (fun source => { source with
              children := AnimatorGroup.pick (fun i => !chosen i) source.children })
            e.group.children } targetId = some target := by
        rw [← htarget]
        refine find_updateFirst (p := AnimatorGroup.carries sourceId)
          (q := AnimatorGroup.carries targetId)
          (f := fun source => { source with
            children := AnimatorGroup.pick (fun i => !chosen i) source.children })
          (fun _ => rfl) (fun child hchild => ?_) _
        unfold AnimatorGroup.carries at hchild ⊢
        rw [beq_iff_eq.1 hchild, beq_eq_false_iff_ne]
        exact fun hsame => hne (Option.some.inj hsame)
      have hfilled := drawings_update hfind (h.hasFrame_of_found htarget) htargetContainer
        fun target => target.children ++ AnimatorGroup.pick chosen source.children
      exact perm_of_moved hemptied hfilled (pick_perm chosen source.children)

theorem drawings_adopt (h : InStep random e config) (id : String) :
    (e.group.adoptUnassigned id).1.drawings.Perm e.group.drawings := by
  unfold AnimatorGroup.adoptUnassigned
  cases hfind : e.group.frameObject id with
  | none => exact .refl _
  | some target =>
    dsimp only
    split
    · exact .refl _
    rename_i hcontainer
    rw [Bool.not_eq_true', Bool.not_eq_false] at hcontainer
    have hframe := h.hasFrame_of_found hfind
    have hfilled := drawings_update hfind hframe hcontainer
      fun target => target.children ++ e.group.children.filter (!·.hasFrame)
    have hcarried : ∀ child : SceneObject V, AnimatorGroup.carries id child = true →
        child.hasFrame = true := by
      intro child hchild
      have htarget : AnimatorGroup.carries id target = true := List.find?_some hfind
      unfold AnimatorGroup.carries at hchild htarget
      unfold SceneObject.hasFrame at hframe ⊢
      rw [beq_iff_eq] at hchild htarget
      rw [hchild, ← htarget]
      exact hframe
    have hplain : (e.group.children.filter (!·.hasFrame)).flatMap SceneObject.drawn
        = e.group.children.filter (!·.hasFrame) := by
      conv_rhs => rw [← List.flatMap_singleton' (e.group.children.filter (!·.hasFrame))]
      refine List.flatMap_congr fun child hchild => ?_
      obtain ⟨hmem, hno⟩ := List.mem_filter.1 hchild
      exact drawn_of_none (h.none_of_plain hmem (by simpa using hno))
    have hothers := filter_updateFirst (p := AnimatorGroup.carries id)
      (q := fun child : SceneObject V => !child.hasFrame)
      (f := fun target => { target with
        children := target.children ++ e.group.children.filter (!·.hasFrame) })
      (fun child hchild => by rw [hcarried child hchild]; rfl) (fun _ => rfl) e.group.children
    have hsplit := (List.filter_append_perm (fun child : SceneObject V => child.hasFrame)
      (updateFirst (AnimatorGroup.carries id) (fun target => { target with
        children := target.children ++ e.group.children.filter (!·.hasFrame) })
        e.group.children)).flatMap_right SceneObject.drawn
    rw [hothers, List.flatMap_append, hplain] at hsplit
    refine (List.perm_append_right_iff
      (e.group.children.filter (!·.hasFrame) ++ target.children)).1 ?_
    rw [← List.append_assoc]
    exact (hsplit.append_right _).trans (hfilled.trans (List.perm_append_comm.append_left _))

end InStep

theorem drawings_prepare [Zero V] (group : AnimatorGroup V) :
    group.prepareFrameGroups.drawings = group.drawings := by
  unfold AnimatorGroup.drawings AnimatorGroup.prepareFrameGroups
  rw [List.flatMap_map]
  refine List.flatMap_congr fun child _ => ?_
  split
  · rfl
  · rename_i hkind
    simp only [Bool.or_eq_true, Bool.not_eq_true', not_or, Bool.not_eq_false,
      Bool.not_eq_true] at hkind
    have hold : child.drawn = [{ child with animatorFrameId := none }] := by
      unfold SceneObject.drawn
      rw [hkind.2, Bool.and_false]
      rfl
    rw [hold]
    exact drawn_container hkind.1 rfl

/-- The edits that only move drawings. -/
def AnimatorEdit.Moves : AnimatorEdit V → Prop
  | .transfer _ _ _ => True
  | .adoptUnassigned _ => True
  | .move _ _ => True
  | .prepareFrameGroups => True
  | _ => False

/-- They lose and copy none. -/
theorem InStep.drawings_edit [Zero V] {e : AnimatorEditor V} {config : AnimatorConfig}
    (h : InStep random e config) {op : AnimatorEdit V} (hop : op.Moves) :
    (e.edit random op).group.drawings.Perm e.group.drawings := by
  cases op with
  | addFrame => cases hop
  | duplicateFrame id => cases hop
  | removeFrame id => cases hop
  | move id delta => exact .refl _
  | prepareFrameGroups =>
    show e.group.prepareFrameGroups.drawings.Perm _
    rw [drawings_prepare]
  | transfer sourceId targetId chosen =>
    unfold AnimatorEditor.edit
    dsimp only
    cases hgroup : e.group.transfer sourceId targetId chosen with
    | error message => exact .refl _
    | ok result => exact h.drawings_transfer hgroup
  | adoptUnassigned id => exact h.drawings_adopt id
  | draw frame object => cases hop

/-! ## Runs -/

theorem childIds_attach {children : List (SceneObject V)} {ids : List String}
    (hlength : children.length = ids.length) :
    (List.zipWith (fun object id => { object with animatorFrameId := some id })
      children ids).filterMap SceneObject.animatorFrameId = ids := by
  induction children generalizing ids with
  | nil =>
    cases ids with
    | nil => rfl
    | cons => cases hlength
  | cons child children ih =>
    cases ids with
    | nil => cases hlength
    | cons id ids =>
      rw [List.zipWith_cons_cons, List.filterMap_cons]
      dsimp only
      rw [ih (Nat.succ.inj hlength)]

theorem mem_attach {children : List (SceneObject V)} {ids : List String} {child : SceneObject V}
    (h : child ∈ List.zipWith (fun object id => { object with animatorFrameId := some id })
      children ids) : ∃ old ∈ children, child.children = old.children := by
  induction children generalizing ids with
  | nil => cases h
  | cons old children ih =>
    cases ids with
    | nil => cases h
    | cons id ids =>
      rcases List.mem_cons.1 h with rfl | h
      · exact ⟨old, List.mem_cons_self, rfl⟩
      · obtain ⟨other, hother, hsame⟩ := ih h
        exact ⟨other, List.mem_cons_of_mem _ hother, hsame⟩

theorem firstFrame_mem {frames : List String} {id : String} (h : firstFrame frames = some id) :
    id ∈ frames := List.mem_of_mem_head? (Option.filter_eq_some_iff.1 h).1

theorem inStep_attached (hfresh : Function.Injective random) {group : AnimatorGroup V}
    (hgroup : ∀ child ∈ group.children, ∀ object ∈ child.children, object.Unused random) :
    ∃ config, InStep random (attached random group) config := by
  refine ⟨_, rfl, ?_, ?_, fun id hid => ?_, fun id hid => firstFrame_mem hid,
    fun child hchild object hobject => ?_⟩
  · refine List.Nodup.map (fun m n hmn => hfresh ?_) List.nodup_range
    exact String.append_right_inj "frame_" |>.1 hmn
  · exact .of_eq (childIds_attach (by simp))
  · obtain ⟨n, hn, rfl⟩ := List.mem_map.1 hid
    exact ⟨n, List.mem_range.1 hn, rfl⟩
  · obtain ⟨old, hold, hsame⟩ := mem_attach hchild
    rw [hsame] at hobject
    exact hgroup old hold object hobject

/-- In step after every run of edits. -/
theorem inStep_run [Zero V] (hfresh : Function.Injective random) {group : AnimatorGroup V}
    (hgroup : ∀ child ∈ group.children, ∀ object ∈ child.children, object.Unused random)
    {edits : List (AnimatorEdit V)} (hedits : ∀ op ∈ edits, op.Plain random) :
    ∃ config, InStep random (run (AnimatorEditor.edit random) (attached random group) edits)
      config := by
  have halong : Along (AnimatorEditor.edit random) (fun _ op => op.Plain random)
      (attached random group) edits := along_of_forall hedits
  refine run_invariant (I := fun e => ∃ config, InStep random e config) ?_
    (inStep_attached hfresh hgroup) halong
  intro e op h hop
  obtain ⟨config, hstep⟩ := h
  exact hstep.edit hfresh hop

/-- Exactly one child carries the id of a frame. -/
theorem InStep.carriers {e : AnimatorEditor V} {config : AnimatorConfig}
    (h : InStep random e config) {id : String} (hid : id ∈ config.frames) :
    (e.group.children.filter (AnimatorGroup.carries id)).length = 1 := by
  have hcount : e.group.childIds.count id = 1 := by
    rw [h.carried.count_eq]
    exact List.count_eq_one_of_mem h.distinct hid
  rw [← hcount, ← List.countP_eq_length_filter]
  unfold AnimatorGroup.childIds List.count
  rw [List.countP_filterMap]
  refine List.countP_congr fun child _ => ?_
  unfold AnimatorGroup.carries
  cases child.animatorFrameId with
  | none => simp
  | some x => simp

/-- **Frames and children stay in step** over every run of edits after `attach`, the edits that move
drawings lose and copy none, and `detach` leaves no id of a frame behind. -/
theorem animator_in_step [Zero V] (random : Nat → String) (hfresh : Function.Injective random)
    (group : AnimatorGroup V)
    (hgroup : ∀ child ∈ group.children, ∀ object ∈ child.children, object.Unused random)
    (edits : List (AnimatorEdit V)) (hedits : ∀ op ∈ edits, op.Plain random) :
    (∃ config, (run (AnimatorEditor.edit random) (attached random group) edits).group.animator
        = some config ∧ config.frames.Nodup ∧
      (∀ id ∈ config.frames, ((run (AnimatorEditor.edit random) (attached random group)
        edits).group.children.filter (AnimatorGroup.carries id)).length = 1) ∧
      (∀ child ∈ (run (AnimatorEditor.edit random) (attached random group)
        edits).group.children, ∀ id, child.animatorFrameId = some id → id ∈ config.frames) ∧
      ∀ id, config.stoppedFrameId = some id → id ∈ config.frames) ∧
    (∀ op : AnimatorEdit V, op.Moves →
      ((run (AnimatorEditor.edit random) (attached random group) edits).edit random
          op).group.drawings.Perm
        (run (AnimatorEditor.edit random) (attached random group) edits).group.drawings) ∧
    (run (AnimatorEditor.edit random) (attached random group) edits).group.detach.animator = none ∧
    ∀ child ∈ (run (AnimatorEditor.edit random) (attached random group)
        edits).group.detach.children,
      child.animatorFrameId = none ∧ ∀ n, ¬ child.Holds (createId (random n)) := by
  obtain ⟨config, h⟩ := inStep_run hfresh hgroup hedits
  refine ⟨⟨config, h.animator, h.distinct, fun id hid => h.carriers hid,
    fun child hchild id hid => h.frame_of_child hchild hid, h.stopped⟩,
    fun op hop => h.drawings_edit hop, ?_, ?_⟩
  · unfold AnimatorGroup.detach
    rw [h.animator]
  · unfold AnimatorGroup.detach
    rw [h.animator]
    intro child hchild
    obtain ⟨old, hold, rfl⟩ := List.mem_map.1 hchild
    exact ⟨rfl, unused_of_none rfl (h.unused old hold)⟩

end

end

/-- Texts of another length each. -/
def strokes (n : Nat) : String := String.ofList (List.replicate n 'a')

theorem strokes_injective : Function.Injective strokes := by
  intro m n h
  have hlength := congrArg String.length h
  simpa [strokes] using hlength

/-- A rectangle with its frame, a second frame, and an ellipse that is taken into the second. -/
def paddleEdits : List (AnimatorEdit Nat) :=
  [.addFrame, .draw none { type := "ellipse", x := 3, y := 4, w := 5, h := 6 },
    .adoptUnassigned "frame_a"]

theorem paddle_in_step :
    ((run (AnimatorEditor.edit strokes) (attached strokes
        { w := 9, h := 9, children := [{ type := "rect", x := 1, y := 2, w := 1, h := 1 }] })
        paddleEdits).edit strokes (.transfer "frame_a" "frame_" fun _ => true)).group.drawings.Perm
      (run (AnimatorEditor.edit strokes) (attached strokes
        { w := 9, h := 9, children := [{ type := "rect", x := 1, y := 2, w := 1, h := 1 }] })
        paddleEdits).group.drawings := by
  refine (animator_in_step strokes strokes_injective _ ?_ paddleEdits ?_).2.1 _ trivial
  · intro child hchild object hobject
    obtain rfl := List.mem_singleton.1 hchild
    cases hobject
  · intro op hop
    simp only [paddleEdits, List.mem_cons, List.not_mem_nil, or_false] at hop
    rcases hop with rfl | rfl | rfl
    · trivial
    · exact ⟨rfl, unused_of_none rfl fun child hchild => by cases hchild⟩
    · trivial

end OpcBridge
