import OpcBridge.Core.Doubles
import OpcBridge.Demand.Keys
import OpcBridge.Demand.Leases
import Mathlib.Data.Finset.Sort
import Mathlib.Data.String.Basic

/-!
# The demand of a viewer

`ViewerDemand` posts the tags that a browser tab shows and compares them with what the core has
acknowledged last. A post may be applied and its answer lost, so that the lease of the core is that
of the last post that was applied. `ViewerInv` holds along every run: one post is in flight at most,
the posts are applied in order, and the lease is the last applied one. Where no post is pending and
none is due, the lease is the view if and only if that post has the tags of the acknowledged one
(`viewer_lease_iff`).
-/

namespace OpcBridge

open Lib
open Alarms (Json)

/-! ## The viewer -/

/-- A row of the live view; missing members are `""`. -/
structure ViewRow where
  enabled : Bool := true
  localSession : Bool := false
  connectionId : String := ""
  name : String := ""
  tag : String := ""

def ViewRow.key (row : ViewRow) : Option String :=
  if !row.enabled || row.localSession then none
  else
    let name := if row.name = "" then row.tag else row.name
    if row.connectionId = "" ∨ row.connectionId = "_system" ∨ name = "" then none
    else some (row.connectionId ++ ":" ++ name)

/-- A post: the tags it registers, or a release where there are none. The set of the tags stands for
the sorted list without repetitions, which is one text for one set. -/
structure ViewerPost where
  number : Nat
  tags : Finset String

inductive PostPhase
  /-- Issued. -/
  | waiting
  /-- The core has applied it. -/
  | applied
  /-- The promise is settled; `finally` has not run. -/
  | settled
deriving DecidableEq

structure FlyingPost extends ViewerPost where
  phase : PostPhase := .waiting

/-- The members of `ViewerDemand`. -/
structure ViewerState where
  tags : Finset String := ∅
  /-- What `visible()` gives. -/
  visible : Bool := true
  sent : Option (Finset String) := none
  attempted : Bool := false
  nextAttempt : Nat := 0
  renewAt : Nat := 0
  pending : Bool := false
  again : Bool := false

/-- The tags that are shown. -/
def ViewerState.view (v : ViewerState) : Finset String := if v.visible then v.tags else ∅

section
variable [Floats]

def viewerOwner : String := "opcbridge-scada-viewer"

/-- The body of a post. -/
def ViewerPost.message (clientId : String) (post : ViewerPost) : Json :=
  .object ([("client_id", .string clientId), ("owner", .string viewerOwner)] ++
    if post.tags = ∅ then []
    else [("tags", .array ((post.tags.sort (· ≤ ·)).map Json.string))])

/-- The viewer, its posts and the calls of the core. -/
structure ViewerSystem where
  viewer : ViewerState := {}
  wire : List FlyingPost := []
  calls : List LeaseCall := []
  issued : Nat := 0
  /-- The posts that the core has applied, in order. -/
  applied : List ViewerPost := []
  /-- The posts whose success the viewer has seen, in order. -/
  acknowledged : List ViewerPost := []

namespace ViewerSystem

def tick (s : ViewerSystem) (force : Bool) (now : Nat) : ViewerSystem :=
  if s.viewer.pending then
    { s with viewer := { s.viewer with again := s.viewer.again || force } }
  else if !force ∧ now < s.viewer.nextAttempt then s
  else
    let tags := s.viewer.view
    if tags = ∅ ∧ !s.viewer.attempted then s
    else if s.viewer.sent = some tags ∧ (tags = ∅ ∨ now < s.viewer.renewAt) then s
    else { s with
      viewer := { s.viewer with attempted := true, nextAttempt := now + 1000, pending := true }
      wire := s.wire ++ [{ number := s.issued, tags := tags }]
      issued := s.issued + 1 }

def setTags (s : ViewerSystem) (rows : List ViewRow) (now : Nat) : ViewerSystem :=
  tick { s with viewer := { s.viewer with tags := (rows.filterMap ViewRow.key).toFinset } } true now

def release (s : ViewerSystem) (now : Nat) : ViewerSystem :=
  tick { s with viewer := { s.viewer with tags := ∅, nextAttempt := 0 } } true now

/-- A post reaches the core, which answers a message that is not well formed with an error. -/
def arrive (clientId : String) (s : ViewerSystem) (i now : Nat) : ViewerSystem :=
  match s.wire[i]? with
  | none => s
  | some post =>
    if post.phase ≠ .waiting then s
    else
      let call := LeaseCall.apply (post.message clientId) (post.tags = ∅) now
      match leaseRequest (post.message clientId) (post.tags = ∅) with
      | none => { s with calls := s.calls ++ [call] }
      | some _ => { s with
          calls := s.calls ++ [call]
          applied := s.applied ++ [post.toViewerPost]
          wire := s.wire.set i { post with phase := .applied } }

/-- `then`: the success of a post that was applied. -/
def succeed (s : ViewerSystem) (i now : Nat) : ViewerSystem :=
  match s.wire[i]? with
  | none => s
  | some post =>
    if post.phase ≠ .applied then s
    else { s with
      viewer := { s.viewer with
        sent := some post.tags
        renewAt := now + 10000
        attempted := if post.tags = ∅ then false else s.viewer.attempted }
      acknowledged := s.acknowledged ++ [post.toViewerPost]
      wire := s.wire.set i { post with phase := .settled } }

/-- `catch`: the post may have been applied. -/
def fail (s : ViewerSystem) (i : Nat) : ViewerSystem :=
  match s.wire[i]? with
  | none => s
  | some post => { s with wire := s.wire.set i { post with phase := .settled } }

/-- `finally` -/
def finish (s : ViewerSystem) (i now : Nat) : ViewerSystem :=
  match s.wire[i]? with
  | none => s
  | some post =>
    if post.phase ≠ .settled then s
    else
      let done := { s with
        viewer := { s.viewer with pending := false, again := false }
        wire := s.wire.eraseIdx i }
      if s.viewer.again then done.tick true now else done

end ViewerSystem

/-- The client and the owner of an accepted message. -/
def LeaseCall.addressee : LeaseCall → Option (String × String)
  | .apply message release _ =>
    (leaseRequest message release).map fun request => (request.client, request.owner)
  | .append _ => none

inductive ViewerEvent
  | setTags (rows : List ViewRow) (now : Nat)
  | tick (force : Bool) (now : Nat)
  | release (now : Nat)
  | visibility (visible : Bool)
  | arrive (i now : Nat)
  | succeed (i now : Nat)
  | fail (i : Nat)
  | finish (i now : Nat)
  /-- Somebody else calls the core. -/
  | other (call : LeaseCall)

def ViewerSystem.step (clientId : String) (s : ViewerSystem) : ViewerEvent → ViewerSystem
  | .setTags rows now => s.setTags rows now
  | .tick force now => s.tick force now
  | .release now => s.release now
  | .visibility visible => { s with viewer := { s.viewer with visible := visible } }
  | .arrive i now => s.arrive clientId i now
  | .succeed i now => s.succeed i now
  | .fail i => s.fail i
  | .finish i now => s.finish i now
  | .other call =>
    if call.addressee = some (clientId, viewerOwner) then s
    else { s with calls := s.calls ++ [call] }

def viewerAfter (clientId : String) (events : List ViewerEvent) : ViewerSystem :=
  run (ViewerSystem.step clientId) {} events

/-! ## The lease -/

/-- What the accepted messages of a client for an owner leave, expiry aside. -/
def leaseOf (client owner : String) (calls : List LeaseCall) : Option ConsumerScope :=
  calls.foldl (fun lease call => match call with
    | .apply message release _ =>
      match leaseRequest message release with
      | some request =>
        if (request.client, request.owner) = (client, owner) then request.scope else lease
      | none => lease
    | .append _ => lease) none

/-- The lease for exactly these tags, or none. -/
def scopeOf (tags : Finset String) : Option ConsumerScope :=
  if tags = ∅ then none else some { tags := tags }

def ViewerSystem.lease (clientId : String) (s : ViewerSystem) : Option ConsumerScope :=
  leaseOf clientId viewerOwner s.calls

/-- No post is pending and `tick(true)` issues none. -/
def ViewerSystem.Idle (s : ViewerSystem) (now : Nat) : Prop :=
  s.viewer.pending = false ∧ (s.tick true now).issued = s.issued

/-- The last post that the core has applied has the tags of the last one that was acknowledged. -/
def ViewerSystem.Confirmed (s : ViewerSystem) : Prop :=
  s.applied.getLast?.map ViewerPost.tags = s.acknowledged.getLast?.map ViewerPost.tags

theorem leaseOf_snoc (client owner : String) (calls : List LeaseCall) (call : LeaseCall) :
    leaseOf client owner (calls ++ [call]) =
      match call with
      | .apply message release _ =>
        match leaseRequest message release with
        | some request =>
          if (request.client, request.owner) = (client, owner) then request.scope
          else leaseOf client owner calls
        | none => leaseOf client owner calls
      | .append _ => leaseOf client owner calls := by
  unfold leaseOf
  rw [List.foldl_append]
  rfl

theorem leaseOf_other {client owner : String} {calls : List LeaseCall} {call : LeaseCall}
    (h : ¬ Accepts client owner calls call) :
    leaseOf client owner (calls ++ [call]) = leaseOf client owner calls := by
  rw [leaseOf_snoc]
  cases call with
  | append now => rfl
  | apply message release now =>
    dsimp only
    cases hrequest : leaseRequest message release with
    | none => rfl
    | some request =>
      refine if_neg fun heq => h ⟨_, _, _, request, rfl, hrequest, ?_⟩
      exact Prod.mk.inj heq

/-- A lease is one that the latest accepted message has registered. -/
theorem leaseOf_eq_some {client owner : String} {calls : List LeaseCall} {scope : ConsumerScope} :
    leaseOf client owner calls = some scope ↔ ∃ now, Registered calls client owner scope now := by
  induction calls using List.reverseRecOn with
  | nil => exact ⟨nofun, fun ⟨_, _, _, hlatest, _⟩ => (not_happens_nil hlatest.happens).elim⟩
  | append_singleton calls call ih =>
    by_cases h : Accepts client owner calls call
    · obtain ⟨message, release, now, request, rfl, hrequest, rfl, rfl⟩ := h
      simp [leaseOf_snoc, hrequest, registered_snoc_self hrequest]
    · simp only [leaseOf_other h, registered_snoc h, ih]

/-- **The table of the core refines the leases of its callers.** A lease in the table is that of its
client and owner; the lease of a client and owner is in the table until it expires. -/
theorem leases_refine (calls : List LeaseCall) :
    (∀ lease ∈ leasesAfter calls, leaseOf lease.client lease.owner calls = some lease.scope) ∧
    ∀ client owner scope, leaseOf client owner calls = some scope →
      ∃ made, Registered calls client owner scope made ∧
        ((∀ call ∈ calls, call.time < made + leaseTime) →
          ⟨client, owner, scope, made + leaseTime⟩ ∈ leasesAfter calls) := by
  have hinv := leasesAfter_inv calls
  refine ⟨fun lease hm => ?_, fun client owner scope h => ?_⟩
  · obtain ⟨made, hmade, -⟩ := hinv.made lease hm
    exact leaseOf_eq_some.2 ⟨made, hmade⟩
  · obtain ⟨made, hmade⟩ := leaseOf_eq_some.1 h
    exact ⟨made, hmade, hinv.kept client owner scope made hmade⟩

/-! ## Messages -/

/-- What the core takes from a post. -/
theorem leaseRequest_message {clientId : String} {post : ViewerPost} {request : LeaseRequest}
    (h : leaseRequest (post.message clientId) (post.tags = ∅) = some request) :
    (request.client, request.owner) = (clientId, viewerOwner) ∧
      request.scope = scopeOf post.tags := by
  have hclient : (post.message clientId).find "client_id" = some (.string clientId) := rfl
  have howner : (post.message clientId).find "owner" = some (.string viewerOwner) := rfl
  unfold leaseRequest at h
  rw [hclient] at h
  dsimp only at h
  split at h
  · cases h
  rw [howner] at h
  dsimp only at h
  split at h
  · cases h
  by_cases hempty : post.tags = ∅
  · rw [if_pos (by simpa using hempty)] at h
    cases h
    exact ⟨rfl, (if_pos hempty).symm⟩
  · rw [if_neg (by simpa using hempty)] at h
    obtain ⟨scope, hscope, rfl⟩ := Option.map_eq_some_iff.1 h
    refine ⟨rfl, ?_⟩
    have htags : (post.message clientId).find "tags"
        = some (.array ((post.tags.sort (· ≤ ·)).map Json.string)) := by
      unfold ViewerPost.message
      rw [if_neg hempty]
      rfl
    have hnone : (post.message clientId).find "all_tags" = none ∧
        (post.message clientId).find "patterns" = none := by
      unfold ViewerPost.message
      rw [if_neg hempty]
      exact ⟨rfl, rfl⟩
    unfold registeredScope at hscope
    rw [htags, hnone.1, hnone.2] at hscope
    simp only [Option.bind_eq_bind, Option.bind_some] at hscope
    split at hscope
    · cases hscope
    · obtain ⟨found, hfound, hscope⟩ := Option.bind_eq_some_iff.1 hscope
      cases hscope
      rw [demandTagKeys_strings, Finset.sort_toFinset] at hfound
      split at hfound
      · cases hfound
        exact (if_neg hempty).symm
      · cases hfound

/-! ## One step -/

/-- What holds of the viewer, its posts and the core along a run. -/
structure ViewerInv (clientId : String) (s : ViewerSystem) : Prop where
  single : s.wire.length ≤ 1
  pending : s.viewer.pending = false → s.wire = []
  /-- An unsettled post has been attempted. -/
  attempted : ∀ post ∈ s.wire, post.phase ≠ .settled → s.viewer.attempted = true
  numbered : ∀ post ∈ s.wire, post.number < s.issued
  order : (s.applied.map ViewerPost.number).Pairwise (· < ·)
  earlier : ∀ post ∈ s.applied, post.number < s.issued
  /-- A waiting post is later than all that were applied. -/
  waiting : ∀ post ∈ s.wire, post.phase = .waiting → ∀ old ∈ s.applied, old.number < post.number
  /-- An applied post is the last. -/
  latest : ∀ post ∈ s.wire, post.phase = .applied → s.applied.getLast? = some post.toViewerPost
  sent : s.viewer.sent = s.acknowledged.getLast?.map ViewerPost.tags
  reached : s.acknowledged ≠ [] → s.applied ≠ []
  /-- Without an attempt since, the last post is an acknowledged release. -/
  calm : s.viewer.attempted = false → s.Confirmed ∧ ∀ post ∈ s.applied.getLast?, post.tags = ∅
  lease : s.lease clientId = s.applied.getLast?.bind fun post => scopeOf post.tags

namespace ViewerInv

variable {clientId : String} {s : ViewerSystem}

theorem initial : ViewerInv clientId {} where
  single := Nat.zero_le 1
  pending _ := rfl
  attempted := by simp
  numbered := by simp
  order := List.Pairwise.nil
  earlier := by simp
  waiting := by simp
  latest := by simp
  sent := rfl
  reached hno := absurd rfl hno
  calm _ := ⟨rfl, by simp⟩
  lease := rfl

/-- The members that only the viewer looks at. -/
theorem of_viewer (h : ViewerInv clientId s) {viewer : ViewerState}
    (hpending : viewer.pending = s.viewer.pending) (hsent : viewer.sent = s.viewer.sent)
    (hattempted : viewer.attempted = s.viewer.attempted) :
    ViewerInv clientId { s with viewer := viewer } where
  single := h.single
  pending hno := h.pending (hpending.symm.trans hno)
  attempted post hpost hphase := hattempted.trans (h.attempted post hpost hphase)
  numbered := h.numbered
  order := h.order
  earlier := h.earlier
  waiting := h.waiting
  latest := h.latest
  sent := hsent.trans h.sent
  reached := h.reached
  calm hno := h.calm (hattempted.symm.trans hno)
  lease := h.lease

theorem tick (h : ViewerInv clientId s) (force : Bool) (now : Nat) :
    ViewerInv clientId (s.tick force now) := by
  unfold ViewerSystem.tick
  by_cases hpending : s.viewer.pending = true
  · rw [if_pos hpending]
    exact h.of_viewer rfl rfl rfl
  rw [if_neg hpending]
  split
  · exact h
  dsimp only
  split
  · exact h
  split
  · exact h
  · -- the only post that is issued
    have hempty := h.pending (Bool.eq_false_iff.2 hpending)
    have hone : ∀ post ∈ s.wire ++ [({ number := s.issued, tags := s.viewer.view } : FlyingPost)],
        post = { number := s.issued, tags := s.viewer.view } := by
      intro post hpost
      rw [hempty] at hpost
      exact List.mem_singleton.1 hpost
    refine ⟨?_, fun hno => ?_, fun _ _ _ => rfl, fun post hpost => ?_, h.order,
      fun post hpost => Nat.lt_succ_of_lt (h.earlier post hpost), fun post hpost _ old hold => ?_,
      fun post hpost hphase => ?_, h.sent, h.reached, fun hno => ?_, h.lease⟩
    · rw [hempty]
      exact le_rfl
    · cases hno
    · rw [hone post hpost]
      exact Nat.lt_succ_self _
    · rw [hone post hpost]
      exact h.earlier old hold
    · rw [hone post hpost] at hphase
      cases hphase
    · cases hno

/-- The post of a place is the only one. -/
theorem wire_eq (h : ViewerInv clientId s) {i : Nat} {post : FlyingPost}
    (hpost : s.wire[i]? = some post) : s.wire = [post] ∧ i = 0 := by
  have hsingle := h.single
  cases hwire : s.wire with
  | nil =>
    rw [hwire] at hpost
    cases hpost
  | cons first rest =>
    rw [hwire] at hsingle hpost
    have hrest : rest = [] := by
      rw [List.length_cons] at hsingle
      exact List.eq_nil_of_length_eq_zero (by omega)
    subst hrest
    cases i with
    | zero =>
      cases hpost
      exact ⟨rfl, rfl⟩
    | succ i => cases hpost

theorem arrive (h : ViewerInv clientId s) (i now : Nat) :
    ViewerInv clientId (s.arrive clientId i now) := by
  unfold ViewerSystem.arrive
  cases hpost : s.wire[i]? with
  | none => exact h
  | some post =>
    dsimp only
    obtain ⟨hwire, rfl⟩ := h.wire_eq hpost
    have hmem : post ∈ s.wire := by simp [hwire]
    split
    · exact h
    rename_i hwaiting
    rw [ne_eq, not_not] at hwaiting
    cases hrequest : leaseRequest (post.message clientId) (post.tags = ∅) with
    | none =>
      refine ⟨h.single, h.pending, h.attempted, h.numbered, h.order, h.earlier, h.waiting, h.latest,
        h.sent, h.reached, h.calm, ?_⟩
      show leaseOf clientId viewerOwner (s.calls ++ [_]) = _
      rw [leaseOf_snoc]
      dsimp only
      rw [hrequest]
      exact h.lease
    | some request =>
      dsimp only
      obtain ⟨hours, hscope⟩ := leaseRequest_message hrequest
      have hset : s.wire.set 0 { post with phase := .applied }
          = [{ post with phase := .applied }] := by
        rw [hwire]
        rfl
      have hattempted := h.attempted post hmem (by rw [hwaiting]; decide)
      refine ⟨?_, fun hno => ?_, fun _ _ _ => hattempted, fun other hother => ?_, ?_,
        fun other hother => ?_, fun other hother hphase => ?_, fun other hother hphase => ?_,
        h.sent, fun _ => by simp, fun hno => ?_, ?_⟩
      · rw [List.length_set]
        exact h.single
      · have hnone := h.pending hno
        rw [hwire] at hnone
        cases hnone
      · rw [hset] at hother
        rw [List.mem_singleton.1 hother]
        exact h.numbered post hmem
      · rw [List.map_append]
        refine List.pairwise_append.2 ⟨h.order, List.pairwise_singleton _ _, fun a ha b hb => ?_⟩
        obtain ⟨old, hold, rfl⟩ := List.mem_map.1 ha
        obtain rfl := List.mem_singleton.1 hb
        exact h.waiting post hmem hwaiting old hold
      · rcases List.mem_append.1 hother with hold | hnew
        · exact h.earlier other hold
        · rw [List.mem_singleton.1 hnew]
          exact h.numbered post hmem
      · rw [hset] at hother
        rw [List.mem_singleton.1 hother] at hphase
        cases hphase
      · rw [hset] at hother
        rw [List.mem_singleton.1 hother]
        simp
      · rw [hattempted] at hno
        cases hno
      · show leaseOf clientId viewerOwner (s.calls ++ [_]) = _
        rw [leaseOf_snoc]
        dsimp only
        rw [hrequest]
        dsimp only
        rw [if_pos hours, hscope]
        simp

theorem succeed (h : ViewerInv clientId s) (i now : Nat) :
    ViewerInv clientId (s.succeed i now) := by
  unfold ViewerSystem.succeed
  cases hpost : s.wire[i]? with
  | none => exact h
  | some post =>
    dsimp only
    obtain ⟨hwire, rfl⟩ := h.wire_eq hpost
    have hmem : post ∈ s.wire := by simp [hwire]
    split
    · exact h
    rename_i happlied
    rw [ne_eq, not_not] at happlied
    have hlatest := h.latest post hmem happlied
    have hset : ∀ other ∈ s.wire.set 0 { post with phase := .settled },
        other = { post with phase := .settled } := by
      intro other hother
      rw [hwire] at hother
      exact List.mem_singleton.1 hother
    refine ⟨?_, fun hno => ?_, fun other hother hphase => ?_, fun other hother => ?_, h.order,
      h.earlier, fun other hother hphase => ?_, fun other hother hphase => ?_, ?_,
      fun _ hnone => ?_, fun hno => ?_, h.lease⟩
    · rw [List.length_set]
      exact h.single
    · have hnone := h.pending hno
      rw [hwire] at hnone
      cases hnone
    · rw [hset other hother] at hphase
      exact absurd rfl hphase
    · rw [hset other hother]
      exact h.numbered post hmem
    · rw [hset other hother] at hphase
      cases hphase
    · rw [hset other hother] at hphase
      cases hphase
    · simp
    · rw [hnone] at hlatest
      cases hlatest
    · -- an acknowledged release
      have hrelease : post.tags = ∅ := by
        by_contra hregister
        dsimp only at hno
        rw [if_neg hregister, h.attempted post hmem (by rw [happlied]; decide)] at hno
        cases hno
      refine ⟨?_, fun last hlast => ?_⟩
      · unfold ViewerSystem.Confirmed
        dsimp only
        rw [hlatest]
        simp
      · rw [Option.mem_def, hlatest] at hlast
        cases hlast
        exact hrelease

theorem fail (h : ViewerInv clientId s) (i : Nat) : ViewerInv clientId (s.fail i) := by
  unfold ViewerSystem.fail
  cases hpost : s.wire[i]? with
  | none => exact h
  | some post =>
    dsimp only
    obtain ⟨hwire, rfl⟩ := h.wire_eq hpost
    have hset : ∀ other ∈ s.wire.set 0 { post with phase := .settled },
        other = { post with phase := .settled } := by
      intro other hother
      rw [hwire] at hother
      exact List.mem_singleton.1 hother
    refine ⟨?_, fun hno => ?_, fun other hother hphase => ?_, fun other hother => ?_, h.order,
      h.earlier, fun other hother hphase => ?_, fun other hother hphase => ?_, h.sent,
      h.reached, h.calm, h.lease⟩
    · rw [List.length_set]
      exact h.single
    · have hnone := h.pending hno
      rw [hwire] at hnone
      cases hnone
    · rw [hset other hother] at hphase
      exact absurd rfl hphase
    · rw [hset other hother]
      exact h.numbered post (by simp [hwire])
    · rw [hset other hother] at hphase
      cases hphase
    · rw [hset other hother] at hphase
      cases hphase

theorem finish (h : ViewerInv clientId s) (i now : Nat) :
    ViewerInv clientId (s.finish i now) := by
  unfold ViewerSystem.finish
  cases hpost : s.wire[i]? with
  | none => exact h
  | some post =>
    dsimp only
    obtain ⟨hwire, rfl⟩ := h.wire_eq hpost
    split
    · exact h
    have hempty : s.wire.eraseIdx 0 = [] := by
      rw [hwire]
      rfl
    have hdone : ViewerInv clientId { s with
        viewer := { s.viewer with pending := false, again := false }
        wire := s.wire.eraseIdx 0 } := by
      rw [hempty]
      exact ⟨Nat.zero_le 1, fun _ => rfl, by simp, by simp, h.order, h.earlier, by simp, by simp,
        h.sent, h.reached, h.calm, h.lease⟩
    split
    · exact hdone.tick true now
    · exact hdone

theorem other (h : ViewerInv clientId s) {call : LeaseCall}
    (hcall : call.addressee ≠ some (clientId, viewerOwner)) :
    ViewerInv clientId { s with calls := s.calls ++ [call] } := by
  refine ⟨h.single, h.pending, h.attempted, h.numbered, h.order, h.earlier, h.waiting, h.latest,
    h.sent, h.reached, h.calm, ?_⟩
  show leaseOf clientId viewerOwner (s.calls ++ [call]) = _
  rw [leaseOf_snoc, ← h.lease]
  cases call with
  | append now => rfl
  | apply message release now =>
    dsimp only
    unfold LeaseCall.addressee at hcall
    dsimp only at hcall
    cases hrequest : leaseRequest message release with
    | none => rfl
    | some request =>
      rw [hrequest] at hcall
      dsimp only
      rw [if_neg fun hours => hcall (congrArg some hours)]
      rfl

theorem step (h : ViewerInv clientId s) (event : ViewerEvent) :
    ViewerInv clientId (s.step clientId event) := by
  cases event with
  | setTags rows now =>
    have hrows : ViewerInv clientId { s with
        viewer := { s.viewer with tags := (rows.filterMap ViewRow.key).toFinset } } :=
      h.of_viewer rfl rfl rfl
    exact hrows.tick true now
  | tick force now => exact h.tick force now
  | release now =>
    have hgone : ViewerInv clientId { s with
        viewer := { s.viewer with tags := ∅, nextAttempt := 0 } } := h.of_viewer rfl rfl rfl
    exact hgone.tick true now
  | visibility visible => exact h.of_viewer rfl rfl rfl
  | arrive i now => exact h.arrive i now
  | succeed i now => exact h.succeed i now
  | fail i => exact h.fail i
  | finish i now => exact h.finish i now
  | other call =>
    unfold ViewerSystem.step
    dsimp only
    split
    · exact h
    · rename_i hcall
      exact h.other hcall

end ViewerInv

theorem viewerInv_run (clientId : String) (events : List ViewerEvent) :
    ViewerInv clientId (viewerAfter clientId events) :=
  run_induct (fun _ event h => h.step event) .initial events

/-! ## The lease of an idle viewer -/

/-- Why no post is due. -/
theorem ViewerSystem.Idle.quiet {s : ViewerSystem} {now : Nat} (h : s.Idle now) :
    (s.viewer.view = ∅ ∧ s.viewer.attempted = false) ∨ s.viewer.sent = some s.viewer.view := by
  obtain ⟨hpending, hissued⟩ := h
  unfold ViewerSystem.tick at hissued
  rw [if_neg (by rw [hpending]; decide), if_neg (by simp)] at hissued
  dsimp only at hissued
  split at hissued
  · rename_i hnothing
    exact .inl ⟨hnothing.1, by simpa using hnothing.2⟩
  split at hissued
  · rename_i hsame
    exact .inr hsame.1
  · exact absurd hissued (Nat.succ_ne_self _)

omit [Floats] in
theorem scopeOf_inj {tags tags' : Finset String} : scopeOf tags = scopeOf tags' ↔ tags = tags' := by
  refine ⟨fun h => ?_, fun h => congrArg scopeOf h⟩
  unfold scopeOf at h
  by_cases hempty : tags = ∅
  · rw [if_pos hempty] at h
    by_cases hempty' : tags' = ∅
    · rw [hempty, hempty']
    · rw [if_neg hempty'] at h
      cases h
  · rw [if_neg hempty] at h
    by_cases hempty' : tags' = ∅
    · rw [if_pos hempty'] at h
      cases h
    · rw [if_neg hempty'] at h
      exact congrArg ConsumerScope.tags (Option.some.inj h)

/-- **The lease of an idle viewer** is what it shows if and only if the last post that the core has
applied has the tags of the last one that was acknowledged. One post is in flight at most, and the
posts are applied in the order in which they were issued. -/
theorem viewer_lease_iff (clientId : String) (events : List ViewerEvent) :
    (viewerAfter clientId events).wire.length ≤ 1 ∧
    ((viewerAfter clientId events).applied.map ViewerPost.number).Pairwise (· < ·) ∧
    ∀ now, (viewerAfter clientId events).Idle now →
      ((viewerAfter clientId events).lease clientId
          = scopeOf (viewerAfter clientId events).viewer.view ↔
        (viewerAfter clientId events).Confirmed) := by
  have h := viewerInv_run clientId events
  refine ⟨h.single, h.order, fun now hidle => ?_⟩
  rw [h.lease]
  rcases hidle.quiet with ⟨hview, hcalm⟩ | hsent
  · obtain ⟨hconfirmed, hrelease⟩ := h.calm hcalm
    refine iff_of_true ?_ hconfirmed
    rw [hview]
    cases hlast : (viewerAfter clientId events).applied.getLast? with
    | none => rfl
    | some post =>
      rw [hlast] at hrelease
      exact congrArg scopeOf (hrelease post rfl)
  · have hacknowledged := h.sent.symm.trans hsent
    unfold ViewerSystem.Confirmed
    rw [hacknowledged]
    cases hlast : (viewerAfter clientId events).applied.getLast? with
    | none =>
      -- what is acknowledged was applied
      have hnone := List.getLast?_eq_none_iff.1 hlast
      have hsome : (viewerAfter clientId events).acknowledged ≠ [] := by
        intro hempty
        rw [hempty] at hacknowledged
        cases hacknowledged
      exact absurd hnone (h.reached hsome)
    | some post =>
      rw [Option.bind_some, Option.map_some, Option.some.injEq]
      exact scopeOf_inj

end

attribute [local instance] doubles

/-- The answer to the registration of another view is lost, and the view goes back. -/
def lostAnswer : List ViewerEvent :=
  [.setTags [{ connectionId := "C", name := "A" }] 0, .arrive 0 0, .succeed 0 0, .finish 0 0,
    .setTags [{ connectionId := "C", name := "B" }] 1000, .arrive 0 1000, .fail 0, .finish 0 1000,
    .setTags [{ connectionId := "C", name := "A" }] 2000]

theorem leaseRequest_single (n : Nat) {tag : String} (htag : demandKeyValid tag = true) :
    leaseRequest (ViewerPost.message "tab" ⟨n, {tag}⟩) false
      = some ⟨"tab", viewerOwner, scopeOf {tag}⟩ := by
  have hclient : ¬ 128 < "tab".length := by decide
  have howner : ¬ 128 < "opcbridge-scada-viewer".length := by decide
  simp [leaseRequest, ViewerPost.message, Json.find, List.lookup_cons, registeredScope, demandTagKeys,
    htag, viewerOwner, hclient, howner, scopeOf]

theorem lost_answer_suppressed :
    ¬ ∀ (clientId : String) (events : List ViewerEvent) (now : Nat),
      (viewerAfter clientId events).Idle now →
        (viewerAfter clientId events).lease clientId
          = scopeOf (viewerAfter clientId events).viewer.view := by
  intro h
  have hspec := h "tab" lostAnswer 3000
  have hA := leaseRequest_single 0 (show demandKeyValid "C:A" = true by decide)
  have hB := leaseRequest_single 1 (show demandKeyValid "C:B" = true by decide)
  simp [viewerAfter, lostAnswer, run, ViewerSystem.step, ViewerSystem.setTags, ViewerSystem.tick,
    ViewerState.view, ViewRow.key, ViewerSystem.arrive, hA, hB, ViewerSystem.succeed,
    ViewerSystem.fail, ViewerSystem.finish, ViewerSystem.Idle] at hspec
  simp only [ViewerSystem.lease, leaseOf, List.foldl_cons, List.foldl_nil, hA, hB, if_pos] at hspec
  -- the core has the other view
  exact absurd (scopeOf_inj.1 hspec) (by decide)

end OpcBridge
