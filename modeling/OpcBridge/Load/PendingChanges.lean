import OpcBridge.Load.ConfigState
import OpcBridge.Lib.History
import OpcBridge.Lib.Run

/-!
# Pending changes over a run

The main loop captures the saved files, loads, and acknowledges the capture if the load succeeded.
Files are saved at any time in between. `LastLoad` is the latest successful reload that covered an
owner, with the contents it found on the disk. The acknowledged files are what these loads found
(`PendingInv`), provided that each load finds what was captured before it: a capture does not see
what is saved between it and the load, nor does the load see what is saved after it.
-/

namespace OpcBridge

open Lib
open Alarms (Json)

section
variable [Floats]

/-! ## The system -/

/-- The contents of the readable files. -/
def contentOf (listing : Listing) (file : String) : Option Json :=
  lastValue file (listing.filterMap fun entry => entry.2.map fun v => (entry.1, v))

structure Reload where
  /-- Empty for a full reload. -/
  target : String
  /-- `savedConfigBeforeReload` -/
  before : ConfigSnapshot
  /-- What the load found, once it is over. -/
  read : Option (String → Option Json) := none

structure ConfigSystem where
  disk : Listing := []
  state : RuntimeConfigState := {}
  reload : Option Reload := none

inductive ConfigEvent
  | save (listing : Listing)
  | begin (target : String)
  | load
  | finish (ok : Bool)

def ConfigSystem.step (s : ConfigSystem) : ConfigEvent → ConfigSystem
  | .save listing => { s with disk := listing }
  | .begin target =>
    match s.reload with
    | none => { s with reload := some { target := target, before := capture s.disk } }
    | some _ => s
  | .load => { s with reload := s.reload.map fun r => { r with read := some (contentOf s.disk) } }
  | .finish ok =>
    match s.reload with
    | none => s
    | some r =>
      if ok && r.read.isNone then s
      else { s with
        state := if ok then s.state.apply r.before r.target else s.state
        reload := none }

def systemAfter (events : List ConfigEvent) : ConfigSystem := run ConfigSystem.step {} events

theorem systemAfter_snoc (events : List ConfigEvent) (e : ConfigEvent) :
    systemAfter (events ++ [e]) = (systemAfter events).step e := by
  unfold systemAfter
  rw [run_append]
  rfl

/-! ## Loads -/

/-- The event ends a successful reload that covers the owner. -/
def CoveringLoad (o : Option String) (events : List ConfigEvent) (e : ConfigEvent) : Prop :=
  e = .finish true ∧ ∃ r, (systemAfter events).reload = some r ∧ r.read.isSome = true ∧
    (r.target = "" ∨ o = some r.target)

/-- The latest successful reload that covered the owner. -/
def LastLoad (events : List ConfigEvent) (o : Option String) (r : Reload) : Prop :=
  ∃ before, Latest (CoveringLoad o) events before (.finish true) ∧
    (systemAfter before).reload = some r

/-- The latest load of its owner found this content of the file. -/
def LoadedContent (events : List ConfigEvent) (o : Option String) (file : String) (v : Json) :
    Prop :=
  ∃ r content, LastLoad events o r ∧ r.read = some content ∧ content file = some v

/-- The reload covers the file with this content. -/
def Reload.Covers (r : Reload) (file : String) (content : Option Json) : Prop :=
  r.target = "" ∨ content.bind (owner file) = some r.target

/-- The files as the load finds them are what was captured before it, wherever it covers one of
the two. -/
def Reload.Captured (r : Reload) (content : String → Option Json) : Prop :=
  r.before.error = "" ∧ ∀ file, r.Covers file (content file) ∨
    r.Covers file (r.before.files.find file) → content file = r.before.files.find file

/-- No covered file is saved between the capture and the load. -/
def LoadsCaptured (s : ConfigSystem) : ConfigEvent → Prop
  | .load => ∀ r, s.reload = some r → r.Captured (contentOf s.disk)
  | _ => True

/-- The acknowledged files are what the latest loads of their owners found. -/
structure PendingInv (events : List ConfigEvent) (s : ConfigSystem) : Prop where
  captured : ∀ r content, s.reload = some r → r.read = some content → r.Captured content
  loaded : ∀ file v, s.state.applied.find file = some v →
    LoadedContent events (owner file v) file v

section
variable {events : List ConfigEvent} {s : ConfigSystem} {e : ConfigEvent} {o : Option String}
  {r : Reload} {file : String} {v : Json}

theorem LoadedContent.snoc (h : LoadedContent events o file v) (hno : ¬ CoveringLoad o events e) :
    LoadedContent (events ++ [e]) o file v := by
  obtain ⟨r, content, ⟨before, hl, hr⟩, hread, hfile⟩ := h
  exact ⟨r, content, ⟨before, (latest_snoc hno).2 hl, hr⟩, hread, hfile⟩

/-- A successful reload that covers the owner is its latest one. -/
theorem loadedContent_finish (hr : (systemAfter events).reload = some r)
    {content : String → Option Json} (hread : r.read = some content)
    (hc : r.target = "" ∨ o = some r.target) (hfile : content file = some v) :
    LoadedContent (events ++ [.finish true]) o file v :=
  ⟨r, content, ⟨events, latest_snoc_self ⟨rfl, r, hr, by rw [hread]; rfl, hc⟩, hr⟩, hread, hfile⟩

theorem LoadedContent.unique {w : Json} (h : LoadedContent events o file v)
    (h' : LoadedContent events o file w) : v = w := by
  obtain ⟨r, content, ⟨before, hl, hr⟩, hread, hfile⟩ := h
  obtain ⟨r', content', ⟨before', hl', hr'⟩, hread', hfile'⟩ := h'
  obtain ⟨rfl, -⟩ := hl.unique hl'
  rw [hr, Option.some.injEq] at hr'
  subst hr'
  rw [hread, Option.some.injEq] at hread'
  subst hread'
  exact Option.some.inj (hfile.symm.trans hfile')

theorem PendingInv.same (h : PendingInv events s) (he : e ≠ .finish true) {reload : Option Reload}
    {disk : Listing} (hcap : ∀ r content, reload = some r → r.read = some content →
      r.Captured content) :
    PendingInv (events ++ [e]) { s with disk := disk, reload := reload } where
  captured := hcap
  loaded file v hv := (h.loaded file v hv).snoc fun hc => he hc.1

/-- What a targeted acknowledgement keeps and what it takes over. -/
theorem appliedContent_cases {c : String} {old new : Option Json}
    (h : appliedContent c file old new = some v) :
    old = some v ∧ owner file v ≠ some c ∨ new = some v ∧ owner file v = some c := by
  unfold appliedContent at h
  rw [Option.or_eq_some_iff, Option.filter_eq_some_iff, Option.filter_eq_some_iff] at h
  rcases h with ⟨hold, hb⟩ | ⟨-, hnew, hb⟩
  · refine .inl ⟨hold, fun hc => ?_⟩
    simp [belongs, hc] at hb
  · exact .inr ⟨hnew, by simpa [belongs] using hb⟩

theorem PendingInv.finish (h : PendingInv events s) (hs : systemAfter events = s)
    (hr : s.reload = some r) {content : String → Option Json} (hread : r.read = some content) :
    PendingInv (events ++ [.finish true])
      { s with state := s.state.apply r.before r.target, reload := none } where
  captured := by
    intro r' content' hr'
    cases hr'
  loaded := by
    intro file v hv
    obtain ⟨herr, hcap⟩ := h.captured r content hr hread
    have hafter : (systemAfter events).reload = some r := by rw [hs, hr]
    dsimp only at hv
    by_cases ht : r.target = ""
    · rw [ht, apply_full herr] at hv
      exact loadedContent_finish hafter hread (.inl ht) ((hcap file (.inl (.inl ht))).trans hv)
    · rw [find_applied herr ht] at hv
      obtain ⟨hold, hother⟩ | ⟨hnew, hown⟩ := appliedContent_cases hv
      · -- this reload does not cover the file's owner
        refine (h.loaded file v hold).snoc ?_
        rintro ⟨-, r', hr', -, hc⟩
        rw [hafter, Option.some.injEq] at hr'
        subst hr'
        exact hc.elim ht hother
      · refine loadedContent_finish hafter hread (.inr hown) ((hcap file (.inr (.inr ?_))).trans hnew)
        rw [hnew]
        exact hown

theorem PendingInv.step (h : PendingInv events s) (hs : systemAfter events = s)
    (hok : LoadsCaptured s e) : PendingInv (events ++ [e]) (s.step e) := by
  cases e with
  | save listing => exact h.same (by simp) h.captured
  | begin target =>
    show PendingInv _ (match s.reload with
      | none => { s with reload := some { target := target, before := capture s.disk } }
      | some _ => s)
    split
    · refine h.same (by simp) fun r content hr hread => ?_
      rw [Option.some.injEq] at hr
      subst hr
      cases hread
    · exact h.same (by simp) h.captured
  | load =>
    refine h.same (by simp) fun r content hr hread => ?_
    obtain ⟨r', hr', rfl⟩ := Option.map_eq_some_iff.1 hr
    rw [Option.some.injEq] at hread
    subst hread
    exact hok r' hr'
  | finish ok =>
    cases hr : s.reload with
    | none =>
      have hstep : s.step (.finish ok) = s := by simp only [ConfigSystem.step, hr]
      rw [hstep]
      refine ⟨h.captured, fun file v hv => (h.loaded file v hv).snoc ?_⟩
      rintro ⟨-, r, hr', -⟩
      rw [hs, hr] at hr'
      cases hr'
    | some r =>
      cases hread : r.read with
      | none =>
        have hno : ∀ o, ¬ CoveringLoad o events (.finish ok) := by
          rintro o ⟨-, r', hr', hsome, -⟩
          rw [hs, hr, Option.some.injEq] at hr'
          rw [← hr', hread] at hsome
          cases hsome
        cases ok with
        | false =>
          have hstep : s.step (.finish false) = { s with reload := none } := by
            simp [ConfigSystem.step, hr]
          rw [hstep]
          exact ⟨by simp, fun file v hv => (h.loaded file v hv).snoc (hno _)⟩
        | true =>
          have hstep : s.step (.finish true) = s := by simp [ConfigSystem.step, hr, hread]
          rw [hstep]
          exact ⟨h.captured, fun file v hv => (h.loaded file v hv).snoc (hno _)⟩
      | some content =>
        cases ok with
        | false =>
          have hstep : s.step (.finish false) = { s with reload := none } := by
            simp [ConfigSystem.step, hr]
          rw [hstep]
          exact ⟨by simp, fun file v hv => (h.loaded file v hv).snoc (by simp [CoveringLoad])⟩
        | true =>
          have hstep : s.step (.finish true) =
              { s with state := s.state.apply r.before r.target, reload := none } := by
            simp [ConfigSystem.step, hr, hread]
          rw [hstep]
          exact h.finish hs hr hread

theorem systemAfter_inv (hok : Along ConfigSystem.step LoadsCaptured {} events) :
    PendingInv events (systemAfter events) := by
  induction events using List.reverseRecOn with
  | nil =>
    refine ⟨?_, ?_⟩
    · intro r content hr
      cases hr
    · intro file v hv
      cases hv
  | append_singleton events e ih =>
    obtain ⟨h1, h2, -⟩ := along_append.1 hok
    rw [systemAfter_snoc]
    exact (ih h1).step rfl h2

end

end

/-! ## A file saved twice during a reload -/

section
attribute [local instance] intFloats

/-- A tag file of connection `A` in one of its revisions. -/
def revision (n : Nat) : Json := .object [("connection_id", .string "A"), ("revision", .uint n)]

def saveRevision (n : Nat) : ConfigEvent := .save [("tags/X.json", some (revision n))]

/-- The first load of a process. -/
def startup : List ConfigEvent := [saveRevision 1, .begin "", .load, .finish true]

/-- A full reload captures revision 1 and finds revision 2, and revision 1 is saved again before the
reload is acknowledged. -/
def savedTwice : List ConfigEvent :=
  [saveRevision 1, .begin "", saveRevision 2, .load, saveRevision 1, .finish true]

end

end OpcBridge
