import OpcBridge.Core.Value
import OpcBridge.Lib.Run
import Mathlib.Data.Finset.Insert

/-!
# The configured sweep of a connection

`record_connection_sweep_progress`: a sweep ends when every tag of a connection was polled since the
last one. A slot of each tag holds the epoch in which it was polled last, so that the next sweep
begins by a new epoch and no slot is written. `SweepObserver` keeps the polled tags themselves, and
the two agree from any epoch on, past its wrap (`configured_sweep`).
-/

namespace OpcBridge

open Lib

section
variable [Floats]

/-- The sweep members of `ConnPollMetrics`. -/
structure SweepTracking where
  sweepEpoch : UInt64 := 1
  sweepSeenCount : Nat := 0
  sweepSeenEpochs : List UInt64 := []
  sweepStartedSteady : Int := 0
  sweepMsLast : F64 := Floats.ofInt 0
  /-- Wall clock and length of the sweeps of the last minute. -/
  sweepSamples : List (Int × F64) := []

namespace SweepTracking

/-- `reset_connection_sweep_tracking` -/
def reset (pollTagCount : Nat) (steady : Int) : SweepTracking where
  sweepSeenEpochs := List.replicate pollTagCount 0
  sweepStartedSteady := steady

/-- The end of a sweep. -/
def closeSweep (s : SweepTracking) (nowSteady nowEpochMs : Int) : SweepTracking :=
  let sweepMs := Floats.ofInt ((nowSteady - s.sweepStartedSteady).tdiv 1000000)
  let samples := s.sweepSamples ++ [(nowEpochMs, sweepMs)]
  let epoch := s.sweepEpoch + 1
  { sweepEpoch := if epoch = 0 then 1 else epoch
    sweepSeenCount := 0
    sweepSeenEpochs :=
      if epoch = 0 then List.replicate s.sweepSeenEpochs.length 0 else s.sweepSeenEpochs
    sweepStartedSteady := nowSteady
    sweepMsLast := sweepMs
    sweepSamples := samples.dropWhile fun sample => decide (60000 < nowEpochMs - sample.1) }

/-- `record_connection_sweep_progress`, and whether it records a sample. The clock is read at the
reset and at the end. -/
def record (s : SweepTracking) (sweepIndex pollTagCount : Nat) (steady nowSteady nowEpochMs : Int) :
    SweepTracking × Bool :=
  if pollTagCount = 0 then (s, false)
  else
    let s := if s.sweepSeenEpochs.length ≠ pollTagCount then reset pollTagCount steady else s
    if s.sweepSeenEpochs.length ≤ sweepIndex then (s, false)
    else if s.sweepSeenEpochs[sweepIndex]? = some s.sweepEpoch then (s, false)
    else
      let s := { s with
        sweepSeenEpochs := s.sweepSeenEpochs.set sweepIndex s.sweepEpoch
        sweepSeenCount := s.sweepSeenCount + 1 }
      if s.sweepSeenCount < pollTagCount then (s, false)
      else (s.closeSweep nowSteady nowEpochMs, true)

end SweepTracking

inductive TrackingCall
  | reset (pollTagCount : Nat) (steady : Int)
  | record (sweepIndex pollTagCount : Nat) (steady nowSteady nowEpochMs : Int)

def SweepTracking.call (s : SweepTracking) : TrackingCall → SweepTracking × Bool
  | .reset pollTagCount steady => (.reset pollTagCount steady, false)
  | .record sweepIndex pollTagCount steady nowSteady nowEpochMs =>
    s.record sweepIndex pollTagCount steady nowSteady nowEpochMs

/-! ## What was reported -/

omit [Floats] in
/-- The tags reported since the last sample or reset. -/
structure SweepObserver where
  tagCount : Nat
  reported : Finset Nat

namespace SweepObserver

/-- Another number of tags is a reset. -/
def report (o : SweepObserver) : TrackingCall → SweepObserver
  | .reset pollTagCount _ => ⟨pollTagCount, ∅⟩
  | .record sweepIndex pollTagCount _ _ _ =>
    if pollTagCount = 0 then o
    else
      let reported := if o.tagCount ≠ pollTagCount then ∅ else o.reported
      ⟨pollTagCount, if sweepIndex < pollTagCount then insert sweepIndex reported else reported⟩

/-- There are tags, and all are reported. -/
def Full (o : SweepObserver) : Prop := o.tagCount ≠ 0 ∧ ∀ index < o.tagCount, index ∈ o.reported

def see (o : SweepObserver) (call : TrackingCall) (sampled : Bool) : SweepObserver :=
  if sampled then ⟨(o.report call).tagCount, ∅⟩ else o.report call

end SweepObserver

structure ObservedSweep where
  tracking : SweepTracking
  observer : SweepObserver

def ObservedSweep.step (t : ObservedSweep) (call : TrackingCall) : ObservedSweep where
  tracking := (t.tracking.call call).1
  observer := t.observer.see call (t.tracking.call call).2

/-- No tag is marked, whatever the epoch is. -/
structure SweepTracking.Start (s : SweepTracking) : Prop where
  count : s.sweepSeenCount = 0
  unmarked : s.sweepEpoch ∉ s.sweepSeenEpochs

def SweepTracking.observed (s : SweepTracking) : ObservedSweep where
  tracking := s
  observer := ⟨s.sweepSeenEpochs.length, ∅⟩

/-! ## The invariant -/

/-- The slots with the epoch are those of the reported tags. -/
structure SweepMarks (s : SweepTracking) (o : SweepObserver) : Prop where
  tagCount : o.tagCount = s.sweepSeenEpochs.length
  marked : ∀ index, s.sweepSeenEpochs[index]? = some s.sweepEpoch ↔ index ∈ o.reported
  count : s.sweepSeenCount = s.sweepSeenEpochs.count s.sweepEpoch

/-- Between two calls the sweep is not at its end. -/
structure SweepAccount (s : SweepTracking) (o : SweepObserver) : Prop extends SweepMarks s o where
  strict : s.sweepSeenEpochs ≠ [] → s.sweepSeenCount < s.sweepSeenEpochs.length

theorem SweepTracking.Start.account {s : SweepTracking} (h : s.Start) :
    SweepAccount s ⟨s.sweepSeenEpochs.length, ∅⟩ where
  tagCount := rfl
  marked index := by
    refine iff_of_false (fun hmark => ?_) (Finset.notMem_empty index)
    exact h.unmarked (List.mem_of_getElem? hmark)
  count := by rw [h.count, List.count_eq_zero.2 h.unmarked]
  strict hne := by
    rw [h.count]
    exact List.length_pos_iff.2 hne

theorem account_reset (pollTagCount : Nat) (steady : Int) :
    SweepAccount (.reset pollTagCount steady) ⟨pollTagCount, ∅⟩ := by
  have hlength : (SweepTracking.reset pollTagCount steady).sweepSeenEpochs.length = pollTagCount :=
    List.length_replicate
  have hstart : (SweepTracking.reset pollTagCount steady).Start := by
    refine ⟨rfl, fun hmem => ?_⟩
    have hzero : (1 : UInt64) = 0 := List.eq_of_mem_replicate hmem
    exact absurd hzero (by decide)
  have h := hstart.account
  rw [hlength] at h
  exact h

/-- All tags are reported when the count is the number of tags. -/
theorem SweepMarks.all_iff {s : SweepTracking} {o : SweepObserver} (h : SweepMarks s o) :
    (∀ index < o.tagCount, index ∈ o.reported) ↔ s.sweepSeenCount = s.sweepSeenEpochs.length := by
  rw [h.count, List.count_eq_length, h.tagCount]
  constructor
  · intro hall epoch hepoch
    obtain ⟨index, hindex, rfl⟩ := List.getElem_of_mem hepoch
    have hmark := (h.marked index).2 (hall index hindex)
    rw [List.getElem?_eq_getElem hindex] at hmark
    exact (Option.some.inj hmark).symm
  · intro hall index hindex
    refine (h.marked index).1 ?_
    rw [List.getElem?_eq_getElem hindex, ← hall _ (List.getElem_mem hindex)]

theorem SweepAccount.not_full {s : SweepTracking} {o : SweepObserver} (h : SweepAccount s o) :
    ¬ o.Full := by
  rintro ⟨hne, hall⟩
  have hfull := h.all_iff.1 hall
  have hstrict := h.strict fun hnil => hne (by rw [h.tagCount, hnil, List.length_nil])
  omega

theorem SweepMarks.account {s : SweepTracking} {o : SweepObserver} (h : SweepMarks s o)
    (hfull : ¬ o.Full) : SweepAccount s o := by
  refine ⟨h, fun hne => ?_⟩
  have hle : s.sweepSeenCount ≤ s.sweepSeenEpochs.length := by
    rw [h.count]
    exact List.count_le_length
  have htags : o.tagCount ≠ 0 := by
    rw [h.tagCount]
    exact fun hzero => hne (List.length_eq_zero_iff.1 hzero)
  have hopen : s.sweepSeenCount ≠ s.sweepSeenEpochs.length := fun heq =>
    hfull ⟨htags, h.all_iff.2 heq⟩
  omega

/-! ## One call -/

section
variable {s : SweepTracking} {o : SweepObserver}

/-- The state with one more slot marked. -/
def SweepTracking.mark (s : SweepTracking) (index : Nat) : SweepTracking :=
  { s with
    sweepSeenEpochs := s.sweepSeenEpochs.set index s.sweepEpoch
    sweepSeenCount := s.sweepSeenCount + 1 }

theorem SweepMarks.mark (h : SweepMarks s o) {index : Nat}
    (hindex : index < s.sweepSeenEpochs.length)
    (hnew : s.sweepSeenEpochs[index]? ≠ some s.sweepEpoch) :
    SweepMarks (s.mark index) ⟨o.tagCount, insert index o.reported⟩ where
  tagCount := h.tagCount.trans List.length_set.symm
  marked j := by
    show (s.sweepSeenEpochs.set index s.sweepEpoch)[j]? = some s.sweepEpoch ↔ _
    rw [Finset.mem_insert, ← h.marked, List.getElem?_set]
    by_cases hj : index = j
    · subst hj
      simp [hindex]
    · simp [hj, Ne.symm hj]
  count := by
    show s.sweepSeenCount + 1 = (s.sweepSeenEpochs.set index s.sweepEpoch).count s.sweepEpoch
    have hother : (s.sweepSeenEpochs[index] == s.sweepEpoch) = false := by
      rw [List.getElem?_eq_getElem hindex] at hnew
      exact beq_eq_false_iff_ne.2 fun heq => hnew (congrArg some heq)
    rw [List.count_set hindex, hother, h.count]
    simp

/-- The next epoch stands in no slot. -/
theorem SweepMarks.closeSweep (h : SweepMarks s o) (hfull : o.Full) (nowSteady nowEpochMs : Int) :
    SweepAccount (s.closeSweep nowSteady nowEpochMs) ⟨o.tagCount, ∅⟩ := by
  have hall : ∀ epoch ∈ s.sweepSeenEpochs, s.sweepEpoch = epoch := by
    have hcount := h.all_iff.1 hfull.2
    rw [h.count] at hcount
    exact List.count_eq_length.1 hcount
  have hlength : (s.closeSweep nowSteady nowEpochMs).sweepSeenEpochs.length = o.tagCount := by
    rw [h.tagCount]
    unfold SweepTracking.closeSweep
    dsimp only
    split
    · exact List.length_replicate
    · rfl
  have hstart : (s.closeSweep nowSteady nowEpochMs).Start := by
    refine ⟨rfl, ?_⟩
    unfold SweepTracking.closeSweep
    dsimp only
    split
    · -- the epoch has wrapped
      intro hmem
      have hone : (1 : UInt64) = 0 := List.eq_of_mem_replicate hmem
      exact absurd hone (by decide)
    · intro hmem
      have hnext : s.sweepEpoch = s.sweepEpoch + 1 := hall _ hmem
      have hvalue := congrArg UInt64.toNat hnext
      rw [UInt64.toNat_add] at hvalue
      have hlt := s.sweepEpoch.toNat_lt
      simp at hvalue
      omega
  have haccount := hstart.account
  rw [hlength] at haccount
  exact haccount

/-- Another number of tags is a reset. -/
theorem SweepAccount.resized (h : SweepAccount s o) (pollTagCount : Nat) (steady : Int) :
    SweepAccount
      (if s.sweepSeenEpochs.length ≠ pollTagCount then .reset pollTagCount steady else s)
      ⟨pollTagCount, if o.tagCount ≠ pollTagCount then ∅ else o.reported⟩ := by
  rw [h.tagCount]
  by_cases hsame : s.sweepSeenEpochs.length = pollTagCount
  · rw [if_neg (by simpa using hsame), if_neg (by simpa using hsame), ← hsame, ← h.tagCount]
    exact h
  · rw [if_pos hsame, if_pos hsame]
    exact account_reset pollTagCount steady

/-- What a call does: the account goes on, and a sample is recorded when all tags are reported. -/
theorem SweepAccount.call (h : SweepAccount s o) (call : TrackingCall) :
    SweepAccount (s.call call).1 (o.see call (s.call call).2) ∧
      ((s.call call).2 = true ↔ (o.report call).Full) := by
  cases call with
  | reset pollTagCount steady =>
    have haccount := account_reset pollTagCount steady
    exact ⟨haccount, iff_of_false (by simp [SweepTracking.call]) haccount.not_full⟩
  | record index n steady nowSteady nowEpochMs =>
    by_cases hn : n = 0
    · have hrecord : s.record index n steady nowSteady nowEpochMs = (s, false) := if_pos hn
      have hreport : o.report (.record index n steady nowSteady nowEpochMs) = o := if_pos hn
      rw [SweepTracking.call, hrecord, SweepObserver.see, hreport]
      exact ⟨h, iff_of_false (by simp) h.not_full⟩
    have hsized := h.resized n steady
    rw [SweepObserver.see, SweepObserver.report, if_neg hn, SweepTracking.call,
      SweepTracking.record, if_neg hn]
    generalize (if s.sweepSeenEpochs.length ≠ n then SweepTracking.reset n steady else s) = t
      at hsized ⊢
    generalize (if o.tagCount ≠ n then ∅ else o.reported) = reported at hsized ⊢
    have hlength : n = t.sweepSeenEpochs.length := hsized.tagCount
    dsimp only
    by_cases hindex : t.sweepSeenEpochs.length ≤ index
    · rw [if_pos hindex, if_neg (by omega : ¬ index < n)]
      exact ⟨hsized, iff_of_false (by simp) hsized.not_full⟩
    rw [if_neg hindex, if_pos (by omega : index < n)]
    by_cases hseen : t.sweepSeenEpochs[index]? = some t.sweepEpoch
    · have hreported : insert index reported = reported :=
        Finset.insert_eq_self.2 ((hsized.marked index).1 hseen)
      rw [if_pos hseen, hreported]
      exact ⟨hsized, iff_of_false (by simp) hsized.not_full⟩
    rw [if_neg hseen]
    have hmarks := hsized.toSweepMarks.mark (by omega) hseen
    have hcount : (t.mark index).sweepSeenCount ≤ n := by
      rw [hmarks.count]
      exact List.count_le_length.trans hmarks.tagCount.ge
    have hfull : SweepObserver.Full ⟨n, insert index reported⟩ ↔ ¬ t.sweepSeenCount + 1 < n := by
      have hall := hmarks.all_iff
      rw [← hmarks.tagCount] at hall
      refine (and_iff_right hn).trans (hall.trans ?_)
      exact ⟨fun heq => not_lt.2 heq.ge, fun hge => le_antisymm hcount (not_lt.1 hge)⟩
    by_cases hlast : t.sweepSeenCount + 1 < n
    · rw [if_pos hlast]
      have hopen : ¬ SweepObserver.Full ⟨n, insert index reported⟩ := fun hf => hfull.1 hf hlast
      exact ⟨hmarks.account hopen, iff_of_false (by simp) hopen⟩
    · rw [if_neg hlast]
      exact ⟨hmarks.closeSweep (hfull.2 hlast) nowSteady nowEpochMs,
        iff_of_true rfl (hfull.2 hlast)⟩

end

/-! ## Runs -/

theorem account_run {start : SweepTracking} (h : start.Start) (calls : List TrackingCall) :
    SweepAccount (run ObservedSweep.step start.observed calls).tracking
      (run ObservedSweep.step start.observed calls).observer :=
  run_induct (I := fun t : ObservedSweep => SweepAccount t.tracking t.observer)
    (fun _ call hrun => (hrun.call call).1) h.account calls

/-- From any epoch on: the count is that of the marked slots, less than their number unless there are
none, and a call records a sample if and only if with it every tag was reported since the last
sample or reset. -/
theorem configured_sweep {start : SweepTracking} (h : start.Start) (calls : List TrackingCall) :
    let t := run ObservedSweep.step start.observed calls
    t.tracking.sweepSeenCount = t.tracking.sweepSeenEpochs.count t.tracking.sweepEpoch ∧
      (t.tracking.sweepSeenEpochs ≠ [] →
        t.tracking.sweepSeenCount < t.tracking.sweepSeenEpochs.length) ∧
      ∀ call, (t.tracking.call call).2 = true ↔ (t.observer.report call).Full := by
  have haccount := account_run h calls
  exact ⟨haccount.count, haccount.strict, fun call => (haccount.call call).2⟩

end

/-! ## A wrapping epoch -/

attribute [local instance] intFloats

/-- Two tags, and the last epoch. -/
def lastEpoch : SweepTracking where
  sweepEpoch := 18446744073709551615
  sweepSeenEpochs := [0, 7]

def pollTwice : List TrackingCall :=
  [.record 1 2 0 5 5, .record 0 2 0 9 9, .record 0 2 0 12 12]

theorem lastEpoch_start : lastEpoch.Start := ⟨rfl, by decide⟩

/-- The sweep ends with the wrap, and the next one has seen one tag. -/
theorem last_epoch_sweep :
    let t := run ObservedSweep.step lastEpoch.observed pollTwice
    t.tracking.sweepSeenCount = t.tracking.sweepSeenEpochs.count t.tracking.sweepEpoch ∧
      (t.tracking.sweepSeenEpochs ≠ [] →
        t.tracking.sweepSeenCount < t.tracking.sweepSeenEpochs.length) ∧
      ∀ call, (t.tracking.call call).2 = true ↔ (t.observer.report call).Full :=
  configured_sweep lastEpoch_start pollTwice

/-- Without tags the count is their number. -/
theorem no_tags_counted : ¬ ∀ start : SweepTracking, start.Start → ∀ calls : List TrackingCall,
    let t := run ObservedSweep.step start.observed calls
    t.tracking.sweepSeenCount = t.tracking.sweepSeenEpochs.count t.tracking.sweepEpoch ∧
      t.tracking.sweepSeenCount < t.tracking.sweepSeenEpochs.length ∧
      ∀ call, (t.tracking.call call).2 = true ↔ (t.observer.report call).Full := by
  intro h
  obtain ⟨-, hlt, -⟩ := h lastEpoch lastEpoch_start [.reset 0 3]
  revert hlt
  decide

end OpcBridge
