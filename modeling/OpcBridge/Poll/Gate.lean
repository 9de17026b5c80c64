import OpcBridge.Core.Snapshot
import OpcBridge.Lib.History
import OpcBridge.Lib.Run

/-!
# A read gate over its history

`PollReadGate` keeps an epoch, a boundary and a flag, and three operations change them on their own.
`GateHistory` reads all three off the list of operations: the gate is active unless the last
operation was a suspension, its epoch is the one of the latest restart, and its boundary is the
time of the latest wake, which is a restart or a resume right after a suspension. What the gate
calls good goes from there back to the history (`good_read_since_wake`).
-/

namespace OpcBridge

open Lib

inductive GateOp
  | restart (epoch : Nat)
  | suspend
  | resume
deriving DecidableEq

/-- An operation and its time. -/
structure GateCall where
  op : GateOp
  time : Nat
deriving DecidableEq

def PollReadGate.call (gate : PollReadGate) (call : GateCall) : PollReadGate :=
  match call.op with
  | .restart epoch => .restart epoch call.time
  | .suspend => gate.suspend
  | .resume => gate.resume call.time

/-- The gate of a new owner after some operations. -/
def gateAfter (calls : List GateCall) : PollReadGate := run PollReadGate.call {} calls

/-! ## Reading the history -/

/-- The last operation is a suspension. -/
def Suspended (calls : List GateCall) : Prop :=
  ∃ call, calls.getLast? = some call ∧ call.op = .suspend

def IsRestart (_ : List GateCall) (call : GateCall) : Prop := ∃ epoch, call.op = .restart epoch

/-- A restart, or a resume that follows a suspension. -/
def IsWake (before : List GateCall) (call : GateCall) : Prop :=
  IsRestart before call ∨ call.op = .resume ∧ Suspended before

/-- The epoch of the latest restart, 0 before any. -/
def LastEpoch (calls : List GateCall) (epoch : Nat) : Prop :=
  (∃ before call, Latest IsRestart calls before call ∧ call.op = .restart epoch) ∨
    Never IsRestart calls ∧ epoch = 0

/-- The time of the latest wake, the default time point before any. -/
def LastWake (calls : List GateCall) (time : Nat) : Prop :=
  (∃ before call, Latest IsWake calls before call ∧ call.time = time) ∨
    Never IsWake calls ∧ time = 0

/-- The operations come in the order of their times. -/
def InOrder (calls : List GateCall) : Prop := calls.Pairwise fun a b => a.time ≤ b.time

/-- What the gate remembers of its history. -/
structure GateHistory (calls : List GateCall) (gate : PollReadGate) : Prop where
  active : gate.active = true ↔ ¬ Suspended calls
  epoch : LastEpoch calls gate.epoch
  after : LastWake calls gate.after

@[simp] theorem suspended_snoc {calls : List GateCall} {call : GateCall} :
    Suspended (calls ++ [call]) ↔ call.op = .suspend := by
  simp [Suspended]

theorem LastEpoch.snoc {calls : List GateCall} {call : GateCall} {epoch : Nat}
    (h : LastEpoch calls epoch) (hc : ¬ IsRestart calls call) : LastEpoch (calls ++ [call]) epoch := by
  obtain ⟨before, last, hl, he⟩ | ⟨hn, he⟩ := h
  · exact .inl ⟨before, last, (latest_snoc hc).2 hl, he⟩
  · exact .inr ⟨never_snoc.2 ⟨hn, hc⟩, he⟩

theorem LastWake.snoc {calls : List GateCall} {call : GateCall} {time : Nat}
    (h : LastWake calls time) (hc : ¬ IsWake calls call) : LastWake (calls ++ [call]) time := by
  obtain ⟨before, last, hl, ht⟩ | ⟨hn, ht⟩ := h
  · exact .inl ⟨before, last, (latest_snoc hc).2 hl, ht⟩
  · exact .inr ⟨never_snoc.2 ⟨hn, hc⟩, ht⟩

/-- One operation. -/
theorem GateHistory.call {calls : List GateCall} {gate : PollReadGate}
    (h : GateHistory calls gate) (call : GateCall) :
    GateHistory (calls ++ [call]) (gate.call call) := by
  obtain ⟨op, time⟩ := call
  cases op with
  | restart epoch =>
    have hr : IsRestart calls ⟨.restart epoch, time⟩ := ⟨epoch, rfl⟩
    exact {
      active := by simp [PollReadGate.call, PollReadGate.restart]
      epoch := .inl ⟨calls, _, latest_snoc_self hr, rfl⟩
      after := .inl ⟨calls, _, latest_snoc_self (P := IsWake) (.inl hr), rfl⟩ }
  | suspend =>
    exact {
      active := by simp [PollReadGate.call, PollReadGate.suspend]
      epoch := h.epoch.snoc (by simp [IsRestart])
      after := h.after.snoc (by simp [IsWake, IsRestart]) }
  | resume =>
    have hr : ¬ IsRestart calls ⟨.resume, time⟩ := by simp [IsRestart]
    by_cases ha : gate.active = true
    · -- a redundant resume
      have hsame : gate.call ⟨.resume, time⟩ = gate := by
        simp [PollReadGate.call, PollReadGate.resume, ha]
      rw [hsame]
      have hw : ¬ IsWake calls ⟨.resume, time⟩ := by
        rintro (hw | ⟨-, hw⟩)
        · exact hr hw
        · exact h.active.1 ha hw
      exact ⟨by simp [ha], h.epoch.snoc hr, h.after.snoc hw⟩
    · have hw : IsWake calls ⟨.resume, time⟩ := .inr ⟨rfl, not_not.1 (mt h.active.2 ha)⟩
      have hg : gate.call ⟨.resume, time⟩ = { gate with active := true, after := time } := by
        simp [PollReadGate.call, PollReadGate.resume, ha]
      rw [hg]
      exact ⟨by simp, h.epoch.snoc hr, .inl ⟨calls, _, latest_snoc_self hw, rfl⟩⟩

theorem gateAfter_history (calls : List GateCall) : GateHistory calls (gateAfter calls) := by
  unfold gateAfter
  refine run_history (P := GateHistory) ?_ (fun calls call h => h.call call) calls
  exact ⟨by simp [Suspended], .inr ⟨never_nil, rfl⟩, .inr ⟨never_nil, rfl⟩⟩

/-- With the operations in order no wake is later than the boundary. -/
theorem wake_le_after {calls before : List GateCall} {call : GateCall} (ho : InOrder calls)
    (hh : Happens calls before call) (hw : IsWake before call) :
    call.time ≤ (gateAfter calls).after := by
  obtain ⟨before', last, hl, ht⟩ | ⟨hn, -⟩ := (gateAfter_history calls).after
  · rw [← ht]
    have hlen := hl.last before call hh hw
    rcases hlen.eq_or_lt with heq | hlt
    · rw [(hh.unique hl.happens heq).2]
    · -- an earlier place of the list, so no later time
      have hb : before ++ [call] <+: before' :=
        List.prefix_of_prefix_length_le hh
          ((List.prefix_append before' [last]).trans hl.happens) (by simpa using Nat.succ_le_of_lt hlt)
      have hp : (before' ++ [last]).Pairwise fun a b => a.time ≤ b.time :=
        ho.sublist hl.happens.sublist
      exact (List.pairwise_append.1 hp).2.2 call (hb.subset (by simp)) last (by simp)
  · exact absurd hw (hn before call hh)

/-! ## Good reads -/

section
variable [Floats]

theorem PollReadGate.started_le_of_quality_good {gate : PollReadGate} {stamp : PollReadStamp}
    {good : Bool} {now : Nat} (h : gate.quality stamp good now = .good) :
    stamp.started ≤ stamp.completed := by
  unfold quality at h
  split_ifs at h with h1 h2 h3
  exact (PollReadStamp.of_satisfiesAge h3).2.2.1

/-- **What the gate calls good**: the gate is not suspended, and the read is one of the driver of the
latest restart that started at the latest wake or later and is over. A read that started before any
wake of the history is not good, and a redundant resume changes nothing. -/
theorem good_read_since_wake (calls : List GateCall) (ho : InOrder calls) (stamp : PollReadStamp)
    (good : Bool) (now : Nat) :
    ((gateAfter calls).quality stamp good now = .good →
      (gateAfter calls).active = true ∧ ¬ Suspended calls ∧ LastEpoch calls stamp.sourceEpoch ∧
      (∃ time, LastWake calls time ∧ time ≤ stamp.started) ∧
      stamp.started ≤ stamp.completed ∧ stamp.completed ≤ now) ∧
    (∀ before call, Happens calls before call → IsWake before call → stamp.started < call.time →
      (gateAfter calls).quality stamp good now ≠ .good) ∧
    ∀ time, ¬ Suspended calls → gateAfter (calls ++ [⟨.resume, time⟩]) = gateAfter calls := by
  have hh := gateAfter_history calls
  refine ⟨fun hq => ?_, fun before call hcall hw hlt hq => ?_, fun time hs => ?_⟩
  · obtain ⟨ha, -, he, ht, hc⟩ := PollReadGate.of_quality_good hq
    have hle : stamp.started ≤ stamp.completed := PollReadGate.started_le_of_quality_good hq
    exact ⟨ha, hh.active.1 ha, he ▸ hh.epoch, ⟨_, hh.after, ht⟩, hle, hc⟩
  · have hle := wake_le_after ho hcall hw
    have ht := (PollReadGate.of_quality_good hq).2.2.2.1
    omega
  · have ha : (gateAfter calls).active = true := hh.active.2 hs
    unfold gateAfter at ha ⊢
    rw [run_append]
    simp [PollReadGate.call, PollReadGate.resume, ha]

end

section
attribute [local instance] intFloats

/-- A suspension during a read. -/
theorem read_across_suspension :
    InOrder [⟨.restart 1, 10⟩, ⟨.suspend, 20⟩, ⟨.resume, 30⟩] ∧
      (gateAfter [⟨.restart 1, 10⟩, ⟨.suspend, 20⟩, ⟨.resume, 30⟩]).quality ⟨15, 40, 1⟩ true 50 ≠
        .good := by
  have ho : InOrder [⟨.restart 1, 10⟩, ⟨.suspend, 20⟩, ⟨.resume, 30⟩] := by simp [InOrder]
  have hw : IsWake [⟨.restart 1, 10⟩, ⟨.suspend, 20⟩] ⟨.resume, 30⟩ := .inr ⟨rfl, by simp [Suspended]⟩
  exact ⟨ho, (good_read_since_wake _ ho ⟨15, 40, 1⟩ true 50).2.1 _ _ (happens_self [_, _] _) hw
    (by decide)⟩

end

end OpcBridge
