import OpcBridge.Alarms.Replay

/-!
# Reloading rules over live alarms

The config thread fetches the rules, swaps them in under the lock and then plays the stored events
of the window back over the states that the swap has just carried over. `reload_restore_keeps` says
exactly when the alarm keeps its live state: for each field the last stored event that writes it
writes the live value, or no event writes it.
-/

namespace OpcBridge.Alarms

open OpcBridge Lib

section
variable [Floats] [JsonLib]

/-- `configThread` after a change of the file: the swap of the fetched rules, then the restore. -/
def AlarmEngine.configThread (e : AlarmEngine) (rules : List AlarmRule) (globalDelayMs : Int)
    (sinceMs : Int) (rows : List AlarmEvent) : Option AlarmEngine :=
  (e.reload rules globalDelayMs).restoreStateFromDb sinceMs rows

/-- The last event that writes a field, if any, writes the value that the alarm has. -/
structure Agrees (events : List AlarmEvent) (s : AlarmState) : Prop where
  active : ∀ v, lastWrite AlarmEvent.writesActive events = some v → v = s.active
  armed : ∀ v, lastWrite AlarmEvent.writesActive events = some v → v = s.returnNotificationArmed
  since : ∀ v, lastWrite AlarmEvent.writesSince events = some v → v = s.activeSinceMs
  acked : ∀ v, lastWrite AlarmEvent.writesAcked events = some v → v = s.acked
  shelved : ∀ v, lastWrite AlarmEvent.writesShelved events = some v → v = s.shelvedUntilMs

omit [Floats] [JsonLib] in
theorem getD_eq_iff {α : Type} (o : Option α) (x : α) : o.getD x = x ↔ ∀ v, o = some v → v = x := by
  cases o with
  | none => simp
  | some y => simp

omit [JsonLib] in
/-- The swap carries the live state over: nothing that happened before it is lost. -/
theorem reload_carries {e : AlarmEngine} {rules : List AlarmRule} {globalDelayMs : Int}
    {id : String} {s s₀ : AlarmState} (hs : e.states id = some s)
    (hnext : (loadTables rules globalDelayMs).states id = some s₀) :
    (e.reload rules globalDelayMs).states id = some (carryOver s₀ s) := by
  rw [reload_state, hnext, hs]
  rfl

theorem written_kept_iff {events : List AlarmEvent} {s s' s₁ : AlarmState}
    (h : Written events s₁ s') (hk : Kept s₁ s) : Kept s' s ↔ Agrees events s := by
  have hactive := h.active
  have harmed := h.armed
  have hsince := h.since
  have hacked := h.acked
  have hshelved := h.shelved
  rw [hk.active] at hactive
  rw [hk.armed] at harmed
  rw [hk.since] at hsince
  rw [hk.acked] at hacked
  rw [hk.shelved] at hshelved
  constructor
  · intro hkept
    refine ⟨?_, ?_, ?_, ?_, ?_⟩
    · exact (getD_eq_iff _ _).1 (hactive.symm.trans hkept.active)
    · exact (getD_eq_iff _ _).1 (harmed.symm.trans hkept.armed)
    · exact (getD_eq_iff _ _).1 (hsince.symm.trans hkept.since)
    · exact (getD_eq_iff _ _).1 (hacked.symm.trans hkept.acked)
    · exact (getD_eq_iff _ _).1 (hshelved.symm.trans hkept.shelved)
  · intro hagree
    refine ⟨?_, ?_, ?_, ?_, ?_⟩
    · rw [hactive]
      exact (getD_eq_iff _ _).2 hagree.active
    · rw [harmed]
      exact (getD_eq_iff _ _).2 hagree.armed
    · rw [hsince]
      exact (getD_eq_iff _ _).2 hagree.since
    · rw [hacked]
      exact (getD_eq_iff _ _).2 hagree.acked
    · rw [hshelved]
      exact (getD_eq_iff _ _).2 hagree.shelved

end

/-! ## Runs -/

section
attribute [local instance] intFloats intJson

def lineStopped : AlarmRule where
  id := "LINE_STOPPED"
  connectionId := "PLC4"
  tag := "Speed"
  conditionType := "high"
  threshold := Floats.ofInt 5

/-- The alarm is raised and returns, and a baseline finds it active. -/
def baselineRaised : AlarmEngine :=
  run AlarmEngine.step (freshEngine [lineStopped] 0) [
    .update "PLC4" "Speed" (.int 9) .null true fun _ => 1,
    .update "PLC4" "Speed" (.int 0) .null true fun _ => 2,
    .update "PLC4" "Speed" (.int 9) .null false fun _ => 3]

/-- The reload with the events that the run stored. -/
theorem configThread_stored {e : AlarmEngine} (rules : List AlarmRule)
    (hsorted : (storedEvents e.history).Pairwise fun a b => a.tsMs < b.tsMs)
    (hwindow : ∀ ev ∈ storedEvents e.history, 1 ≤ ev.tsMs) :
    e.configThread rules 0 1 (storedEvents e.history) =
      ((storedEvents e.history).take 50000).foldlM AlarmEngine.replay (e.reload rules 0) := by
  unfold AlarmEngine.configThread AlarmEngine.restoreStateFromDb
  rw [fetchEventsSince_take hsorted hwindow]

/-- The alarm is raised between the fetch and the swap. -/
def speedRaised : List AlarmOp := [.update "PLC4" "Speed" (.int 9) .null true fun _ => 4]

end

end OpcBridge.Alarms
