import OpcBridge.Lib.History

/-!
# Recovery of a Modbus connection

`ModbusConnectionRecovery` looks at the read counters of a whole connection and asks for a new
transport after thirty seconds with errors and without a success. It keeps two counters, a flag and
a time. What it answers is said over all observations: there is one with a new error, thirty seconds
old, and since then nothing has broken the failure (`observe_iff`).
-/

namespace OpcBridge

open Lib

structure ModbusConnectionRecovery where
  lastOk : Nat := 0
  lastErr : Nat := 0
  failing : Bool := false
  failureSince : Int := 0

namespace ModbusConnectionRecovery

/-- The state after the observation, and the answer. -/
def observe (s : ModbusConnectionRecovery) (ok errors : Nat) (now : Int) :
    ModbusConnectionRecovery × Bool :=
  let failing := if ok ≠ s.lastOk ∨ errors < s.lastErr then false else s.failing
  let newError := decide (s.lastErr < errors)
  let newSuccess := decide (ok ≠ s.lastOk)
  let s := { s with lastOk := ok, lastErr := errors, failing := failing }
  if newSuccess then (s, false)
  else
    let s := if newError && !s.failing then { s with failing := true, failureSince := now } else s
    (s, s.failing && decide (30000000000 ≤ now - s.failureSince))

def reset (s : ModbusConnectionRecovery) (now : Int) : ModbusConnectionRecovery :=
  { s with failing := false, failureSince := now }

end ModbusConnectionRecovery

inductive RecoveryCall
  | observe (ok errors : Nat) (now : Int)
  | reset (now : Int)

namespace RecoveryCall

def time : RecoveryCall → Int
  | observe _ _ now => now
  | reset now => now

/-- The counters that a call reports, those of before where it reports none. -/
def counters (before : Nat × Nat) : RecoveryCall → Nat × Nat
  | observe ok errors _ => (ok, errors)
  | reset _ => before

end RecoveryCall

def ModbusConnectionRecovery.call (s : ModbusConnectionRecovery) :
    RecoveryCall → ModbusConnectionRecovery
  | .observe ok errors now => (s.observe ok errors now).1
  | .reset now => s.reset now

/-! ## The observations -/

/-- The counters reported last. -/
def lastCounters (calls : List RecoveryCall) : Nat × Nat := calls.foldl RecoveryCall.counters (0, 0)

theorem lastCounters_snoc (calls : List RecoveryCall) (call : RecoveryCall) :
    lastCounters (calls ++ [call]) = call.counters (lastCounters calls) := by
  rw [lastCounters, List.foldl_append]
  rfl

/-- An observation that reports an increased error count. -/
def ReportsError (calls : List RecoveryCall) : RecoveryCall → Prop
  | .observe _ errors _ => (lastCounters calls).2 < errors
  | .reset _ => False

/-- A reset, or an observation with another ok count or a decreased error count. -/
def EndsFailure (calls : List RecoveryCall) : RecoveryCall → Prop
  | .observe ok errors _ => ok ≠ (lastCounters calls).1 ∨ errors < (lastCounters calls).2
  | .reset _ => True

/-- An error that nothing has ended since. -/
def OpenFailure (calls pre : List RecoveryCall) (call : RecoveryCall) : Prop :=
  Unbroken ReportsError EndsFailure calls pre call

def Forward (calls : List RecoveryCall) : Prop := calls.Pairwise fun a b => a.time ≤ b.time

theorem Forward.init {calls : List RecoveryCall} {call : RecoveryCall}
    (h : Forward (calls ++ [call])) : Forward calls ∧ ∀ c ∈ calls, c.time ≤ call.time := by
  obtain ⟨hinit, -, hlast⟩ := List.pairwise_append.1 h
  exact ⟨hinit, fun c hc => hlast c hc call (List.mem_singleton.2 rfl)⟩

/-! ## The state -/

/-- The failure of the state is the first of the open ones. -/
structure RecoveryInv (calls : List RecoveryCall) (s : ModbusConnectionRecovery) : Prop where
  counters : (s.lastOk, s.lastErr) = lastCounters calls
  first : s.failing = true →
    ∃ pre call, OpenFailure calls pre call ∧ call.time = s.failureSince
  others : ∀ pre call, OpenFailure calls pre call → s.failing = true ∧ s.failureSince ≤ call.time

theorem recoveryInv_nil : RecoveryInv [] {} where
  counters := rfl
  first h := by cases h
  others pre call h := absurd h.happens not_happens_nil

section
variable {calls : List RecoveryCall} {s : ModbusConnectionRecovery}

theorem observe_ends {ok errors : Nat} (now : Int) (h : ok ≠ s.lastOk ∨ errors < s.lastErr) :
    s.observe ok errors now =
      ({ s with lastOk := ok, lastErr := errors, failing := false }, false) := by
  unfold ModbusConnectionRecovery.observe
  rw [if_pos h]
  rcases h with hok | herr
  · simp [hok]
  · have hold : ¬ s.lastErr < errors := by omega
    simp [hold]

theorem observe_goes_on {ok errors : Nat} (now : Int)
    (h : ¬ (ok ≠ s.lastOk ∨ errors < s.lastErr)) :
    s.observe ok errors now =
      let t := { s with
        lastOk := ok, lastErr := errors
        failing := s.failing || decide (s.lastErr < errors)
        failureSince := if s.lastErr < errors ∧ s.failing = false then now else s.failureSince }
      (t, t.failing && decide (30000000000 ≤ now - t.failureSince)) := by
  unfold ModbusConnectionRecovery.observe
  rw [if_neg h]
  obtain ⟨hok, -⟩ := not_or.1 h
  cases hfailing : s.failing <;> by_cases hnew : s.lastErr < errors <;> simp [hok, hnew]

theorem RecoveryInv.breaks_iff (h : RecoveryInv calls s) (ok errors : Nat) (now : Int) :
    EndsFailure calls (.observe ok errors now) ↔ ok ≠ s.lastOk ∨ errors < s.lastErr := by
  rw [EndsFailure, ← h.counters]

theorem RecoveryInv.reports_iff (h : RecoveryInv calls s) (ok errors : Nat) (now : Int) :
    ReportsError calls (.observe ok errors now) ↔ s.lastErr < errors := by
  rw [ReportsError, ← h.counters]

/-- After a call that ends the failure nothing is open. -/
theorem recoveryInv_ended {call : RecoveryCall} (hends : EndsFailure calls call)
    (hcounters : (s.lastOk, s.lastErr) = lastCounters (calls ++ [call]))
    (hfailing : s.failing = false) : RecoveryInv (calls ++ [call]) s where
  counters := hcounters
  first h := by rw [hfailing] at h; cases h
  others _ _ h := absurd hends (unbroken_snoc.1 h).1

theorem RecoveryInv.observe (h : RecoveryInv calls s) (ok errors : Nat) (now : Int)
    (htime : ∀ c ∈ calls, c.time ≤ now) :
    RecoveryInv (calls ++ [.observe ok errors now]) (s.observe ok errors now).1 := by
  have hcounters : (ok, errors) = lastCounters (calls ++ [.observe ok errors now]) := by
    rw [lastCounters_snoc]
    rfl
  by_cases hends : ok ≠ s.lastOk ∨ errors < s.lastErr
  · rw [observe_ends now hends]
    exact recoveryInv_ended ((h.breaks_iff ok errors now).2 hends) hcounters rfl
  rw [observe_goes_on now hends]
  have hkept : ¬ EndsFailure calls (.observe ok errors now) := fun hbreak =>
    hends ((h.breaks_iff ok errors now).1 hbreak)
  refine ⟨hcounters, fun hfailing => ?_, fun pre call hopen => ?_⟩
  · cases hold : s.failing with
    | true =>
      obtain ⟨pre, call, hopen, hsince⟩ := h.first hold
      exact ⟨pre, call, unbroken_snoc.2 ⟨hkept, .inl hopen⟩, by simp [hsince]⟩
    | false =>
      have hnew : s.lastErr < errors := by simpa [hold] using hfailing
      refine ⟨calls, .observe ok errors now, unbroken_snoc.2 ⟨hkept, .inr ⟨rfl, rfl, ?_⟩⟩, ?_⟩
      · exact (h.reports_iff ok errors now).2 hnew
      · simp [hnew, RecoveryCall.time]
  · rcases (unbroken_snoc.1 hopen).2 with hbefore | ⟨rfl, rfl, hreports⟩
    · obtain ⟨hfailing, hle⟩ := h.others pre call hbefore
      simp [hfailing, hle]
    · have hnew := (h.reports_iff ok errors now).1 hreports
      cases hold : s.failing with
      | false => simp [hnew, RecoveryCall.time]
      | true =>
        obtain ⟨first, call, hfirst, hsince⟩ := h.first hold
        have hle : s.failureSince ≤ now := hsince ▸ htime call hfirst.happens.mem
        simp [RecoveryCall.time, hle]

theorem RecoveryInv.call (h : RecoveryInv calls s) (call : RecoveryCall)
    (htime : ∀ c ∈ calls, c.time ≤ call.time) : RecoveryInv (calls ++ [call]) (s.call call) := by
  cases call with
  | observe ok errors now => exact h.observe ok errors now htime
  | reset now =>
    refine recoveryInv_ended trivial ?_ rfl
    rw [lastCounters_snoc]
    exact h.counters

end

theorem recoveryInv_run (calls : List RecoveryCall) :
    Forward calls → RecoveryInv calls (run ModbusConnectionRecovery.call {} calls) :=
  run_history (P := fun calls s => Forward calls → RecoveryInv calls s) (fun _ => recoveryInv_nil)
    (fun _ call ih hforward => (ih hforward.init.1).call call hforward.init.2) calls

/-- The answer is yes if and only if an error of thirty seconds ago is still open; so it is no where
the ok count has changed or the error count has decreased. -/
theorem observe_iff {calls : List RecoveryCall} {ok errors : Nat} {now : Int}
    (h : Forward (calls ++ [.observe ok errors now])) :
    (((run ModbusConnectionRecovery.call {} calls).observe ok errors now).2 = true ↔
      ∃ pre call, OpenFailure (calls ++ [.observe ok errors now]) pre call ∧
        call.time ≤ now - 30000000000) ∧
    (EndsFailure calls (.observe ok errors now) →
      ((run ModbusConnectionRecovery.call {} calls).observe ok errors now).2 = false) := by
  have hbefore := recoveryInv_run calls h.init.1
  have hafter := hbefore.observe ok errors now h.init.2
  generalize run ModbusConnectionRecovery.call {} calls = s at hbefore hafter ⊢
  have hanswer : (s.observe ok errors now).2 = true ↔ (s.observe ok errors now).1.failing = true ∧
      (s.observe ok errors now).1.failureSince ≤ now - 30000000000 := by
    by_cases hends : ok ≠ s.lastOk ∨ errors < s.lastErr
    · rw [observe_ends now hends]
      simp
    · rw [observe_goes_on now hends]
      dsimp only
      rw [Bool.and_eq_true, decide_eq_true_eq]
      exact and_congr_right fun _ => by omega
  refine ⟨hanswer.trans ⟨?_, ?_⟩, fun hends => ?_⟩
  · rintro ⟨hfailing, hold⟩
    obtain ⟨pre, call, hopen, hsince⟩ := hafter.first hfailing
    exact ⟨pre, call, hopen, by omega⟩
  · rintro ⟨pre, call, hopen, hold⟩
    obtain ⟨hfailing, hle⟩ := hafter.others pre call hopen
    exact ⟨hfailing, by omega⟩
  · rw [observe_ends now ((hbefore.breaks_iff ok errors now).1 hends)]

/-- Errors from the first second on, and none of them a success. -/
def failingReads : List RecoveryCall :=
  [.observe 1 0 0, .observe 1 1 1000000000, .observe 1 2 29000000000]

theorem failing_reads_answered :
    (((run ModbusConnectionRecovery.call {} failingReads).observe 1 3 31000000000).2 = true ↔
      ∃ pre call, OpenFailure (failingReads ++ [.observe 1 3 31000000000]) pre call ∧
        call.time ≤ 31000000000 - 30000000000) ∧
    (EndsFailure failingReads (.observe 1 3 31000000000) →
      ((run ModbusConnectionRecovery.call {} failingReads).observe 1 3 31000000000).2 = false) :=
  observe_iff (by unfold Forward failingReads; decide)

end OpcBridge
