import Mathlib.Data.List.Induction

/-!
# Runs of an event-driven step function

A system is a total function `step : σ → ε → σ`; an event that is not enabled leaves the state
alone. `run` folds a list of events, `Along step ok s es` says that every event of the run meets
`ok` in the state it meets, and `run_invariant` is the induction rule: what each admitted step
keeps, each admitted run keeps. `run_step` gives facts about single steps inside a run.
-/

namespace Lib

variable {σ ε : Type*}

/-- The state after a list of events. -/
def run (step : σ → ε → σ) (s : σ) (es : List ε) : σ := es.foldl step s

@[simp] theorem run_nil (step : σ → ε → σ) (s : σ) : run step s [] = s := rfl

@[simp] theorem run_cons (step : σ → ε → σ) (s : σ) (e : ε) (es : List ε) :
    run step s (e :: es) = run step (step s e) es := rfl

theorem run_append (step : σ → ε → σ) (s : σ) (es fs : List ε) :
    run step s (es ++ fs) = run step (run step s es) fs := List.foldl_append

/-- Every event of the run meets `ok` in the state in which it happens. -/
def Along (step : σ → ε → σ) (ok : σ → ε → Prop) : σ → List ε → Prop
  | _, [] => True
  | s, e :: es => ok s e ∧ Along step ok (step s e) es

@[simp] theorem along_nil (step : σ → ε → σ) (ok : σ → ε → Prop) (s : σ) : Along step ok s [] :=
  trivial

@[simp] theorem along_cons (step : σ → ε → σ) (ok : σ → ε → Prop) (s : σ) (e : ε) (es : List ε) :
    Along step ok s (e :: es) ↔ ok s e ∧ Along step ok (step s e) es := Iff.rfl

theorem along_append {step : σ → ε → σ} {ok : σ → ε → Prop} {s : σ} {es fs : List ε} :
    Along step ok s (es ++ fs) ↔ Along step ok s es ∧ Along step ok (run step s es) fs := by
  induction es generalizing s with
  | nil => simp
  | cons e es ih => simp only [List.cons_append, along_cons, ih, run_cons, and_assoc]

/-- **The invariant rule.** -/
theorem run_invariant {step : σ → ε → σ} {ok : σ → ε → Prop} {I : σ → Prop}
    (hstep : ∀ s e, I s → ok s e → I (step s e)) {s : σ} {es : List ε} (hs : I s)
    (hok : Along step ok s es) : I (run step s es) := by
  induction es generalizing s with
  | nil => exact hs
  | cons e es ih => exact ih (hstep s e hs hok.1) hok.2

/-- The invariant rule where every event is admitted. -/
theorem run_induct {step : σ → ε → σ} {I : σ → Prop} (hstep : ∀ s e, I s → I (step s e)) {s : σ}
    (hs : I s) (es : List ε) : I (run step s es) := by
  induction es generalizing s with
  | nil => exact hs
  | cons e es ih => exact ih (hstep s e hs)

theorem along_of_forall {step : σ → ε → σ} {ok : ε → Prop} {s : σ} {es : List ε}
    (h : ∀ e ∈ es, ok e) : Along step (fun _ e => ok e) s es := by
  induction es generalizing s with
  | nil => trivial
  | cons e es ih => exact ⟨h e (by simp), ih fun e he => h e (List.mem_cons_of_mem _ he)⟩

theorem Along.mono {step : σ → ε → σ} {ok ok' : σ → ε → Prop} (h : ∀ s e, ok s e → ok' s e) {s : σ}
    {es : List ε} (hok : Along step ok s es) : Along step ok' s es := by
  induction es generalizing s with
  | nil => trivial
  | cons e es ih => exact ⟨h s e hok.1, ih hok.2⟩

instance decidableAlong (step : σ → ε → σ) (ok : σ → ε → Prop) [∀ s e, Decidable (ok s e)] :
    ∀ s es, Decidable (Along step ok s es)
  | _, [] => .isTrue trivial
  | s, e :: es =>
    have := decidableAlong step ok (step s e) es
    inferInstanceAs (Decidable (ok s e ∧ Along step ok (step s e) es))

/-- What an admitted step from the invariant does, every step of an admitted run does. -/
theorem along_invariant {step : σ → ε → σ} {ok did : σ → ε → Prop} {I : σ → Prop}
    (hstep : ∀ s e, I s → ok s e → I (step s e)) (hdid : ∀ s e, I s → ok s e → did s e)
    {s : σ} {es : List ε} (hs : I s) (hok : Along step ok s es) : Along step did s es := by
  induction es generalizing s with
  | nil => trivial
  | cons e es ih => exact ⟨hdid s e hs hok.1, ih (hstep s e hs hok.1) hok.2⟩

/-- Two properties of a step that agree where the invariant holds agree along a run: the invariant
needs the first one to be kept. -/
theorem along_iff {step : σ → ε → σ} {ok P Q : σ → ε → Prop} {I : σ → Prop}
    (hstep : ∀ s e, I s → ok s e → P s e → I (step s e))
    (hiff : ∀ s e, I s → ok s e → (P s e ↔ Q s e)) {s : σ} {es : List ε} (hs : I s)
    (hok : Along step ok s es) : Along step P s es ↔ Along step Q s es := by
  induction es generalizing s with
  | nil => exact Iff.rfl
  | cons e es ih =>
    refine (and_congr_left' (hiff s e hs hok.1)).trans (and_congr_right fun hQ => ?_)
    exact ih (hstep s e hs hok.1 ((hiff s e hs hok.1).2 hQ)) hok.2

/-- A step inside an admitted run starts from a state that keeps the invariant. -/
theorem run_step {step : σ → ε → σ} {ok : σ → ε → Prop} {I : σ → Prop}
    (hstep : ∀ s e, I s → ok s e → I (step s e)) {s : σ} {es fs : List ε} {e : ε} (hs : I s)
    (hok : Along step ok s (es ++ e :: fs)) : I (run step s es) ∧ ok (run step s es) e := by
  obtain ⟨h1, h2, -⟩ := along_append.1 hok
  exact ⟨run_invariant hstep hs h1, h2⟩

/-- Induction over the history of a run: what it says of a run and the state reached is kept by one
more event. -/
theorem run_history {step : σ → ε → σ} {P : List ε → σ → Prop} {s : σ} (h0 : P [] s)
    (hstep : ∀ es e, P es (run step s es) → P (es ++ [e]) (step (run step s es) e))
    (es : List ε) : P es (run step s es) := by
  induction es using List.reverseRecOn with
  | nil => exact h0
  | append_singleton es e ih =>
    rw [run_append]
    exact hstep es e ih

end Lib
