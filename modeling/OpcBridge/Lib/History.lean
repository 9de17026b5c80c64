import Mathlib.Data.List.Infix
import OpcBridge.Lib.Run

/-!
# The latest event of a kind in a history

A history is a list of events, oldest first; an event `e` of it happens after the events `pre` where
`pre ++ [e]` is a prefix. `P pre e` says that the event counts, given what came before it. `Latest`
is the latest event that counts and `Never` says that there is none; both go along one more event by
`latest_snoc` and `never_snoc`. `Unbroken P Q` is an event that counts and from which on no event
breaks it (`unbroken_snoc`). `outputs` collects what the events of a run put out.
-/

namespace Lib

variable {ε : Type*}

/-- `e` happens after the events `pre`. -/
def Happens (es pre : List ε) (e : ε) : Prop := pre ++ [e] <+: es

/-- No event counts. -/
def Never (P : List ε → ε → Prop) (es : List ε) : Prop := ∀ pre e, Happens es pre e → ¬ P pre e

/-- The latest event that counts. -/
structure Latest (P : List ε → ε → Prop) (es pre : List ε) (e : ε) : Prop where
  happens : Happens es pre e
  counts : P pre e
  last : ∀ pre' e', Happens es pre' e' → P pre' e' → pre'.length ≤ pre.length

theorem happens_snoc {es pre : List ε} {e x : ε} :
    Happens (es ++ [e]) pre x ↔ (pre = es ∧ x = e) ∨ Happens es pre x := by
  unfold Happens
  rw [List.prefix_concat_iff]
  refine or_congr_left ⟨fun h => ?_, ?_⟩
  · simpa using List.append_inj' h rfl
  · rintro ⟨rfl, rfl⟩
    rfl

/-- The last event happens after all the others. -/
theorem happens_self (es : List ε) (e : ε) : Happens (es ++ [e]) es e := List.prefix_refl _

@[simp] theorem not_happens_nil {pre : List ε} {e : ε} : ¬ Happens [] pre e := by
  simp [Happens]

theorem Happens.snoc {es pre : List ε} {e x : ε} (h : Happens es pre x) :
    Happens (es ++ [e]) pre x := happens_snoc.2 (.inr h)

theorem Happens.lt {es pre : List ε} {e : ε} (h : Happens es pre e) :
    pre.length < es.length := by
  have := h.length_le
  simp only [List.length_append, List.length_cons, List.length_nil] at this
  omega

/-- The events of a history that is given as a list. -/
theorem happens_cons {es pre : List ε} {e x : ε} :
    Happens (x :: es) pre e ↔
      (pre = [] ∧ e = x) ∨ ∃ pre', pre = x :: pre' ∧ Happens es pre' e := by
  unfold Happens
  cases pre with
  | nil => simp
  | cons y pre => simp [and_comm]

theorem Happens.mem {es pre : List ε} {e : ε} (h : Happens es pre e) : e ∈ es :=
  h.subset (by simp)

/-- Two events at one place of a history are one. -/
theorem Happens.unique {es pre pre' : List ε} {e e' : ε} (h : Happens es pre e)
    (h' : Happens es pre' e') (hlen : pre.length = pre'.length) : pre = pre' ∧ e = e' := by
  have heq : pre ++ [e] = pre' ++ [e'] := by
    refine (List.prefix_of_prefix_length_le h h' ?_).eq_of_length ?_ <;> simp [hlen]
  simpa using List.append_inj heq hlen

theorem Happens.of_part {es es' pre : List ε} {e : ε} (h : Happens es pre e) (hes : es <+: es') :
    Happens es' pre e := h.trans hes

/-- Induction over a history that goes on. -/
theorem prefix_induct {Q : List ε → Prop} {es es' : List ε} (hes : es <+: es') (h : Q es)
    (hstep : ∀ pre e, es <+: pre → Happens es' pre e → Q pre → Q (pre ++ [e])) : Q es' := by
  obtain ⟨rest, rfl⟩ := hes
  induction rest using List.reverseRecOn with
  | nil => rwa [List.append_nil]
  | append_singleton rest x ih =>
    rw [← List.append_assoc] at hstep ⊢
    refine hstep _ _ (List.prefix_append _ _) (happens_self _ _) (ih fun pre e hpre he => ?_)
    exact hstep pre e hpre he.snoc

section
variable {P : List ε → ε → Prop} {es pre : List ε} {e x : ε}

theorem never_nil : Never P [] := fun _ _ h => absurd h not_happens_nil

theorem never_snoc : Never P (es ++ [e]) ↔ Never P es ∧ ¬ P es e := by
  constructor
  · intro h
    exact ⟨fun pre x hx => h pre x hx.snoc, h es e (happens_self es e)⟩
  · rintro ⟨h, he⟩ pre x hx
    obtain ⟨rfl, rfl⟩ | hx := happens_snoc.1 hx
    · exact he
    · exact h pre x hx

/-- An event that counts is the latest. -/
theorem latest_snoc_self (h : P es e) : Latest P (es ++ [e]) es e where
  happens := happens_self es e
  counts := h
  last pre' e' h' _ := by
    obtain ⟨rfl, -⟩ | h' := happens_snoc.1 h'
    · exact le_rfl
    · exact h'.lt.le

theorem latest_snoc (h : ¬ P es e) : Latest P (es ++ [e]) pre x ↔ Latest P es pre x := by
  constructor
  · intro hl
    refine ⟨?_, hl.counts, fun pre' e' h' hp => hl.last pre' e' h'.snoc hp⟩
    obtain ⟨rfl, rfl⟩ | hx := happens_snoc.1 hl.happens
    · exact absurd hl.counts h
    · exact hx
  · intro hl
    refine ⟨hl.happens.snoc, hl.counts, fun pre' e' h' hp => ?_⟩
    obtain ⟨rfl, rfl⟩ | hx := happens_snoc.1 h'
    · exact absurd hp h
    · exact hl.last pre' e' hx hp

theorem Latest.unique {pre' : List ε} {x' : ε} (h : Latest P es pre x)
    (h' : Latest P es pre' x') : pre = pre' ∧ x = x' :=
  h.happens.unique h'.happens
    (le_antisymm (h'.last _ _ h.happens h.counts) (h.last _ _ h'.happens h'.counts))

/-- A history where some event counts has a latest one. -/
theorem exists_latest (h : Happens es pre x) (hp : P pre x) : ∃ pre' x', Latest P es pre' x' := by
  induction es using List.reverseRecOn with
  | nil => exact absurd h not_happens_nil
  | append_singleton es e ih =>
    by_cases he : P es e
    · exact ⟨es, e, latest_snoc_self he⟩
    · obtain ⟨rfl, rfl⟩ | hx := happens_snoc.1 h
      · exact absurd hp he
      · obtain ⟨pre', x', hl⟩ := ih hx
        exact ⟨pre', x', (latest_snoc he).2 hl⟩

end

/-- An event that counts, and no event breaks it, neither itself nor a later one. -/
structure Unbroken (P Q : List ε → ε → Prop) (es pre : List ε) (e : ε) : Prop where
  happens : Happens es pre e
  counts : P pre e
  kept : ∀ pre' e', Happens es pre' e' → pre.length ≤ pre'.length → ¬ Q pre' e'

theorem unbroken_snoc {P Q : List ε → ε → Prop} {es pre : List ε} {e x : ε} :
    Unbroken P Q (es ++ [x]) pre e ↔
      ¬ Q es x ∧ (Unbroken P Q es pre e ∨ pre = es ∧ e = x ∧ P es x) := by
  constructor
  · intro h
    have hlast : ¬ Q es x := by
      refine h.kept es x (happens_self es x) ?_
      have hlt := h.happens.lt
      rw [List.length_append, List.length_singleton] at hlt
      omega
    refine ⟨hlast, ?_⟩
    rcases happens_snoc.1 h.happens with ⟨rfl, rfl⟩ | hbefore
    · exact .inr ⟨rfl, rfl, h.counts⟩
    · exact .inl ⟨hbefore, h.counts, fun pre' e' h' => h.kept pre' e' h'.snoc⟩
  · rintro ⟨hlast, h | ⟨rfl, rfl, hcounts⟩⟩
    · refine ⟨h.happens.snoc, h.counts, fun pre' e' h' hle => ?_⟩
      rcases happens_snoc.1 h' with ⟨rfl, rfl⟩ | hbefore
      · exact hlast
      · exact h.kept pre' e' hbefore hle
    · refine ⟨happens_self _ _, hcounts, fun pre' e' h' hle => ?_⟩
      rcases happens_snoc.1 h' with ⟨rfl, rfl⟩ | hbefore
      · exact hlast
      · exact absurd hbefore.lt (by omega)

/-! ## Outputs -/

section
variable {σ α : Type*} (step : σ → ε → σ) (f : σ → ε → List α)

/-- What the events of a run put out, in order. -/
def outputs (s : σ) : List ε → List α
  | [] => []
  | e :: es => f s e ++ outputs (step s e) es

theorem outputs_snoc (s : σ) (es : List ε) (e : ε) :
    outputs step f s (es ++ [e]) = outputs step f s es ++ f (run step s es) e := by
  induction es generalizing s with
  | nil => simp [outputs]
  | cons x es ih => rw [List.cons_append, outputs, outputs, ih, run_cons, List.append_assoc]

/-- Nothing is put out exactly if no event puts anything out. -/
theorem outputs_eq_nil {s : σ} {es : List ε} :
    outputs step f s es = [] ↔ ∀ pre e, Happens es pre e → f (run step s pre) e = [] := by
  induction es using List.reverseRecOn with
  | nil => simp [outputs]
  | append_singleton es x ih =>
    rw [outputs_snoc, List.append_eq_nil_iff, ih]
    constructor
    · rintro ⟨h, hx⟩ pre e he
      obtain ⟨rfl, rfl⟩ | he := happens_snoc.1 he
      · exact hx
      · exact h pre e he
    · intro h
      exact ⟨fun pre e he => h pre e he.snoc, h es x (happens_self es x)⟩

/-- Outputs that are split event by event are split as a whole. -/
theorem outputs_perm {g k : σ → ε → List α} (h : ∀ s e, (f s e).Perm (g s e ++ k s e)) (s : σ)
    (es : List ε) : (outputs step f s es).Perm (outputs step g s es ++ outputs step k s es) := by
  induction es generalizing s with
  | nil => exact .nil
  | cons x es ih =>
    unfold outputs
    refine ((h s x).append (ih (step s x))).trans ?_
    rw [List.append_assoc, List.append_assoc]
    refine List.Perm.append_left _ ?_
    rw [← List.append_assoc, ← List.append_assoc]
    exact List.perm_append_comm.append_right _

end

end Lib
