import OpcBridge.Historian.Recording
import OpcBridge.Lib.History

/-!
# Change-only logging

`should_log_sample` with a `TagState` for each tag. The state of a tag is the last logged update of
the tag (`tag_state`), so every decision is a comparison with that update, and the updates of other
tags do not matter (`states_filter`).
-/

namespace OpcBridge.Historian

open Lib

section
variable [Floats] {κ : Type} [DecidableEq κ]

/-- An update of a tag, by the handler's last lines. -/
def updateStep (cfg : ChangeOnlyCfg) (states : κ → TagState) (u : κ × Sample) : κ → TagState :=
  if shouldLogSample cfg u.2 (states u.1) then Function.update states u.1 u.2.logged else states

/-- The states of the tags after the updates. -/
def tagStates (cfg : ChangeOnlyCfg) (us : List (κ × Sample)) : κ → TagState :=
  run (updateStep cfg) (fun _ => {}) us

/-- The update is logged, after the updates before it. -/
def Logs (cfg : ChangeOnlyCfg) (before : List (κ × Sample)) (u : κ × Sample) : Prop :=
  shouldLogSample cfg u.2 (tagStates cfg before u.1) = true

def LogsTag (cfg : ChangeOnlyCfg) (tag : κ) (before : List (κ × Sample)) (u : κ × Sample) : Prop :=
  u.1 = tag ∧ Logs cfg before u

/-- The same quality and a value not more than the deadband away, or with the same JSON text. -/
def Close (cfg : ChangeOnlyCfg) (s last : Sample) : Prop :=
  s.quality = last.quality ∧
    match s.valueDouble, last.valueDouble with
    | some v, some w => Floats.lt cfg.deadband (absF64 (Floats.sub v w)) = false
    | none, none => s.valueJson.getD "" = last.valueJson.getD ""
    | _, _ => False

/-! ## One decision -/

variable {cfg : ChangeOnlyCfg} {s last : Sample} {st : TagState}

theorem log_first (h : st.lastLoggedMs = 0) : shouldLogSample cfg s st = true := by
  unfold shouldLogSample
  simp [h]

theorem log_late (h : cfg.maxIntervalMs ≤ s.tsMs - st.lastLoggedMs) :
    shouldLogSample cfg s st = true := by
  unfold shouldLogSample
  simp [h]

/-- What is logged comes late enough. -/
theorem log_spaced (hen : cfg.enabled = true) (hle : cfg.minIntervalMs ≤ cfg.maxIntervalMs)
    (hne : st.lastLoggedMs ≠ 0) (h : shouldLogSample cfg s st = true) :
    cfg.minIntervalMs ≤ s.tsMs - st.lastLoggedMs := by
  unfold shouldLogSample at h
  simp only [hen, Bool.not_true, Bool.false_eq_true, if_false, Bool.or_eq_true, Bool.and_eq_true,
    beq_iff_eq, decide_eq_true_eq, hne, false_or] at h
  rcases h with ⟨-, hmin⟩ | hmax
  · exact hmin
  · exact hle.trans hmax

/-- What is not logged comes early, or is close to the last logged update. -/
theorem log_close (h : shouldLogSample cfg s last.logged = false) :
    s.tsMs - last.tsMs < cfg.minIntervalMs ∨ Close cfg s last := by
  unfold shouldLogSample at h
  split at h
  · cases h
  rename_i hen
  dsimp only [Sample.logged] at h
  by_cases hearly : s.tsMs - last.tsMs < cfg.minIntervalMs
  · exact .inl hearly
  right
  have hmin : cfg.minIntervalMs ≤ s.tsMs - last.tsMs := not_lt.1 hearly
  simp only [hmin, decide_true, Bool.or_true, Bool.and_true, Bool.or_eq_false_iff, bne_eq_false_iff_eq]
    at h
  obtain ⟨⟨hquality, hvalue⟩, -⟩ := h
  refine ⟨hquality, ?_⟩
  cases hv : s.valueDouble with
  | none =>
    cases hw : last.valueDouble with
    | none => simpa [hv, hw] using hvalue
    | some w => simp [hv, hw] at hvalue
  | some v =>
    cases hw : last.valueDouble with
    | none => simp [hv, hw] at hvalue
    | some w => simpa [hv, hw] using hvalue

/-! ## The state of a tag -/

theorem tagStates_snoc (us : List (κ × Sample)) (u : κ × Sample) :
    tagStates cfg (us ++ [u]) = updateStep cfg (tagStates cfg us) u := by
  unfold tagStates
  rw [run_append]
  rfl

theorem updateStep_ne {states : κ → TagState} {u : κ × Sample} {tag : κ} (h : tag ≠ u.1) :
    updateStep cfg states u tag = states tag := by
  unfold updateStep
  split
  · exact Function.update_of_ne h _ _
  · rfl

/-- **The state of a tag** is its last logged update; a tag without one has no update at all. -/
theorem tag_state (cfg : ChangeOnlyCfg) (us : List (κ × Sample)) (tag : κ) :
    ((∀ u ∈ us, u.1 ≠ tag) ∧ tagStates cfg us tag = {}) ∨
    ∃ pre u, Latest (LogsTag cfg tag) us pre u ∧ tagStates cfg us tag = u.2.logged := by
  induction us using List.reverseRecOn with
  | nil => exact .inl ⟨fun _ hu => (by cases hu), rfl⟩
  | append_singleton us u ih =>
    rw [tagStates_snoc]
    by_cases htag : tag = u.1
    · subst htag
      by_cases hlog : shouldLogSample cfg u.2 (tagStates cfg us u.1) = true
      · refine .inr ⟨us, u, latest_snoc_self ⟨rfl, hlog⟩, ?_⟩
        rw [updateStep, if_pos hlog, Function.update_self]
      · have hsame : updateStep cfg (tagStates cfg us) u = tagStates cfg us := if_neg hlog
        rw [hsame]
        rcases ih with ⟨-, hst⟩ | ⟨pre, last, hlast, hst⟩
        · refine absurd ?_ hlog
          refine log_first ?_
          rw [hst]
        · exact .inr ⟨pre, last, (latest_snoc fun (hu : LogsTag cfg u.1 us u) => hlog hu.2).2 hlast, hst⟩
    · rw [updateStep_ne htag]
      rcases ih with ⟨hnone, hst⟩ | ⟨pre, last, hlast, hst⟩
      · refine .inl ⟨fun x hx => ?_, hst⟩
        rcases List.mem_append.1 hx with hx | hx
        · exact hnone x hx
        · rw [List.mem_singleton.1 hx]
          exact Ne.symm htag
      · exact .inr ⟨pre, last, (latest_snoc fun hu => htag hu.1.symm).2 hlast, hst⟩

/-- Only the updates of the tag matter. -/
theorem states_filter (cfg : ChangeOnlyCfg) (us : List (κ × Sample)) (tag : κ) :
    tagStates cfg us tag = tagStates cfg (us.filter fun u => u.1 = tag) tag := by
  induction us using List.reverseRecOn with
  | nil => rfl
  | append_singleton us u ih =>
    rw [tagStates_snoc, List.filter_append]
    by_cases htag : u.1 = tag
    · rw [List.filter_cons_of_pos (by simpa using htag), List.filter_nil, tagStates_snoc]
      subst htag
      unfold updateStep
      rw [← ih]
      split
      · rw [Function.update_self, Function.update_self]
      · exact ih
    · rw [List.filter_cons_of_neg (by simpa using htag), List.filter_nil, List.append_nil,
        updateStep_ne (Ne.symm htag), ih]

/-! ## Every run -/

/-- The updates of a tag come in the order of their times. -/
def InOrder (us : List (κ × Sample)) : Prop :=
  ∀ tag, (us.filter fun u => u.1 = tag).Pairwise fun a b => a.2.tsMs ≤ b.2.tsMs

theorem InOrder.le {us pre pre' : List (κ × Sample)} {u u' : κ × Sample} (h : InOrder us)
    (hu : Happens us pre u) (hu' : Happens us pre' u') (hlen : pre.length ≤ pre'.length)
    (htag : u.1 = u'.1) : u.2.tsMs ≤ u'.2.tsMs := by
  rcases Nat.eq_or_lt_of_le hlen with heq | hlt
  · rw [(hu.unique hu' heq).2]
  · have hbefore : pre ++ [u] <+: pre' := by
      refine List.prefix_of_prefix_length_le hu ((List.prefix_append _ _).trans hu') ?_
      rw [List.length_append]
      exact hlt
    have hsorted := h u'.1
    have hprefix : (pre' ++ [u']).filter (fun x => x.1 = u'.1) <+:
        us.filter fun x => x.1 = u'.1 := hu'.filter _
    have hpair := hsorted.sublist hprefix.sublist
    rw [List.filter_append] at hpair
    refine (List.pairwise_append.1 hpair).2.2 u (List.mem_filter.2 ⟨?_, ?_⟩) u' ?_
    · exact hbefore.subset (by simp)
    · simpa using htag
    · simp

/-- The logged updates of a tag are at least the shortest interval apart. -/
def Spaced (cfg : ChangeOnlyCfg) (us : List (κ × Sample)) : Prop :=
  ∀ pre u pre' u', Happens us pre u → Happens us pre' u' →
    pre.length < pre'.length → u.1 = u'.1 → Logs cfg pre u → Logs cfg pre' u' →
    cfg.minIntervalMs ≤ u'.2.tsMs - u.2.tsMs

/-- What the logged updates of a run promise. -/
structure Bounded (cfg : ChangeOnlyCfg) (us : List (κ × Sample)) : Prop where
  first : ∀ pre u, Happens us pre u → (∀ x ∈ pre, x.1 ≠ u.1) → Logs cfg pre u
  /-- Where it is not enabled, every update is logged. -/
  spaced : cfg.enabled = true → Spaced cfg us
  late : ∀ pre u pre' last, Happens us pre u → Latest (LogsTag cfg u.1) pre pre' last →
    cfg.maxIntervalMs ≤ u.2.tsMs - last.2.tsMs → Logs cfg pre u
  close : ∀ pre u, Happens us pre u → ¬ Logs cfg pre u →
    ∃ pre' last, Latest (LogsTag cfg u.1) pre pre' last ∧
      (u.2.tsMs - last.2.tsMs < cfg.minIntervalMs ∨ Close cfg u.2 last.2)
  alone : ∀ pre u, Happens us pre u →
    (Logs cfg pre u ↔ Logs cfg (pre.filter fun x => x.1 = u.1) u)

/-- **Change-only logging bounds what is lost.** -/
theorem change_only_bounded (cfg : ChangeOnlyCfg) (hle : cfg.minIntervalMs ≤ cfg.maxIntervalMs)
    (us : List (κ × Sample)) (hpos : ∀ u ∈ us, 0 < u.2.tsMs) (hsorted : InOrder us) :
    Bounded cfg us := by
  have hlast : ∀ {pre : List (κ × Sample)} {u : κ × Sample} {pre' last}, Happens us pre u →
      Latest (LogsTag cfg u.1) pre pre' last → tagStates cfg pre u.1 = last.2.logged := by
    intro pre u pre' last hu hlatest
    rcases tag_state cfg pre u.1 with ⟨hnone, -⟩ | ⟨pre'', last', hlatest', hst⟩
    · exact absurd hlatest.counts.1 (hnone last hlatest.happens.mem)
    · rw [hst, (hlatest'.unique hlatest).2]
  refine ⟨fun pre u hu hnone => ?_, fun hen pre u pre' u' hu hu' hlen htag hlog hlog' => ?_,
    fun pre u pre' last hu hlatest hlate => ?_, fun pre u hu hlog => ?_, fun pre u hu => ?_⟩
  · rcases tag_state cfg pre u.1 with ⟨-, hst⟩ | ⟨pre', last, hlatest, -⟩
    · refine log_first ?_
      rw [hst]
    · exact absurd hlatest.counts.1 (hnone last hlatest.happens.mem)
  · have hbefore : Happens pre' pre u :=
      List.prefix_of_prefix_length_le hu ((List.prefix_append _ _).trans hu') (by
        rw [List.length_append]
        exact hlen)
    obtain ⟨pre'', last, hlatest⟩ := exists_latest (P := LogsTag cfg u'.1) hbefore ⟨htag, hlog⟩
    have hmem : Happens us pre'' last := hlatest.happens.of_part ((List.prefix_append _ _).trans hu')
    have hle' : u.2.tsMs ≤ last.2.tsMs :=
      hsorted.le hu hmem (hlatest.last _ _ hbefore ⟨htag, hlog⟩) (htag.trans hlatest.counts.1.symm)
    have hst := hlast hu' hlatest
    have hms : (tagStates cfg pre' u'.1).lastLoggedMs = last.2.tsMs := by
      rw [hst]
      rfl
    have hne : (tagStates cfg pre' u'.1).lastLoggedMs ≠ 0 := by
      rw [hms]
      exact (hpos last hmem.mem).ne'
    have hspaced := log_spaced hen hle hne hlog'
    omega
  · refine log_late ?_
    rw [hlast hu hlatest]
    exact hlate
  · rcases tag_state cfg pre u.1 with ⟨-, hst⟩ | ⟨pre', last, hlatest, hst⟩
    · refine absurd (log_first ?_) hlog
      rw [hst]
    · refine ⟨pre', last, hlatest, log_close ?_⟩
      rw [← hst]
      exact Bool.eq_false_iff.2 hlog
  · unfold Logs
    rw [← states_filter]

end

/-! ## Examples -/

section
attribute [local instance] intFloats

/-- A deadband of two. -/
def driftSettings : ChangeOnlyCfg where
  deadband := Floats.ofInt 2

def speedAt (tsMs : Int) (value : F64) : String × Sample :=
  ("PLC:Speed", { tsMs, connectionId := "PLC", tagName := "Speed", valueDouble := some value })

/-- A drift by one at a time. -/
def driftUpdates : List (String × Sample) :=
  [speedAt 1000 (Floats.ofInt 0), speedAt 2000 (Floats.ofInt 1), speedAt 3000 (Floats.ofInt 2),
    speedAt 4000 (Floats.ofInt 3)]

theorem drift_bounded : Bounded driftSettings driftUpdates :=
  change_only_bounded driftSettings (by decide) driftUpdates (by decide) fun tag =>
    List.Pairwise.filter _ (by decide)

/-- Without change-only logging the spacing is not kept. -/
def everyUpdate : ChangeOnlyCfg := { driftSettings with enabled := false }

theorem disabled_unspaced :
    0 ≤ everyUpdate.minIntervalMs ∧ everyUpdate.minIntervalMs ≤ everyUpdate.maxIntervalMs ∧
      ¬ Spaced everyUpdate [speedAt 1000 (Floats.ofInt 0), speedAt 1001 (Floats.ofInt 0)] := by
  refine ⟨by decide, by decide, fun h => ?_⟩
  refine absurd (h [] (speedAt 1000 (Floats.ofInt 0)) [speedAt 1000 (Floats.ofInt 0)]
    (speedAt 1001 (Floats.ofInt 0)) ?_ (List.prefix_refl _) ?_ rfl rfl rfl) ?_
  · exact ⟨[speedAt 1001 (Floats.ofInt 0)], rfl⟩
  · decide
  · decide

/-- The last update is more than the deadband away from the first. -/
example : (tagStates driftSettings driftUpdates "PLC:Speed").lastLoggedMs = 4000 := by decide +kernel

end

end OpcBridge.Historian
