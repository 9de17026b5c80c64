import OpcBridge.Historian.Tiers
import OpcBridge.Lib.StepFunction

/-!
# The time-weighted average

`query_twa` reads the last row before the range and the rows of the range and adds up the segments
between them in one loop over two sums. Values are numbers of a field, so the sums are exact. The
rows of a time are in the order in which the database returns them (`Answers`); the value in force
after that time is the last of them.
-/

namespace OpcBridge.Historian

open Lib

structure Point (K : Type) where
  tsMs : Int
  value : K

variable {K : Type}

/-! ## The loop -/

/-- `weighted` and `coveredMs` -/
structure SegmentSums (K : Type) where
  weighted : K
  coveredMs : Int

/-- The time of the next point, and the end of the range after the last point. -/
def nextTs (toMs : Int) : List (Point K) → Int
  | [] => toMs
  | p :: _ => p.tsMs

section
variable [Field K]

/-- One turn of the loop. -/
def addSegment (fromMs toMs nextTs : Int) (p : Point K) (s : SegmentSums K) : SegmentSums K :=
  let segStart := max fromMs p.tsMs
  let segEnd := min toMs nextTs
  if segEnd ≤ segStart then s
  else
    let dur := segEnd - segStart
    { weighted := s.weighted + p.value * dur, coveredMs := s.coveredMs + dur }

def segmentLoop (fromMs toMs : Int) : List (Point K) → SegmentSums K → SegmentSums K
  | [], s => s
  | p :: ps, s => segmentLoop fromMs toMs ps (addSegment fromMs toMs (nextTs toMs ps) p s)

def segmentSums (fromMs toMs : Int) (points : List (Point K)) : SegmentSums K :=
  segmentLoop fromMs toMs points ⟨0, 0⟩

/-- `query_twa` from the rows on. -/
def queryTwa (fromMs toMs : Int) (points : List (Point K)) : Option K :=
  if toMs ≤ fromMs then none
  else if points.isEmpty then none
  else
    let s := segmentSums fromMs toMs points
    if s.coveredMs ≤ 0 then none else some (s.weighted / s.coveredMs)

end

/-! ## The rows of the raw query -/

/-- The points of the tag, of good quality if asked for. -/
def TagQuery.points (q : TagQuery) (rows : List (StoredRow K)) : List (Point K) :=
  (valued rows).filterMap fun x =>
    if q.ofTag x.1 && (!q.goodOnly || x.1.good) then some ⟨x.1.tsMs, x.2⟩ else none

/-- An answer of the raw query: `LIMIT 1` takes one of the latest rows before the range, and
`ORDER BY ts_ms ASC` leaves the order of equal times open. -/
structure Answers (q : TagQuery) (rows : List (StoredRow K)) (points : List (Point K)) : Prop where
  ascending : points.Pairwise fun a b => a.tsMs ≤ b.tsMs
  before : (points.filter fun p => p.tsMs < q.fromMs).length ≤ 1
  latest : ∀ x ∈ q.points rows, x.tsMs < q.fromMs →
    ∃ p ∈ points, p.tsMs < q.fromMs ∧ x.tsMs ≤ p.tsMs
  stored : ∀ p ∈ points, p ∈ q.points rows
  inside : (points.filter fun p => q.fromMs ≤ p.tsMs).Perm
    ((q.points rows).filter fun p => q.fromMs ≤ p.tsMs ∧ p.tsMs ≤ q.toMs)

/-- What the loop relies on. -/
structure InRange (fromMs toMs : Int) (points : List (Point K)) : Prop where
  ascending : points.Pairwise fun a b => a.tsMs ≤ b.tsMs
  before : (points.filter fun p => p.tsMs < fromMs).length ≤ 1
  le_to : ∀ p ∈ points, p.tsMs ≤ toMs

/-- The answer for the part of the range up to `m`. -/
def pointsUntil (m : Int) (points : List (Point K)) : List (Point K) :=
  points.filter fun p => p.tsMs ≤ m

/-- The answer for the part from `m` on, with the point that is in force there. -/
def pointsFrom (m : Int) (points : List (Point K)) : List (Point K) :=
  (points.filter fun p => p.tsMs < m).getLast?.toList ++ points.filter fun p => m ≤ p.tsMs

/-- The first covered time. -/
def coverStart (fromMs toMs : Int) (points : List (Point K)) : Int :=
  max fromMs (nextTs toMs points)

variable {fromMs toMs m : Int} {p : Point K} {points : List (Point K)}

theorem InRange.tail (h : InRange fromMs toMs (p :: points)) : InRange fromMs toMs points where
  ascending := h.ascending.of_cons
  before := (List.Sublist.length_le ((List.sublist_cons_self p points).filter _)).trans h.before
  le_to := fun q hq => h.le_to q (List.mem_cons_of_mem _ hq)

theorem InRange.le_next (h : InRange fromMs toMs (p :: points)) : p.tsMs ≤ nextTs toMs points := by
  cases points with
  | nil => exact h.le_to p List.mem_cons_self
  | cons q points => exact List.rel_of_pairwise_cons h.ascending List.mem_cons_self

theorem InRange.next_le (h : InRange fromMs toMs points) : nextTs toMs points ≤ toMs := by
  cases points with
  | nil => exact le_refl toMs
  | cons q points => exact h.le_to q List.mem_cons_self

/-- No point is before the first. -/
theorem InRange.next_le_mem (h : InRange fromMs toMs points) (hp : p ∈ points) :
    nextTs toMs points ≤ p.tsMs := by
  cases points with
  | nil => cases hp
  | cons q points =>
    rcases List.mem_cons.1 hp with rfl | hp
    · exact le_refl _
    · exact List.rel_of_pairwise_cons h.ascending hp

theorem InRange.coverStart_le (h : InRange fromMs toMs points) (hrange : fromMs ≤ toMs) :
    coverStart fromMs toMs points ≤ toMs := max_le hrange h.next_le

/-! ## The sums -/

section
variable [Field K]

theorem addSegment_eq {n : Int} (hpn : p.tsMs ≤ n) (hn : n ≤ toMs) (s : SegmentSums K) :
    addSegment fromMs toMs n p s =
      ⟨s.weighted + p.value * ((max fromMs n - max fromMs p.tsMs : Int) : K),
        s.coveredMs + (max fromMs n - max fromMs p.tsMs)⟩ := by
  unfold addSegment
  rw [min_eq_right hn]
  dsimp only
  split
  · case isTrue hempty =>
    have hnone : max fromMs n - max fromMs p.tsMs = 0 := by omega
    rw [hnone]
    simp
  · case isFalse hpos =>
    have hmax : max fromMs n = n := by omega
    rw [hmax]

theorem segmentLoop_covered (h : InRange fromMs toMs points) (hrange : fromMs ≤ toMs)
    (s : SegmentSums K) : (segmentLoop fromMs toMs points s).coveredMs =
      s.coveredMs + (toMs - coverStart fromMs toMs points) := by
  induction points generalizing s with
  | nil =>
    show s.coveredMs = s.coveredMs + (toMs - max fromMs toMs)
    omega
  | cons p points ih =>
    show (segmentLoop fromMs toMs points _).coveredMs = _
    rw [ih h.tail, addSegment_eq h.le_next h.tail.next_le]
    show s.coveredMs + (max fromMs (nextTs toMs points) - max fromMs p.tsMs) +
      (toMs - max fromMs (nextTs toMs points)) = s.coveredMs + (toMs - max fromMs p.tsMs)
    omega

theorem coveredMs_eq (h : InRange fromMs toMs points) (hrange : fromMs ≤ toMs) :
    (segmentSums fromMs toMs points).coveredMs = toMs - coverStart fromMs toMs points :=
  (segmentLoop_covered h hrange _).trans (zero_add _)

theorem queryTwa_eq_some (h : InRange fromMs toMs points) (hrange : fromMs < toMs) {r : K} :
    queryTwa fromMs toMs points = some r ↔ coverStart fromMs toMs points < toMs ∧
      r = (segmentSums fromMs toMs points).weighted /
        ((toMs - coverStart fromMs toMs points : Int) : K) := by
  have hcovered := coveredMs_eq h hrange.le
  unfold queryTwa
  rw [if_neg (not_le.2 hrange)]
  dsimp only
  rw [hcovered]
  split
  · case isTrue hempty =>
    obtain rfl := List.isEmpty_iff.1 hempty
    have hstart : ¬ coverStart fromMs toMs ([] : List (Point K)) < toMs := by
      show ¬ max fromMs toMs < toMs
      omega
    simp [hstart]
  · split
    · case isTrue hnone =>
      have hstart : ¬ coverStart fromMs toMs points < toMs := by omega
      simp [hstart]
    · case isFalse hsome =>
      have hstart : coverStart fromMs toMs points < toMs := by omega
      simp [hstart, eq_comm]

theorem queryTwa_eq_none (h : InRange fromMs toMs points) (hrange : fromMs < toMs) :
    queryTwa fromMs toMs points = none ↔ toMs ≤ coverStart fromMs toMs points := by
  rw [Option.eq_none_iff_forall_ne_some]
  simp only [ne_eq, queryTwa_eq_some h hrange, not_and]
  exact ⟨fun hall => not_lt.1 fun hlt => hall _ hlt rfl, fun hle r hlt => absurd hlt (not_lt.2 hle)⟩

end

/-! ## The step function -/

def steps (points : List (Point ℝ)) : List (ℝ × ℝ) := points.map fun p => ((p.tsMs : ℝ), p.value)

/-- The value in force at a time: each point's value holds until the next point. -/
noncomputable def inForce (points : List (Point ℝ)) : ℝ → ℝ := stepFunction (steps points)

section
variable {points : List (Point ℝ)}

theorem inForce_head {p : Point ℝ} (h : InRange fromMs toMs (p :: points)) {t : ℝ}
    (hp : (p.tsMs : ℝ) ≤ t) (hnext : t < nextTs toMs points) : inForce (p :: points) t = p.value := by
  have hlater : ∀ q ∈ steps points, t < q.1 := by
    intro q hq
    obtain ⟨x, hx, rfl⟩ := List.mem_map.1 hq
    exact hnext.trans_le (Int.cast_le.2 (h.tail.next_le_mem hx))
  show (stepAt (((p.tsMs : ℝ), p.value) :: steps points) t).getD 0 = p.value
  rw [stepAt_cons hp hlater]
  rfl

theorem inForce_tail {p : Point ℝ} (h : InRange fromMs toMs (p :: points)) {t : ℝ}
    (hnext : (nextTs toMs points : ℝ) ≤ t) (hto : t < toMs) :
    inForce (p :: points) t = inForce points t := by
  cases points with
  | nil => exact absurd hnext (not_le.2 hto)
  | cons q points =>
    unfold inForce stepFunction steps
    rw [List.map_cons, List.map_cons, stepAt_cons_cons (Int.cast_le.2 h.le_next) hnext]

/-- Before the next segment is before the next point. -/
theorem lt_next_of_lt {p : Point ℝ} {t : ℝ}
    (hstart : (coverStart fromMs toMs (p :: points) : ℝ) < t)
    (ht : t < coverStart fromMs toMs points) : t < nextTs toMs points := by
  have hfrom : (fromMs : ℝ) < t :=
    (Int.cast_le.2 (le_max_left fromMs p.tsMs)).trans_lt hstart
  have hmax : coverStart fromMs toMs points = nextTs toMs points := by
    apply max_eq_right
    by_contra! hlt
    have : coverStart fromMs toMs points = fromMs := max_eq_left hlt.le
    rw [this] at ht
    exact lt_asymm hfrom ht
  exact hmax ▸ ht

/-- The loop adds up the integral. -/
theorem segmentLoop_weighted (h : InRange fromMs toMs points) (hrange : fromMs ≤ toMs)
    (s : SegmentSums ℝ) :
    IntervalIntegrable (inForce points) MeasureTheory.volume (coverStart fromMs toMs points) toMs ∧
      (segmentLoop fromMs toMs points s).weighted =
        s.weighted + ∫ t in (coverStart fromMs toMs points : ℝ)..toMs, inForce points t := by
  induction points generalizing s with
  | nil =>
    have hstart : coverStart fromMs toMs ([] : List (Point ℝ)) = toMs := max_eq_right hrange
    rw [hstart, intervalIntegral.integral_same]
    exact ⟨IntervalIntegrable.refl, (add_zero _).symm⟩
  | cons p points ih =>
    obtain ⟨hint, hloop⟩ := ih h.tail (addSegment fromMs toMs (nextTs toMs points) p s)
    have hle : coverStart fromMs toMs (p :: points) ≤ coverStart fromMs toMs points :=
      max_le_max le_rfl h.le_next
    have hle_to := h.tail.coverStart_le hrange
    -- the value of the point up to the next one, then the rest of the loop
    have hfirst := integral_piece (f := inForce (p :: points)) (c := p.value)
      (Int.cast_le (R := ℝ).2 hle) fun t ht => inForce_head h
        ((Int.cast_le.2 (le_max_right fromMs p.tsMs)).trans ht.1.le) (lt_next_of_lt ht.1 ht.2)
    have hrest : Set.EqOn (inForce points) (inForce (p :: points))
        (Set.Ioo (coverStart fromMs toMs points) toMs) := fun t ht =>
      (inForce_tail h ((Int.cast_le.2 (le_max_right _ _)).trans ht.1.le) ht.2).symm
    have hrest' := Set.uIoo_of_le (Int.cast_le (R := ℝ).2 hle_to) ▸ hrest
    have hint' := hint.congr_uIoo hrest'
    refine ⟨hfirst.1.trans hint', ?_⟩
    show (segmentLoop fromMs toMs points _).weighted = _
    rw [hloop, intervalIntegral.integral_congr_uIoo hrest',
      ← intervalIntegral.integral_add_adjacent_intervals hfirst.1 hint', hfirst.2,
      addSegment_eq h.le_next h.tail.next_le, Int.cast_sub]
    show _ + p.value * ((coverStart fromMs toMs points : ℝ) -
      (coverStart fromMs toMs (p :: points) : ℝ)) + _ = _
    ring

theorem weighted_eq (h : InRange fromMs toMs points) (hrange : fromMs ≤ toMs) :
    (segmentSums fromMs toMs points).weighted =
      ∫ t in (coverStart fromMs toMs points : ℝ)..toMs, inForce points t :=
  (segmentLoop_weighted h hrange _).2.trans (zero_add _)

end

/-! ## Parts of a range -/

theorem split_ascending {points : List (Point K)}
    (h : points.Pairwise fun a b => a.tsMs ≤ b.tsMs) (m : Int) :
    (points.filter fun p => p.tsMs < m) ++ (points.filter fun p => m ≤ p.tsMs) = points := by
  induction points with
  | nil => rfl
  | cons p points ih =>
    by_cases hp : p.tsMs < m
    · rw [List.filter_cons_of_pos (by simpa using hp), List.filter_cons_of_neg (by simpa using hp),
        List.cons_append, ih h.of_cons]
    · have hnone : points.filter (fun q => q.tsMs < m) = [] := by
        rw [List.filter_eq_nil_iff]
        intro q hq
        have := List.rel_of_pairwise_cons h hq
        simp only [decide_eq_true_eq]
        omega
      rw [List.filter_cons_of_neg (by simpa using hp), List.filter_cons_of_pos (by simpa using hp),
        hnone, List.nil_append, List.cons.injEq]
      refine ⟨rfl, ?_⟩
      have hrest := ih h.of_cons
      rwa [hnone, List.nil_append] at hrest

theorem InRange.until {points : List (Point K)} (h : InRange fromMs toMs points) (m : Int) :
    InRange fromMs m (pointsUntil m points) where
  ascending := h.ascending.filter _
  before := (List.Sublist.length_le (List.filter_sublist.filter _)).trans h.before
  le_to := fun p hp => by simpa using (List.mem_filter.1 hp).2

theorem mem_last {points : List (Point K)} {p : Point K}
    (hp : p ∈ (points.filter fun p => p.tsMs < m).getLast?.toList) : p ∈ points ∧ p.tsMs < m := by
  have hmem := List.mem_of_getLast? (Option.mem_toList.1 hp)
  exact ⟨(List.mem_filter.1 hmem).1, by simpa using (List.mem_filter.1 hmem).2⟩

theorem InRange.from {points : List (Point K)} (h : InRange fromMs toMs points) (m : Int) :
    InRange m toMs (pointsFrom m points) where
  ascending := by
    refine List.pairwise_append.2 ⟨?_, h.ascending.filter _, fun a ha b hb => ?_⟩
    · cases (points.filter fun p => p.tsMs < m).getLast? with
      | none => exact List.Pairwise.nil
      | some p => exact List.pairwise_singleton _ p
    · have hlt := (mem_last ha).2
      have hle : m ≤ b.tsMs := by simpa using (List.mem_filter.1 hb).2
      omega
  before := by
    have hnone : (points.filter fun p => m ≤ p.tsMs).filter (fun p => p.tsMs < m) = [] := by
      rw [List.filter_eq_nil_iff]
      intro p hp
      have hle : m ≤ p.tsMs := by simpa using (List.mem_filter.1 hp).2
      simpa using hle
    unfold pointsFrom
    rw [List.filter_append, hnone, List.append_nil]
    refine (List.length_filter_le _ _).trans ?_
    cases (points.filter fun p => p.tsMs < m).getLast? <;> simp
  le_to := by
    intro p hp
    rcases List.mem_append.1 hp with hp | hp
    · exact h.le_to p (mem_last hp).1
    · exact h.le_to p (List.mem_filter.1 hp).1

theorem coverStart_until {points : List (Point K)} (h : InRange fromMs toMs points)
    (hfrom : fromMs ≤ m) (hto : m ≤ toMs) :
    coverStart fromMs m (pointsUntil m points) = min m (coverStart fromMs toMs points) := by
  cases points with
  | nil =>
    show max fromMs m = min m (max fromMs toMs)
    omega
  | cons p points =>
    by_cases hp : p.tsMs ≤ m
    · have huntil : pointsUntil m (p :: points) = p :: pointsUntil m points :=
        List.filter_cons_of_pos (by simpa using hp)
      rw [huntil]
      show max fromMs p.tsMs = min m (max fromMs p.tsMs)
      omega
    · have huntil : pointsUntil m (p :: points) = [] := by
        unfold pointsUntil
        rw [List.filter_eq_nil_iff]
        intro q hq
        have hle : p.tsMs ≤ q.tsMs := h.next_le_mem hq
        simp only [decide_eq_true_eq]
        omega
      rw [huntil]
      show max fromMs m = min m (max fromMs p.tsMs)
      omega

theorem coverStart_from {points : List (Point K)} (h : InRange fromMs toMs points)
    (hfrom : fromMs ≤ m) :
    coverStart m toMs (pointsFrom m points) = max m (coverStart fromMs toMs points) := by
  have hsplit := split_ascending h.ascending m
  unfold pointsFrom
  cases hlast : (points.filter fun p => p.tsMs < m).getLast? with
  | none =>
    rw [List.getLast?_eq_none_iff] at hlast
    rw [hlast, List.nil_append] at hsplit
    rw [hsplit]
    show max m (nextTs toMs points) = max m (max fromMs (nextTs toMs points))
    omega
  | some p =>
    have hp := mem_last (Option.mem_toList.2 hlast)
    have hnext : nextTs toMs points ≤ p.tsMs := h.next_le_mem hp.1
    show max m p.tsMs = max m (max fromMs (nextTs toMs points))
    have hlt := hp.2
    omega

theorem inForce_until {points : List (Point ℝ)} {t : ℝ} (ht : t ≤ m) :
    inForce (pointsUntil m points) t = inForce points t := by
  have hsteps : steps (pointsUntil m points) = (steps points).filter fun q => q.1 ≤ (m : ℝ) := by
    unfold steps pointsUntil
    rw [List.filter_map]
    congr 1
    apply List.filter_congr
    intro p _
    simp
  unfold inForce stepFunction
  rw [hsteps, stepAt_filter fun q _ hq => by simpa using hq.trans ht]

theorem inForce_from {points : List (Point ℝ)} (h : InRange fromMs toMs points) {t : ℝ}
    (ht : (m : ℝ) ≤ t) : inForce (pointsFrom m points) t = inForce points t := by
  have hbefore : ∀ q ∈ steps (points.filter fun p => p.tsMs < m), q.1 ≤ t := by
    intro q hq
    obtain ⟨p, hp, rfl⟩ := List.mem_map.1 hq
    have hlt : p.tsMs < m := by simpa using (List.mem_filter.1 hp).2
    exact (Int.cast_le.2 hlt.le).trans ht
  have hlast : steps (points.filter fun p => p.tsMs < m).getLast?.toList =
      (steps (points.filter fun p => p.tsMs < m)).getLast?.toList := by
    unfold steps
    rw [List.getLast?_map]
    cases (points.filter fun p => p.tsMs < m).getLast? <;> rfl
  have hsteps : steps (pointsFrom m points) =
      (steps (points.filter fun p => p.tsMs < m)).getLast?.toList ++
        steps (points.filter fun p => m ≤ p.tsMs) := by
    rw [← hlast]
    exact List.map_append
  unfold inForce stepFunction
  rw [hsteps, stepAt_of_last hbefore]
  have hall : steps (points.filter fun p => p.tsMs < m) ++
      steps (points.filter fun p => m ≤ p.tsMs) = steps points := by
    conv_rhs => rw [← split_ascending h.ascending m]
    exact List.map_append.symm
  rw [hall]

/-- The sums of the two parts of a range add up to the sums of the range. -/
theorem sums_split {points : List (Point ℝ)} (h : InRange fromMs toMs points) (hfrom : fromMs ≤ m)
    (hto : m ≤ toMs) :
    (segmentSums fromMs m (pointsUntil m points)).coveredMs +
        (segmentSums m toMs (pointsFrom m points)).coveredMs =
      (segmentSums fromMs toMs points).coveredMs ∧
    (segmentSums fromMs m (pointsUntil m points)).weighted +
        (segmentSums m toMs (pointsFrom m points)).weighted =
      (segmentSums fromMs toMs points).weighted := by
  have hrange := hfrom.trans hto
  have hstart := coverStart_until h hfrom hto
  have hstart' := coverStart_from h hfrom
  constructor
  · rw [coveredMs_eq (h.until m) hfrom, coveredMs_eq (h.from m) hto, coveredMs_eq h hrange, hstart,
      hstart']
    omega
  · rw [weighted_eq (h.until m) hfrom, weighted_eq (h.from m) hto, weighted_eq h hrange, hstart,
      hstart']
    have hint := (segmentLoop_weighted h hrange ⟨0, 0⟩).1
    have huntil : Set.EqOn (inForce (pointsUntil m points)) (inForce points)
        (Set.Ioo (min m (coverStart fromMs toMs points) : Int) m) :=
      fun t ht => inForce_until ht.2.le
    have hsince : Set.EqOn (inForce (pointsFrom m points)) (inForce points)
        (Set.Ioo (max m (coverStart fromMs toMs points) : Int) toMs) := fun t ht =>
      inForce_from h ((Int.cast_le.2 (le_max_left _ _)).trans ht.1.le)
    have hle_to : max m (coverStart fromMs toMs points) ≤ toMs :=
      max_le hto (h.coverStart_le hrange)
    rw [intervalIntegral.integral_congr_Ioo_of_le (Int.cast_le.2 (min_le_left _ _)) huntil,
      intervalIntegral.integral_congr_Ioo_of_le (Int.cast_le.2 hle_to) hsince]
    rcases le_total (coverStart fromMs toMs points) m with hle | hle
    · have hmem : (m : ℝ) ∈ Set.uIcc (coverStart fromMs toMs points : ℝ) toMs :=
        Set.mem_uIcc_of_le (Int.cast_le.2 hle) (Int.cast_le.2 hto)
      rw [min_eq_right hle, max_eq_left hle]
      exact intervalIntegral.integral_add_adjacent_intervals
        (hint.mono_set (Set.uIcc_subset_uIcc_left hmem))
        (hint.mono_set (Set.uIcc_subset_uIcc_right hmem))
    · rw [min_eq_left hle, max_eq_right hle, intervalIntegral.integral_same, zero_add]

/-- A part without an average has no weight. -/
theorem queryTwa_mul {points : List (Point ℝ)} (h : InRange fromMs toMs points)
    (hrange : fromMs < toMs) :
    (queryTwa fromMs toMs points).getD 0 * ((segmentSums fromMs toMs points).coveredMs : ℝ) =
      (segmentSums fromMs toMs points).weighted := by
  have hcovered := coveredMs_eq h hrange.le
  cases hr : queryTwa fromMs toMs points with
  | none =>
    have hend := le_antisymm (h.coverStart_le hrange.le) ((queryTwa_eq_none h hrange).1 hr)
    rw [weighted_eq h hrange.le, hend, intervalIntegral.integral_same, Option.getD_none, zero_mul]
  | some r =>
    obtain ⟨hlt, rfl⟩ := (queryTwa_eq_some h hrange).1 hr
    have hne : ((toMs - coverStart fromMs toMs points : Int) : ℝ) ≠ 0 :=
      Int.cast_ne_zero.2 (sub_ne_zero.2 hlt.ne')
    rw [hcovered, Option.getD_some, div_mul_cancel₀ _ hne]

/-! ## Answers of the database -/

section
variable {q : TagQuery} {rows : List (StoredRow K)} {points : List (Point K)}

theorem Answers.inRange (h : Answers q rows points) (hrange : q.fromMs ≤ q.toMs) :
    InRange q.fromMs q.toMs points where
  ascending := h.ascending
  before := h.before
  le_to := by
    intro p hp
    by_cases hfrom : q.fromMs ≤ p.tsMs
    · have hinside := h.inside.mem_iff.1 (List.mem_filter.2 ⟨hp, by simpa using hfrom⟩)
      have hle : q.fromMs ≤ p.tsMs ∧ p.tsMs ≤ q.toMs := by
        simpa using (List.mem_filter.1 hinside).2
      exact hle.2
    · omega

end

/-! ## The average -/

/-- The times of the range at which a point is in force. -/
def coveredTimes (fromMs toMs : Int) (points : List (Point ℝ)) : Set ℝ :=
  {t | t ∈ Set.Icc (fromMs : ℝ) toMs ∧ ∃ p ∈ points, (p.tsMs : ℝ) ≤ t}

theorem covers_iff {points : List (Point ℝ)} (h : InRange fromMs toMs points) :
    (∃ a b : ℝ, a < b ∧ Set.Icc a b ⊆ coveredTimes fromMs toMs points) ↔
      coverStart fromMs toMs points < toMs := by
  constructor
  · intro ⟨a, b, hab, hsub⟩
    obtain ⟨ha, p, hp, hpa⟩ := hsub (Set.left_mem_Icc.2 hab.le)
    obtain ⟨hb, -⟩ := hsub (Set.right_mem_Icc.2 hab.le)
    have hnext : (nextTs toMs points : ℝ) ≤ a := (Int.cast_le.2 (h.next_le_mem hp)).trans hpa
    have hstart : (coverStart fromMs toMs points : ℝ) ≤ a := by
      unfold coverStart
      rw [Int.cast_max]
      exact max_le ha.1 hnext
    exact Int.cast_lt.1 ((hstart.trans_lt hab).trans_le hb.2)
  · intro hlt
    refine ⟨coverStart fromMs toMs points, toMs, Int.cast_lt.2 hlt, fun t ht => ?_⟩
    have hfrom : (fromMs : ℝ) ≤ t := (Int.cast_le.2 (le_max_left _ _)).trans ht.1
    refine ⟨⟨hfrom, ht.2⟩, ?_⟩
    cases points with
    | nil =>
      have hle : toMs ≤ coverStart fromMs toMs ([] : List (Point ℝ)) := le_max_right _ _
      exact absurd hlt (not_lt.2 hle)
    | cons p points =>
      exact ⟨p, List.mem_cons_self, (Int.cast_le.2 (le_max_right fromMs p.tsMs)).trans ht.1⟩

/-- **The average.** Without a covered interval of positive length there is none. Otherwise it is
the integral of the step function over the covered part of the range divided by the length of that
part; the values in force reach below and above it, and the two parts of the range at any time
inside it give it as the mean of their averages weighted by their covered lengths. -/
theorem time_weighted_average {points : List (Point ℝ)} (h : InRange fromMs toMs points)
    (hrange : fromMs < toMs) :
    (queryTwa fromMs toMs points = none ↔
      ¬ ∃ a b : ℝ, a < b ∧ Set.Icc a b ⊆ coveredTimes fromMs toMs points) ∧
    (segmentSums fromMs toMs points).coveredMs = toMs - coverStart fromMs toMs points ∧
    ∀ r, queryTwa fromMs toMs points = some r →
      r = (∫ t in (coverStart fromMs toMs points : ℝ)..toMs, inForce points t) /
        (toMs - coverStart fromMs toMs points) ∧
      (∃ t ∈ Set.Ioo (coverStart fromMs toMs points : ℝ) toMs, inForce points t ≤ r) ∧
      (∃ t ∈ Set.Ioo (coverStart fromMs toMs points : ℝ) toMs, r ≤ inForce points t) ∧
      ∀ m, fromMs < m → m < toMs →
        InRange fromMs m (pointsUntil m points) ∧ InRange m toMs (pointsFrom m points) ∧
        r = ((queryTwa fromMs m (pointsUntil m points)).getD 0 *
              (segmentSums fromMs m (pointsUntil m points)).coveredMs +
            (queryTwa m toMs (pointsFrom m points)).getD 0 *
              (segmentSums m toMs (pointsFrom m points)).coveredMs) /
          ((segmentSums fromMs m (pointsUntil m points)).coveredMs +
            (segmentSums m toMs (pointsFrom m points)).coveredMs) := by
  have hcovered := coveredMs_eq h hrange.le
  refine ⟨?_, hcovered, fun r hr => ?_⟩
  · rw [queryTwa_eq_none h hrange, covers_iff h, not_lt]
  · obtain ⟨hlt, hmean⟩ := (queryTwa_eq_some h hrange).1 hr
    have hint := (segmentLoop_weighted h hrange.le ⟨0, 0⟩).1
    have hlt' : (coverStart fromMs toMs points : ℝ) < toMs := Int.cast_lt.2 hlt
    rw [weighted_eq h hrange.le, Int.cast_sub] at hmean
    refine ⟨hmean, hmean ▸ exists_le_mean hlt' hint, hmean ▸ exists_ge_mean hlt' hint,
      fun m hfrom hto => ⟨h.until m, h.from m, ?_⟩⟩
    obtain ⟨hlength, hweight⟩ := sums_split h hfrom.le hto.le
    rw [queryTwa_mul (h.until m) hfrom, queryTwa_mul (h.from m) hto, hweight, ← Int.cast_add,
      hlength, hcovered, Int.cast_sub, weighted_eq h hrange.le]
    exact hmean

/-- A value carried into the range and one inside it. -/
theorem time_weighted_average_carried :
    queryTwa 0 10 [⟨-5, 2⟩, ⟨5, (4 : ℝ)⟩] = some 3 ∧
      (∃ t ∈ Set.Ioo (coverStart 0 10 [⟨-5, 2⟩, ⟨5, (4 : ℝ)⟩] : ℝ) (10 : Int),
        inForce [⟨-5, 2⟩, ⟨5, 4⟩] t ≤ 3) := by
  have h : InRange 0 10 [⟨-5, 2⟩, ⟨5, (4 : ℝ)⟩] := by
    refine ⟨by simp, ?_, by simp⟩
    rw [List.filter_cons_of_pos (by simp), List.filter_cons_of_neg (by simp), List.filter_nil]
    exact le_refl 1
  have hr : queryTwa 0 10 [⟨-5, 2⟩, ⟨5, (4 : ℝ)⟩] = some 3 := by
    rw [queryTwa_eq_some h (by decide)]
    refine ⟨by decide, ?_⟩
    simp only [segmentSums, segmentLoop, nextTs, addSegment]
    norm_num [coverStart, nextTs]
  exact ⟨hr, ((time_weighted_average h (by decide)).2.2 3 hr).2.1⟩

end OpcBridge.Historian
