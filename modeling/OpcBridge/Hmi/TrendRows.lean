import OpcBridge.Hmi.TrendCache
import Mathlib.Tactic.Linarith
import Mathlib.Tactic.Ring

/-!
# What the rows of a trend hold

The cache whose rows hold the samples themselves (`Mark`) is what the code's cache summarises
(`run_summarised`). In it every entry's rows increase, are multiples of the width and at most the
limit, and hold each sample that was taken and not pruned once, in the row of its time
(`RowsRight`), as long as a new width takes the rows whole (`Fitting`): `reconcile` moves a row to
the new row of its start, whatever its end.
-/

namespace OpcBridge.Hmi

open Lib

/-! ## Marks -/

/-- A sample, good or bad, or a gap marker. -/
inductive Mark
  | sample (time : Int) (value : Option ℚ)
  | gap (time : Int)
deriving DecidableEq

namespace Mark

def time : Mark → Int
  | sample time _ => time
  | gap time => time

def value : Mark → Option ℚ
  | sample _ value => value
  | gap _ => none

def bad (mark : Mark) : Bool := mark.value.isNone

/-- The sample, if the mark is one. -/
def taken : Mark → Option (Int × Option ℚ)
  | sample time value => some (time, value)
  | gap _ => none

end Mark

instance : Holding (List Mark) where
  point time value := [.sample time value]
  gap time := [.gap time]
  combine := (· ++ ·)

def values (marks : List Mark) : List ℚ := marks.filterMap Mark.value

def summarise (marks : List Mark) : Summary where
  count := (values marks).length
  sum := (values marks).sum
  min := (values marks).min?
  max := (values marks).max?
  bad := marks.countP Mark.bad

theorem summarise_point (time : Int) (value : Option ℚ) :
    summarise (Holding.point time value) = Holding.point time value := by
  cases value with
  | none => rfl
  | some x => simp [summarise, values, Holding.point, Mark.value, Mark.bad]

theorem min?_append (l l' : List ℚ) : (l ++ l').min? = merge Min.min l.min? l'.min? := by
  have h := min?_groups [l, l']
  rw [List.flatten_cons, List.flatten_cons, List.flatten_nil, List.append_nil] at h
  rw [← h]
  simp only [List.filterMap_cons, List.filterMap_nil]
  cases l.min? <;> cases l'.min? <;> rfl

theorem max?_append (l l' : List ℚ) : (l ++ l').max? = merge Max.max l.max? l'.max? := by
  have h := max?_groups [l, l']
  rw [List.flatten_cons, List.flatten_cons, List.flatten_nil, List.append_nil] at h
  rw [← h]
  simp only [List.filterMap_cons, List.filterMap_nil]
  cases l.max? <;> cases l'.max? <;> rfl

theorem summarise_combine (a b : List Mark) :
    summarise (Holding.combine a b) = Holding.combine (summarise a) (summarise b) := by
  show summarise (a ++ b) = (summarise a).combine (summarise b)
  simp only [summarise, Summary.combine, values, List.filterMap_append, List.length_append,
    List.sum_append, min?_append, max?_append, List.countP_append]

/-! ## The summaries follow the marks -/

/-- The entry with its rows summarised. -/
def Entry.summarised (entry : Entry (List Mark)) : Entry Summary :=
  { entry with
    rows := entry.rows.map (Bin.map summarise)
    pruned := entry.pruned.map (Bin.map summarise) }

namespace Entry

theorem merged_summarised (now : Int) (retention : ℚ) (width : Int) (entry : Entry (List Mark)) :
    entry.summarised.merged now retention width =
      (entry.merged now retention width).map (Bin.map summarise) := by
  unfold merged summarised
  rw [List.map_insertionSort (fun a b : Bin (List Mark) => a.t ≤ b.t)
    (fun a b : Bin Summary => a.t ≤ b.t) (Bin.map summarise) _ fun _ _ _ _ => Iff.rfl,
    ← Bin.rebin_map summarise_combine, List.filter_map]
  rfl

theorem reconcile_summarised (now : Int) (perTag : Nat) (retention : ℚ)
    (entry : Entry (List Mark)) :
    entry.summarised.reconcile now perTag retention =
      (entry.reconcile now perTag retention).summarised := by
  simp only [reconcile, merged_summarised, List.length_map]
  simp only [summarised, List.map_append, List.map_drop, List.map_take, List.filter_map]
  rfl

theorem gaps_summarised (width last t : Int) :
    gaps width last t = (gaps width last t).map (Bin.map summarise) := by
  unfold gaps
  split
  · split <;> rfl
  · rfl

theorem push_summarised (time : Int) (value : Option ℚ) (entry : Entry (List Mark)) :
    entry.summarised.push time value = (entry.push time value).map (Bin.map summarise) := by
  have hpoint : Bin.map summarise ⟨binStart entry.width time, Holding.point time value⟩ =
      ⟨binStart entry.width time, Holding.point time value⟩ :=
    congrArg (Bin.mk _) (summarise_point time value)
  unfold push
  simp only [summarised, List.getLast?_map]
  cases entry.rows.getLast? with
  | none =>
    exact congrArg (fun bin => [bin]) hpoint.symm
  | some last =>
    simp only [Option.map_some, Bin.map_t]
    by_cases ht : last.t = binStart entry.width time
    · have hcell : (⟨last.t, Holding.combine (summarise last.cell) (Holding.point time value)⟩ :
          Bin Summary) = Bin.map summarise
            ⟨last.t, Holding.combine last.cell (Holding.point time value)⟩ := by
        rw [← summarise_point, ← summarise_combine]
        rfl
      refine (if_pos ht).trans ?_
      rw [if_pos ht, List.map_append, List.map_dropLast, List.map_singleton, ← hcell]
      rfl
    · refine (if_neg ht).trans ?_
      rw [if_neg ht, List.map_append, List.map_append, List.map_singleton, ← gaps_summarised,
        hpoint]

theorem sample_summarised (time : Int) (value : Option ℚ) (entry : Entry (List Mark)) :
    entry.summarised.sample time value = (entry.sample time value).summarised := by
  by_cases hskip : value = none ∧ entry.rows = []
  · have hrows : entry.summarised.rows = [] := List.map_eq_nil_iff.2 hskip.2
    rw [sample, sample, if_pos hskip, if_pos ⟨hskip.1, hrows⟩]
  · have hrows : ¬(value = none ∧ entry.summarised.rows = []) := fun h =>
      hskip ⟨h.1, List.map_eq_nil_iff.1 h.2⟩
    have hstale : ∀ cutoff, (stale cutoff : Bin Summary → Bool) ∘ Bin.map summarise =
        stale cutoff := fun _ => rfl
    rw [sample, sample, if_neg hskip, if_neg hrows]
    simp only [push_summarised, List.length_map]
    simp only [summarised, List.map_append, List.map_take, ← List.map_drop, List.dropWhile_map,
      List.takeWhile_map, hstale]

end Entry

namespace TrendCache

def summarisedPair (e : TrendKey × Entry (List Mark)) : TrendKey × Entry Summary :=
  (e.1, e.2.summarised)

def summarised (cache : TrendCache (List Mark)) : TrendCache Summary :=
  { cache with entries := cache.entries.map summarisedPair }

theorem lookup_summarised (entries : List (TrendKey × Entry (List Mark))) (key : TrendKey) :
    (Keyed.lookup entryKey (entries.map summarisedPair) key).map Prod.snd =
      ((Keyed.lookup entryKey entries key).map Prod.snd).map Entry.summarised := by
  have h : Keyed.lookup entryKey (entries.map summarisedPair) key =
      (Keyed.lookup entryKey entries key).map summarisedPair :=
    Keyed.lookup_map (fun _ => rfl) entries key
  rw [h, Option.map_map, Option.map_map]
  rfl

theorem entry_summarised (cache : TrendCache (List Mark)) (key : TrendKey) :
    cache.summarised.entry key = (cache.entry key).map Entry.summarised :=
  lookup_summarised cache.entries key

theorem visit_summarised (now : Int) (perTag : Nat) (entries : List (TrendKey × Entry (List Mark)))
    (s : TrendKey × Scope) :
    visit now perTag (entries.map summarisedPair) s =
      (visit now perTag entries s).map summarisedPair := by
  have hput : ∀ e : TrendKey × Entry (List Mark),
      Keyed.put entryKey (entries.map summarisedPair) s.1 (summarisedPair e) =
        (Keyed.put entryKey entries s.1 e).map summarisedPair :=
    Keyed.put_map (fun _ => rfl) entries s.1
  unfold visit
  simp only [← hput, lookup_summarised]
  refine congrArg (fun e => Keyed.put entryKey _ s.1 (s.1, e)) ?_
  cases (Keyed.lookup entryKey entries s.1).map Prod.snd with
  | none => exact Entry.reconcile_summarised now perTag _ { startedAt := now }
  | some entry => exact Entry.reconcile_summarised now perTag _ entry

theorem visits_summarised (now : Int) (perTag : Nat) (scopes : List (TrendKey × Scope))
    (entries : List (TrendKey × Entry (List Mark))) :
    scopes.foldl (visit now perTag) (entries.map summarisedPair) =
      (scopes.foldl (visit now perTag) entries).map summarisedPair := by
  induction scopes generalizing entries with
  | nil => rfl
  | cons s scopes ih => rw [List.foldl_cons, visit_summarised, ih, List.foldl_cons]

variable {V : Type} (values : TrendValues V)

theorem step_summarised (cache : TrendCache (List Mark)) (event : TrendEvent) :
    cache.summarised.step values event = (cache.step values event).summarised := by
  cases event with
  | reconcile now scopes =>
    show cache.summarised.reconcile now scopes = (cache.reconcile now scopes).summarised
    unfold reconcile
    split
    · rfl
    · cases scopes.expressions with
      | error e => rfl
      | ok expressions =>
        simp only [summarised, List.filter_map, visits_summarised]
        rfl
  | sample time rows =>
    show cache.summarised.sample values time rows = (cache.sample values time rows).summarised
    simp only [sample, summarised, List.map_map]
    congr 1
    refine List.map_congr_left fun e _ => ?_
    exact congrArg (Prod.mk e.1) (Entry.sample_summarised time _ e.2)

/-- The code's cache is the summary of the cache of marks. -/
theorem run_summarised (events : List TrendEvent) :
    run (step values) ({} : TrendCache Summary) events =
      (run (step values) ({} : TrendCache (List Mark)) events).summarised := by
  suffices h : ∀ cache : TrendCache (List Mark), run (step values) cache.summarised events =
      (run (step values) cache events).summarised from h {}
  induction events with
  | nil => exact fun _ => rfl
  | cons event events ih =>
    intro cache
    rw [run_cons, step_summarised, ih, run_cons]

end TrendCache

/-! ## What an entry's rows hold -/

/-- The rows of the entry as the samples they stand for. -/
structure RowsRight (entry : Entry (List Mark)) : Prop where
  increasing : Bin.Increasing entry.rows
  aligned : ∀ row ∈ entry.rows, entry.width ∣ row.t
  short : entry.rows.length ≤ entry.limit
  /-- Each sample that was taken is in one row, or in one that was pruned. -/
  once : ((entry.pruned ++ entry.rows).flatMap Bin.cell).filterMap Mark.taken = entry.taken
  inside : ∀ row ∈ entry.rows, ∀ mark ∈ row.cell,
    row.t ≤ mark.time ∧ mark.time < row.t + entry.width

/-- What every step keeps until the time `now`. -/
structure EntryInv (now : Int) (entry : Entry (List Mark)) : Prop extends RowsRight entry where
  wide : 0 < entry.width
  room : 0 < entry.limit
  past : ∀ row ∈ entry.rows, row.t ≤ now

/-- The row from `t` lies in one row of the new width. -/
def Whole (width width' t : Int) : Prop := t + width ≤ binStart width' t + width'

instance (width width' t : Int) : Decidable (Whole width width' t) :=
  inferInstanceAs (Decidable (_ ≤ _))

/-- The rows that stay lie in rows of the new width. -/
def Entry.Fits {σ : Type} (now : Int) (retention : ℚ) (width : Int) (entry : Entry σ) : Prop :=
  ∀ row ∈ entry.rows, Entry.current now retention row = true → Whole entry.width width row.t

theorem rowWidth_pos (retention : ℚ) (perTag : Nat) : 0 < rowWidth retention perTag :=
  lt_of_lt_of_le (by norm_num) (le_max_left 1000 _)

theorem Scopes.perTag_pos (scopes : Scopes) : 0 < scopes.perTag :=
  lt_of_lt_of_le Nat.one_pos (le_max_left 1 _)

/-- What a test keeps once it holds stands behind what it does not. -/
theorem filter_not_append_filter {α : Type*} {p : α → Bool} {l : List α}
    (h : l.Pairwise fun a b => p a = true → p b = true) :
    l.filter (fun a => !p a) ++ l.filter p = l := by
  induction l with
  | nil => rfl
  | cons a l ih =>
    obtain ⟨ha, hl⟩ := List.pairwise_cons.1 h
    cases hp : p a with
    | false => simp [hp, ih hl]
    | true =>
      have hall : ∀ b ∈ l, p b = true := fun b hb => ha b hb hp
      have hnone : l.filter (fun a => !p a) = [] :=
        List.filter_eq_nil_iff.2 fun b hb => by simp [hall b hb]
      have hsome : l.filter p = l := List.filter_eq_self.2 hall
      simp [hp, hnone, hsome]

namespace EntryInv

variable {now : Int} {entry : Entry (List Mark)}

theorem started (startedAt : Int) : EntryInv now { startedAt } where
  increasing := List.Pairwise.nil
  aligned _ h := absurd h List.not_mem_nil
  short := Nat.zero_le _
  once := rfl
  inside _ h := absurd h List.not_mem_nil
  wide := show (0 : Int) < 1000 by decide
  room := Nat.one_pos
  past _ h := absurd h List.not_mem_nil

theorem later {now' : Int} (hi : EntryInv now entry) (h : now ≤ now') : EntryInv now' entry :=
  { hi with past := fun row hrow => (hi.past row hrow).trans h }

/-- The merged rows are sorted as they come. -/
theorem merged_eq (hi : EntryInv now entry) (time : Int) (retention : ℚ) {width : Int}
    (hwidth : 0 < width) : entry.merged time retention width =
      Bin.rebinned width (entry.rows.filter (Entry.current time retention)) := by
  refine List.Pairwise.insertionSort_eq ?_
  exact (Bin.rebin_sorted hwidth (hi.increasing.filter _)).imp fun h => h.le

theorem reconcile {time : Int} {perTag : Nat} {retention : ℚ} (hi : EntryInv now entry)
    (hroom : 0 < perTag) (hfits : entry.Fits time retention (rowWidth retention perTag)) :
    EntryInv now (entry.reconcile time perTag retention) := by
  have hwidth := rowWidth_pos retention perTag
  have hinc : Bin.Increasing (entry.rows.filter (Entry.current time retention)) :=
    hi.increasing.filter _
  have hmerged := hi.merged_eq time retention hwidth
  have hstart : ∀ row ∈ entry.merged time retention (rowWidth retention perTag),
      ∃ b ∈ entry.rows, binStart (rowWidth retention perTag) b.t = row.t := fun row hrow => by
    rw [hmerged] at hrow
    obtain ⟨-, b, hb, ht⟩ := Bin.rebin_mem hwidth hinc hrow
    exact ⟨b, (List.mem_filter.1 hb).1, ht⟩
  constructor
  case toRowsRight =>
    constructor
    case increasing =>
      show Bin.Increasing (List.drop _ _)
      rw [hmerged]
      exact (Bin.rebin_sorted hwidth hinc).drop
    case aligned =>
      intro row hrow
      obtain ⟨b, -, ht⟩ := hstart row (List.mem_of_mem_drop hrow)
      exact ht ▸ dvd_binStart _ b.t
    case short =>
      show (List.drop _ _).length ≤ perTag
      rw [List.length_drop]
      omega
    case once =>
      have hsplit : entry.rows.filter (fun row => !Entry.current time retention row) ++
          entry.rows.filter (Entry.current time retention) = entry.rows := by
        refine filter_not_append_filter (hi.increasing.imp fun {a b} hab ha => ?_)
        have hle : (time : ℚ) - retention ≤ a.t := of_decide_eq_true ha
        exact decide_eq_true (hle.trans (Int.cast_le.2 hab.le))
      refine Eq.trans ?_ hi.once
      simp only [Entry.reconcile, List.append_assoc, List.take_append_drop]
      rw [List.flatMap_append, List.flatMap_append, hmerged, Bin.flatMap_rebin hwidth hinc,
        ← List.flatMap_append, hsplit, ← List.flatMap_append]
    case inside =>
      intro row hrow mark hmark
      have hrow : row ∈ entry.merged time retention (rowWidth retention perTag) :=
        List.mem_of_mem_drop hrow
      rw [hmerged] at hrow
      rw [(Bin.rebin_mem hwidth hinc hrow).1] at hmark
      obtain ⟨b, hb, hmark⟩ := List.mem_flatMap.1 hmark
      obtain ⟨hb, ht⟩ := List.mem_filter.1 hb
      have ht : binStart (rowWidth retention perTag) b.t = row.t := of_decide_eq_true ht
      obtain ⟨hb, hcurrent⟩ := List.mem_filter.1 hb
      obtain ⟨hle, hlt⟩ := hi.inside b hb mark hmark
      have hwhole : b.t + entry.width ≤ row.t + rowWidth retention perTag :=
        ht ▸ hfits b hb hcurrent
      have hbelow : row.t ≤ b.t := ht ▸ binStart_le hwidth
      exact ⟨hbelow.trans hle, hlt.trans_le hwhole⟩
  case wide => exact hwidth
  case room => exact hroom
  case past =>
    intro row hrow
    obtain ⟨b, hb, ht⟩ := hstart row (List.mem_of_mem_drop hrow)
    exact ht ▸ (binStart_le hwidth).trans (hi.past b hb)

end EntryInv

/-! ## A sample -/

/-- The markers lie between the rows, each in a row of its own. -/
theorem gaps_spec {width last t : Int} (hwidth : 0 < width) (hlast : width ∣ last)
    (ht : width ∣ t) : Bin.Increasing (Entry.gaps (σ := List Mark) width last t) ∧
      ∀ row ∈ Entry.gaps (σ := List Mark) width last t,
        last < row.t ∧ row.t < t ∧ width ∣ row.t ∧ row.cell = [.gap row.t] := by
  have hfirst : width ∣ last + width := dvd_add hlast (dvd_refl width)
  have hsecond : width ∣ t - width := dvd_sub ht (dvd_refl width)
  unfold Entry.gaps
  split
  · rename_i hfar
    split
    · rename_i hfarther
      refine ⟨List.pairwise_pair.2 hfarther, fun row hrow => ?_⟩
      rcases List.mem_cons.1 hrow with rfl | hrow
      · exact ⟨by simp only; omega, hfar, hfirst, rfl⟩
      · obtain rfl := List.mem_singleton.1 hrow
        exact ⟨by simp only; omega, by simp only; omega, hsecond, rfl⟩
    · refine ⟨List.pairwise_singleton _ _, fun row hrow => ?_⟩
      obtain rfl := List.mem_singleton.1 hrow
      exact ⟨by simp only; omega, hfar, hfirst, rfl⟩
  · exact ⟨List.Pairwise.nil, fun _ h => absurd h List.not_mem_nil⟩

/-- The rows with a new sample in the row of its time. -/
structure Pushed (entry : Entry (List Mark)) (time : Int) (value : Option ℚ)
    (rows : List (Bin (List Mark))) : Prop where
  increasing : Bin.Increasing rows
  aligned : ∀ row ∈ rows, entry.width ∣ row.t
  past : ∀ row ∈ rows, row.t ≤ time
  once : (rows.flatMap Bin.cell).filterMap Mark.taken =
    (entry.rows.flatMap Bin.cell).filterMap Mark.taken ++ [(time, value)]
  inside : ∀ row ∈ rows, ∀ mark ∈ row.cell,
    row.t ≤ mark.time ∧ mark.time < row.t + entry.width

namespace Pushed

variable {now time : Int} {entry : Entry (List Mark)} (hi : EntryInv now entry) (htime : now ≤ time)
  (value : Option ℚ)
include hi htime

/-- The sample joins the last row. -/
theorem joined {front : List (Bin (List Mark))} {last : Bin (List Mark)}
    (hrows : entry.rows = front ++ [last]) (htlt : time < last.t + entry.width) :
    Pushed entry time value (front ++ [⟨last.t, last.cell ++ [Mark.sample time value]⟩]) := by
  have hlast : last ∈ entry.rows := hrows ▸ List.mem_append_right _ List.mem_cons_self
  have hfront : ∀ row ∈ front, row ∈ entry.rows := fun row hrow =>
    hrows ▸ List.mem_append_left _ hrow
  have hinc := hi.increasing
  rw [hrows] at hinc
  obtain ⟨hinc, -, hless⟩ := List.pairwise_append.1 hinc
  have hmem : ∀ row ∈ front ++ [⟨last.t, last.cell ++ [Mark.sample time value]⟩],
      row ∈ front ∨ row = ⟨last.t, last.cell ++ [Mark.sample time value]⟩ := by
    intro row hrow
    rcases List.mem_append.1 hrow with hrow | hrow
    · exact .inl hrow
    · exact .inr (List.mem_singleton.1 hrow)
  constructor
  case increasing =>
    refine List.pairwise_append.2 ⟨hinc, List.pairwise_singleton _ _, ?_⟩
    intro row hrow b hb
    rw [List.mem_singleton.1 hb]
    exact hless row hrow last List.mem_cons_self
  case aligned =>
    intro row hrow
    rcases hmem row hrow with hrow | rfl
    · exact hi.aligned row (hfront row hrow)
    · exact hi.aligned last hlast
  case past =>
    intro row hrow
    rcases hmem row hrow with hrow | rfl
    · exact (hi.past row (hfront row hrow)).trans htime
    · exact (hi.past last hlast).trans htime
  case once =>
    rw [hrows]
    simp [Mark.taken]
  case inside =>
    intro row hrow mark hmark
    rcases hmem row hrow with hrow | rfl
    · exact hi.inside row (hfront row hrow) mark hmark
    · rcases List.mem_append.1 hmark with hmark | hmark
      · exact hi.inside last hlast mark hmark
      · rw [List.mem_singleton.1 hmark]
        exact ⟨(hi.past last hlast).trans htime, htlt⟩

/-- The sample begins a row, after the markers. -/
theorem begun {last : Bin (List Mark)} {t : Int} (hlast : last ∈ entry.rows)
    (hold : ∀ row ∈ entry.rows, row.t ≤ last.t) (hlt : last.t < t) (htdvd : entry.width ∣ t)
    (htle : t ≤ time) (htlt : time < t + entry.width) :
    Pushed entry time value
      (entry.rows ++ Entry.gaps entry.width last.t t ++ [⟨t, [Mark.sample time value]⟩]) := by
  obtain ⟨hgaps, hgap⟩ := gaps_spec hi.wide (hi.aligned last hlast) htdvd
  have hmem : ∀ row ∈ entry.rows ++ Entry.gaps entry.width last.t t ++
        [⟨t, [Mark.sample time value]⟩],
      row ∈ entry.rows ∨ row ∈ Entry.gaps entry.width last.t t ∨
        row = ⟨t, [Mark.sample time value]⟩ := by
    intro row hrow
    rcases List.mem_append.1 hrow with hrow | hrow
    · exact (List.mem_append.1 hrow).imp_right .inl
    · exact .inr (.inr (List.mem_singleton.1 hrow))
  constructor
  case increasing =>
    refine List.pairwise_append.2 ⟨List.pairwise_append.2 ⟨hi.increasing, hgaps, ?_⟩,
      List.pairwise_singleton _ _, ?_⟩
    · intro row hrow g hg
      exact (hold row hrow).trans_lt (hgap g hg).1
    · intro row hrow b hb
      rw [List.mem_singleton.1 hb]
      rcases List.mem_append.1 hrow with hrow | hrow
      · exact (hold row hrow).trans_lt hlt
      · exact (hgap row hrow).2.1
  case aligned =>
    intro row hrow
    rcases hmem row hrow with hrow | hrow | rfl
    · exact hi.aligned row hrow
    · exact (hgap row hrow).2.2.1
    · exact htdvd
  case past =>
    intro row hrow
    rcases hmem row hrow with hrow | hrow | rfl
    · exact (hi.past row hrow).trans htime
    · exact (hgap row hrow).2.1.le.trans htle
    · exact htle
  case once =>
    have hnone : ((Entry.gaps entry.width last.t t).flatMap Bin.cell).filterMap Mark.taken = [] := by
      refine List.filterMap_eq_nil_iff.2 fun mark hmark => ?_
      obtain ⟨g, hg, hmark⟩ := List.mem_flatMap.1 hmark
      rw [(hgap g hg).2.2.2] at hmark
      rw [List.mem_singleton.1 hmark]
      rfl
    rw [List.flatMap_append, List.flatMap_append, List.filterMap_append, List.filterMap_append,
      hnone, List.append_nil]
    rfl
  case inside =>
    intro row hrow mark hmark
    rcases hmem row hrow with hrow | hrow | rfl
    · exact hi.inside row hrow mark hmark
    · rw [(hgap row hrow).2.2.2] at hmark
      rw [List.mem_singleton.1 hmark]
      have hwide := hi.wide
      exact ⟨le_rfl, by simp only [Mark.time]; omega⟩
    · rw [List.mem_singleton.1 hmark]
      exact ⟨htle, htlt⟩

theorem of_push : Pushed entry time value (entry.push time value) := by
  have hwidth := hi.wide
  have htdvd := dvd_binStart entry.width time
  have htle : binStart entry.width time ≤ time := binStart_le hwidth
  have htlt : time < binStart entry.width time + entry.width := lt_binStart_add hwidth
  unfold Entry.push
  rcases List.eq_nil_or_concat entry.rows with hnil | ⟨front, last, hrows⟩
  · simp only [hnil, List.getLast?_nil]
    refine ⟨List.pairwise_singleton _ _, ?_, ?_, ?_, ?_⟩
    · exact fun row hrow => List.mem_singleton.1 hrow ▸ htdvd
    · exact fun row hrow => List.mem_singleton.1 hrow ▸ htle
    · rw [hnil]
      rfl
    · intro row hrow mark hmark
      obtain rfl := List.mem_singleton.1 hrow
      obtain rfl := List.mem_singleton.1 hmark
      exact ⟨htle, htlt⟩
  · rw [List.concat_eq_append] at hrows
    have hlast : last ∈ entry.rows := hrows ▸ List.mem_append_right _ List.mem_cons_self
    simp only [hrows, List.getLast?_append, List.getLast?_singleton, Option.some_or,
      List.dropLast_concat]
    by_cases hsame : last.t = binStart entry.width time
    · simp only [if_pos hsame]
      exact joined hi htime value hrows (hsame ▸ htlt)
    · simp only [if_neg hsame]
      rw [← hrows]
      have hle : last.t ≤ binStart entry.width time :=
        le_binStart hwidth (hi.aligned last hlast) ((hi.past last hlast).trans htime)
      have hold : ∀ row ∈ entry.rows, row.t ≤ last.t := by
        have hinc := hi.increasing
        rw [hrows] at hinc ⊢
        intro row hrow
        rcases List.mem_append.1 hrow with hrow | hrow
        · exact ((List.pairwise_append.1 hinc).2.2 row hrow last List.mem_cons_self).le
        · rw [List.mem_singleton.1 hrow]
      exact begun hi htime value hlast hold (lt_of_le_of_ne hle hsame) htdvd htle htlt

end Pushed

theorem EntryInv.sample {now time : Int} {entry : Entry (List Mark)} (hi : EntryInv now entry)
    (htime : now ≤ time) (value : Option ℚ) : EntryInv time (entry.sample time value) := by
  have hpushed := Pushed.of_push hi htime value
  unfold Entry.sample
  split
  · exact hi.later htime
  · generalize hrows : entry.push time value = rows at hpushed
    have hsub : ((rows.drop (rows.length - entry.limit)).dropWhile
        (Entry.stale (time - entry.retention))).Sublist rows :=
      (List.dropWhile_sublist _).trans (List.drop_sublist _ _)
    constructor
    case toRowsRight =>
      constructor
      case increasing => exact hpushed.increasing.sublist hsub
      case aligned => exact fun row hrow => hpushed.aligned row (hsub.subset hrow)
      case short =>
        refine (List.dropWhile_sublist _).length_le.trans ?_
        show (List.drop (rows.length - entry.limit) rows).length ≤ entry.limit
        rw [List.length_drop]
        omega
      case once =>
        simp only [List.append_assoc, List.takeWhile_append_dropWhile, List.take_append_drop]
        rw [List.flatMap_append, List.filterMap_append, hpushed.once, ← List.append_assoc,
          ← List.filterMap_append, ← List.flatMap_append, hi.once]
      case inside => exact fun row hrow => hpushed.inside row (hsub.subset hrow)
    case wide => exact hi.wide
    case room => exact hi.room
    case past => exact fun row hrow => hpushed.past row (hsub.subset hrow)

/-! ## Runs -/

namespace TrendCache

variable {σ : Type} [Holding σ]

theorem lookup_visits (now : Int) (perTag : Nat) {scopes : List (TrendKey × Scope)}
    (honce : (scopes.map Prod.fst).Nodup) (entries : List (TrendKey × Entry σ)) (key : TrendKey) :
    (Keyed.lookup entryKey (scopes.foldl (visit now perTag) entries) key).map Prod.snd =
      match scopes.lookup key with
      | some scope =>
        some ((((Keyed.lookup entryKey entries key).map Prod.snd).getD
          { startedAt := now }).reconcile now perTag scope.retention)
      | none => (Keyed.lookup entryKey entries key).map Prod.snd := by
  induction scopes generalizing entries with
  | nil => rfl
  | cons s scopes ih =>
    obtain ⟨hnot, honce⟩ := List.nodup_cons.1 honce
    have hput : Keyed.lookup entryKey (visit now perTag entries s) key =
        if s.1 = key then _ else Keyed.lookup entryKey entries key := Keyed.lookup_put rfl
    rw [List.foldl_cons, ih honce, hput]
    by_cases hkey : s.1 = key
    · subst hkey
      have hnone : scopes.lookup s.1 = none :=
        List.lookup_eq_none_iff.2 fun q hq => by
          have hne : s.1 ≠ q.1 := fun heq => hnot (heq ▸ List.mem_map_of_mem hq)
          simpa using hne
      rw [if_pos rfl, hnone, List.lookup_cons_self]
      rfl
    · have hcons : ((s :: scopes).lookup key) = scopes.lookup key := by
        rw [List.lookup_cons, show (key == s.1) = false by simpa using Ne.symm hkey]
      rw [if_neg hkey, hcons]

omit [Holding σ] in
theorem entry_empty (key : TrendKey) : ({} : TrendCache σ).entry key = none := rfl

/-- What `reconcile` makes of the entry of each key. -/
theorem entry_reconcile (now : Int) (scopes : Scopes) (cache : TrendCache σ)
    (hinputs : scopes.inputs.length ≤ Scopes.maxTags)
    {expressions : List (TrendKey × Parsed)} (hcompiled : scopes.expressions = .ok expressions)
    (key : TrendKey) : (cache.reconcile now scopes).entry key =
      (scopes.find key).map fun scope =>
        ((cache.entry key).getD { startedAt := now }).reconcile now scopes.perTag
          scope.retention := by
  have hfilter : ∀ key, Keyed.lookup entryKey
      (cache.entries.filter fun e => (scopes.find e.1).isSome) key =
        if (scopes.find key).isSome then Keyed.lookup entryKey cache.entries key else none :=
    Keyed.lookup_filter (q := fun key => (scopes.find key).isSome)
      (fun e k hk => by rw [← Option.some.inj hk]) cache.entries
  rw [reconcile, if_neg (by omega), hcompiled]
  refine (lookup_visits now scopes.perTag scopes.once _ key).trans ?_
  rw [hfilter key]
  show (match scopes.find key with | some _ => _ | none => _) = _
  cases scopes.find key <;> rfl

theorem entry_sample {V : Type} (values : TrendValues V) (time : Int) (rows : List TagRow)
    (cache : TrendCache σ) (key : TrendKey) : (cache.sample values time rows).entry key =
      (cache.entry key).map
        (Entry.sample time (readingOf values rows cache.expressions key)) := by
  have hmap : Keyed.lookup entryKey (cache.sample values time rows).entries key =
      (Keyed.lookup entryKey cache.entries key).map fun e =>
        (e.1, e.2.sample time (readingOf values rows cache.expressions e.1)) :=
    Keyed.lookup_map (fun _ => rfl) cache.entries key
  unfold entry
  rw [hmap]
  cases hlookup : Keyed.lookup entryKey cache.entries key with
  | none => rfl
  | some e =>
    have hkey : e.1 = key := Option.some.inj (Keyed.mem_of_lookup hlookup).2
    rw [← hkey]
    rfl

/-- A `reconcile` that takes over new scopes takes the rows of every entry whole. -/
def Fitting (cache : TrendCache σ) : TrendEvent → Prop
  | .reconcile now scopes =>
    scopes.inputs.length ≤ Scopes.maxTags → (∃ compiled, scopes.expressions = .ok compiled) →
      ∀ key scope, scopes.find key = some scope → ∀ entry, cache.entry key = some entry →
        entry.Fits now scope.retention (rowWidth scope.retention scopes.perTag)
  | .sample _ _ => True

theorem fitting_summarised {cache : TrendCache (List Mark)} {event : TrendEvent}
    (h : Fitting cache.summarised event) : Fitting cache event := by
  cases event with
  | sample time rows => trivial
  | reconcile now scopes =>
    intro hinputs hcompiled key scope hscope entry hentry row hrow hcurrent
    have hsummary : cache.summarised.entry key = some entry.summarised := by
      rw [entry_summarised, hentry]
      rfl
    exact h hinputs hcompiled key scope hscope _ hsummary (row.map summarise)
      (List.mem_map_of_mem hrow) hcurrent

section
variable {V : Type} (values : TrendValues V)

def Inv (now : Int) (cache : TrendCache (List Mark)) : Prop :=
  ∀ key entry, cache.entry key = some entry → EntryInv now entry

theorem Inv.step {cache : TrendCache (List Mark)} {event : TrendEvent}
    (hi : Inv event.time cache) (hfit : Fitting cache event) :
    Inv event.time (cache.step values event) := by
  intro key entry h
  cases event with
  | reconcile now scopes =>
    have h : (cache.reconcile now scopes).entry key = some entry := h
    by_cases hinputs : Scopes.maxTags < scopes.inputs.length
    · rw [reconcile, if_pos hinputs] at h
      exact hi key entry h
    · cases hcompiled : scopes.expressions with
      | error e =>
        rw [reconcile, if_neg hinputs, hcompiled] at h
        exact hi key entry h
      | ok expressions =>
        rw [entry_reconcile now scopes cache (by omega) hcompiled] at h
        obtain ⟨scope, hscope, hentry⟩ := Option.map_eq_some_iff.1 h
        rw [← hentry]
        cases hold : cache.entry key with
        | none => exact (EntryInv.started now).reconcile scopes.perTag_pos fun _ hrow => nomatch hrow
        | some old =>
          exact (hi key old hold).reconcile scopes.perTag_pos
            (hfit (by omega) ⟨_, hcompiled⟩ key scope hscope old hold)
  | sample time rows =>
    have h : (cache.sample values time rows).entry key = some entry := h
    rw [entry_sample] at h
    obtain ⟨old, hold, hentry⟩ := Option.map_eq_some_iff.1 h
    rw [← hentry]
    exact (hi key old hold).sample le_rfl _

/-- The induction is on the run from its end: the last event is the latest. -/
theorem Inv.run {events : List TrendEvent}
    (htimes : events.Pairwise fun a b => a.time ≤ b.time)
    (hfit : Along (TrendCache.step values) Fitting ({} : TrendCache Summary) events) {now : Int}
    (hnow : ∀ event ∈ events, event.time ≤ now) :
    Inv now (Lib.run (TrendCache.step values) {} events) := by
  induction events using List.reverseRecOn generalizing now with
  | nil => exact fun key entry h => absurd (h.symm.trans (entry_empty key)) (by simp)
  | append_singleton events event ih =>
    obtain ⟨htimes, -, hlast⟩ := List.pairwise_append.1 htimes
    obtain ⟨hfit, hevent, -⟩ := along_append.1 hfit
    have hi : Inv event.time (Lib.run (TrendCache.step values) {} events) :=
      ih htimes hfit fun e he => hlast e he event List.mem_cons_self
    rw [run_summarised] at hevent
    rw [run_append]
    have hstep := hi.step values (fitting_summarised hevent)
    exact fun key entry h => (hstep key entry h).later (hnow event (by simp))

end

end TrendCache

/-! ## Queries -/

/-- What a bucket says of the samples and markers in it. -/
structure Bucket.Reports (bucket : Bucket) (marks : List Mark) : Prop where
  count : bucket.count = (values marks).length
  avg : bucket.avg = if marks.any Mark.bad then none else mean? (values marks)
  min : bucket.min = if marks.any Mark.bad then none else (values marks).min?
  max : bucket.max = if marks.any Mark.bad then none else (values marks).max?
  quality : bucket.quality = if marks.any Mark.bad then 0 else 1

def Mark.within (bucket : Bucket) (mark : Mark) : Bool :=
  bucket.bucketStart ≤ mark.time && mark.time < bucket.bucketEnd

structure BucketsRight (entry : Entry (List Mark)) (buckets : List Bucket) : Prop where
  increasing : buckets.Pairwise fun a b => a.bucketStart < b.bucketStart
  reports : ∀ bucket ∈ buckets,
    bucket.Reports ((entry.rows.flatMap Bin.cell).filter (Mark.within bucket))

/-- Every row lies in one bucket, and the rows of a bucket are all asked for or none. -/
def Entry.Answers {σ : Type} (first last : ℚ) (entry : Entry σ) : Prop :=
  let width := bucketWidth (some entry) first last
  (∀ row ∈ entry.rows, Whole entry.width width row.t) ∧
    ∀ row ∈ entry.rows, ∀ row' ∈ entry.rows, binStart width row.t = binStart width row'.t →
      Entry.inRange first last row = true → Entry.inRange first last row' = true

instance {σ : Type} (first last : ℚ) (entry : Entry σ) : Decidable (entry.Answers first last) :=
  inferInstanceAs (Decidable (_ ∧ _))

theorem bad_pos (marks : List Mark) : marks.countP Mark.bad ≠ 0 ↔ marks.any Mark.bad = true := by
  rw [Nat.ne_zero_iff_zero_lt, List.countP_pos_iff, List.any_eq_true]

theorem reports_summarise (marks : List Mark) (bucketStart bucketEnd : Int) :
    ((summarise marks).bucket bucketStart bucketEnd).Reports marks := by
  have hbad : (summarise marks).bad ≠ 0 ↔ marks.any Mark.bad = true := bad_pos marks
  constructor
  case count => rfl
  case avg =>
    show (if (summarise marks).bad ≠ 0 then none else _) = _
    simp only [hbad]
    by_cases h : (values marks).length = 0 <;> simp [mean?, summarise, h]
  case min =>
    show (if (summarise marks).bad ≠ 0 then none else _) = _
    simp only [hbad]
    rfl
  case max =>
    show (if (summarise marks).bad ≠ 0 then none else _) = _
    simp only [hbad]
    rfl
  case quality =>
    show (if (summarise marks).bad ≠ 0 then 0 else 1) = _
    simp only [hbad]

theorem bucketWidth_pos {now : Int} {entry : Entry (List Mark)} (hi : EntryInv now entry)
    (first last : ℚ) : 0 < bucketWidth (some entry) first last :=
  lt_of_lt_of_le hi.wide (le_max_left _ _)

theorem flatMap_filter_eq {α β : Type*} {p : α → Bool} {f g : α → List β} {l : List α}
    (hf : ∀ a ∈ l, p a = true → f a = g a) (hg : ∀ a ∈ l, p a = false → g a = []) :
    (l.filter p).flatMap f = l.flatMap g := by
  induction l with
  | nil => rfl
  | cons a l ih =>
    have ih := ih (fun b hb => hf b (List.mem_cons_of_mem _ hb))
      fun b hb => hg b (List.mem_cons_of_mem _ hb)
    cases hp : p a with
    | false => rw [List.filter_cons_of_neg (by simp [hp]), ih, List.flatMap_cons,
        hg a List.mem_cons_self hp, List.nil_append]
    | true => rw [List.filter_cons_of_pos hp, List.flatMap_cons, List.flatMap_cons, ih,
        hf a List.mem_cons_self hp]

/-- The buckets of an entry, from its marks. -/
theorem buckets_right {now : Int} {entry : Entry (List Mark)} (hi : EntryInv now entry)
    {first last : ℚ} (hanswers : entry.Answers first last) :
    BucketsRight entry
      ((Bin.rebinned (bucketWidth (some entry) first last)
        (entry.rows.filter (Entry.inRange first last))).map fun p =>
          (summarise p.cell).bucket p.t (p.t + bucketWidth (some entry) first last)) := by
  obtain ⟨hwhole, hcut⟩ := hanswers
  have hwidth := bucketWidth_pos hi first last
  generalize hw : bucketWidth (some entry) first last = width at hwhole hcut hwidth ⊢
  have hinc : Bin.Increasing (entry.rows.filter (Entry.inRange first last)) :=
    hi.increasing.filter _
  constructor
  case increasing => exact List.pairwise_map.2 (Bin.rebin_sorted hwidth hinc)
  case reports =>
    intro bucket hbucket
    obtain ⟨p, hp, rfl⟩ := List.mem_map.1 hbucket
    obtain ⟨hcell, b, hb, hstart⟩ := Bin.rebin_mem hwidth hinc hp
    obtain ⟨hb, hin⟩ := List.mem_filter.1 hb
    suffices h : p.cell = (entry.rows.flatMap Bin.cell).filter
        (Mark.within ((summarise p.cell).bucket p.t (p.t + width))) by
      rw [← h]
      exact reports_summarise p.cell p.t (p.t + width)
    have hrange : Bin.within width (entry.rows.filter (Entry.inRange first last)) p.t =
        entry.rows.filter fun row => binStart width row.t = p.t := by
      rw [Bin.within, List.filter_filter]
      refine List.filter_congr fun row hrow => ?_
      by_cases heq : binStart width row.t = p.t
      · have hasked := hcut b hb row hrow (hstart.trans heq.symm) hin
        simp [heq, hasked]
      · simp [heq]
    rw [hcell, hrange, List.filter_flatMap]
    refine flatMap_filter_eq (fun row hrow heq => ?_) fun row hrow hne => ?_
    · -- the row is one of the bucket
      have heq : binStart width row.t = p.t := of_decide_eq_true heq
      refine (List.filter_eq_self.2 fun mark hmark => ?_).symm
      obtain ⟨hle, hlt⟩ := hi.inside row hrow mark hmark
      have hlow : p.t ≤ row.t := heq ▸ binStart_le hwidth
      have hhigh : row.t + entry.width ≤ p.t + width := heq ▸ hwhole row hrow
      exact Bool.and_eq_true_iff.2 ⟨decide_eq_true (hlow.trans hle),
        decide_eq_true (hlt.trans_le hhigh)⟩
    · -- no mark of another row lies in the bucket
      have hne : binStart width row.t ≠ p.t := of_decide_eq_false hne
      refine List.filter_eq_nil_iff.2 fun mark hmark hin => hne ?_
      obtain ⟨hstart', hend⟩ := Bool.and_eq_true_iff.1 hin
      have hstart' : p.t ≤ mark.time := of_decide_eq_true hstart'
      have hend : mark.time < p.t + width := of_decide_eq_true hend
      obtain ⟨hle, hlt⟩ := hi.inside row hrow mark hmark
      have hdvd : width ∣ p.t := hstart ▸ dvd_binStart width b.t
      have hmark : binStart width mark.time = p.t := binStart_eq hwidth hdvd hstart' hend
      have hrow' : binStart width mark.time = binStart width row.t :=
        binStart_eq hwidth (dvd_binStart width row.t) ((binStart_le hwidth).trans hle)
          (hlt.trans_le (hwhole row hrow))
      exact hrow'.symm.trans hmark

/-- The buckets of a query are those of the entry's marks, summarised. -/
theorem query_buckets (cache : TrendCache (List Mark)) {key : TrendKey} {entry : Entry (List Mark)}
    (h : cache.entry key = some entry) (first last : ℚ) :
    (cache.summarised.query key first last).buckets =
      (Bin.rebinned (bucketWidth (some entry) first last)
        (entry.rows.filter (Entry.inRange first last))).map fun p =>
          (summarise p.cell).bucket p.t (p.t + bucketWidth (some entry) first last) := by
  have hentry : cache.summarised.entry key = some entry.summarised := by
    rw [TrendCache.entry_summarised, h]
    rfl
  have hrows : entry.summarised.rows.filter (Entry.inRange first last) =
      (entry.rows.filter (Entry.inRange first last)).map (Bin.map summarise) := List.filter_map
  show (Bin.rebin Holding.combine (bucketWidth (cache.summarised.entry key) first last)
    ((((cache.summarised.entry key).map Entry.rows).getD []).filter
      (Entry.inRange first last))).map _ = _
  rw [hentry, Option.map_some, Option.getD_some, hrows, Bin.rebin_map summarise_combine,
    List.map_map]
  rfl

theorem exists_later (events : List TrendEvent) : ∃ now, ∀ event ∈ events, event.time ≤ now := by
  induction events with
  | nil => exact ⟨0, fun _ h => nomatch h⟩
  | cons event events ih =>
    obtain ⟨now, hnow⟩ := ih
    refine ⟨max event.time now, fun e he => ?_⟩
    rcases List.mem_cons.1 he with rfl | he
    · exact le_max_left _ _
    · exact (hnow e he).trans (le_max_right _ _)

section
variable {V : Type} (values : TrendValues V)

/-- **The rows of a trend hold the samples of their time**, and so do the buckets of a query, as
long as a new width takes the rows whole. -/
theorem trend_rows_right {events : List TrendEvent}
    (htimes : events.Pairwise fun a b => a.time ≤ b.time)
    (hfit : Along (TrendCache.step values) TrendCache.Fitting ({} : TrendCache Summary) events)
    (key : TrendKey) :
    let cache := run (TrendCache.step values) ({} : TrendCache Summary) events
    let marked := run (TrendCache.step values) ({} : TrendCache (List Mark)) events
    cache.entry key = (marked.entry key).map Entry.summarised ∧
      (∀ entry, marked.entry key = some entry → RowsRight entry ∧
        ∀ first last, entry.Answers first last →
          BucketsRight entry (cache.query key first last).buckets) ∧
      (marked.entry key = none → ∀ first last, (cache.query key first last).buckets = []) := by
  intro cache marked
  have hcache : cache = marked.summarised := TrendCache.run_summarised values events
  obtain ⟨now, hnow⟩ := exists_later events
  have hi : TrendCache.Inv now marked := TrendCache.Inv.run values htimes hfit hnow
  rw [hcache]
  refine ⟨marked.entry_summarised key, fun entry hentry => ?_, fun hnone first last => ?_⟩
  · have hentryInv := hi key entry hentry
    refine ⟨hentryInv.toRowsRight, fun first last hanswers => ?_⟩
    rw [query_buckets marked hentry]
    exact buckets_right hentryInv hanswers
  · have hentry : marked.summarised.entry key = none := by
      rw [marked.entry_summarised, hnone]
      rfl
    simp only [TrendCache.query, hentry]
    rfl

end

/-! ## A narrowed window -/

def flowKey : TrendKey := (js "PLC", js "Flow")

def flowScope (retention : ℚ) : Scopes :=
  ⟨[(flowKey, { connectionId := js "PLC", name := js "Flow", retention })], by simp⟩

def flowRow (x : ℚ) : TagRow :=
  { connectionId := js "PLC", name := js "Flow", quality := .number 1, value := .number x }

/-- For series that are no expressions. -/
def noExpressions : TrendValues Unit where
  literal _ := ()
  truthy _ := false
  unary _ _ := .ok ()
  binary _ _ _ := .ok ()
  call _ _ := .ok ()
  result := .ok
  ofNumber _ := ()
  ofText _ := ()
  number _ := none

def widening : List TrendEvent :=
  [.reconcile 3000 (flowScope 6000000), .sample 3500 [flowRow 7],
    .reconcile 3500 (flowScope 12000000), .sample 9000 []]

theorem widened_rows_right :
    let cache := run (TrendCache.step noExpressions) ({} : TrendCache Summary) widening
    ∃ entry, cache.entry flowKey = some (Entry.summarised entry) ∧ RowsRight entry ∧
      BucketsRight entry (cache.query flowKey 0 10000).buckets := by
  have hrow : (run (TrendCache.step noExpressions) ({} : TrendCache Summary)
      (widening.take 2)).entry flowKey = some
        { rows := [⟨3000, ⟨1, 7, some 7, some 7, 0⟩⟩], startedAt := 3000, width := 1000,
          retention := 6000000, limit := 6000, taken := [(3500, some 7)] } := by
    decide +kernel
  have hfit : Along (TrendCache.step noExpressions) TrendCache.Fitting ({} : TrendCache Summary)
      widening := by
    refine ⟨?_, trivial, ?_, trivial, trivial⟩
    · intro _ _ key scope _ entry hentry
      exact absurd (hentry.symm.trans (TrendCache.entry_empty key)) (by simp)
    intro _ _ key scope hscope entry hentry row hmem _
    have hkey : key = flowKey := by
      by_contra hne
      have hfalse : (key == flowKey) = false := by simpa using hne
      simp [Scopes.find, flowScope, List.lookup_cons, hfalse] at hscope
    subst hkey
    obtain rfl := Option.some.inj (hrow.symm.trans hentry)
    have hscope : scope.retention = 12000000 := by
      rw [← Option.some.inj hscope]
    obtain rfl := List.mem_singleton.1 hmem
    rw [hscope]
    decide +kernel
  obtain ⟨heq, hright, -⟩ := trend_rows_right noExpressions (by decide) hfit flowKey
  have hentry : (run (TrendCache.step noExpressions) ({} : TrendCache (List Mark)) widening).entry
      flowKey = some
        { rows := [⟨2000, [.sample 3500 (some 7)]⟩, ⟨4000, [.gap 4000]⟩, ⟨6000, [.gap 6000]⟩,
            ⟨8000, [.sample 9000 none]⟩], startedAt := 3000, width := 2000,
          retention := 12000000, limit := 6000, taken := [(3500, some 7), (9000, none)] } := by
    decide +kernel
  obtain ⟨hrows, hbuckets⟩ := hright _ hentry
  exact ⟨_, heq.trans (congrArg _ hentry), hrows, hbuckets 0 10000 (by decide +kernel)⟩

/-- A sample of second 3 in the row of second 2, once rows of two seconds are cut to one. -/
theorem narrowed_row_wrong :
    let events : List TrendEvent := [.reconcile 3000 (flowScope 12000000),
      .sample 3500 [flowRow 7], .reconcile 3500 (flowScope 6000000)]
    let cache := run (TrendCache.step noExpressions) ({} : TrendCache Summary) events
    let marked := run (TrendCache.step noExpressions) ({} : TrendCache (List Mark)) events
    (events.Pairwise fun a b => a.time ≤ b.time) ∧
      ∃ entry, marked.entry flowKey = some entry ∧ ¬RowsRight entry ∧
        ¬BucketsRight entry (cache.query flowKey 0 10000).buckets := by
  have hentry : (run (TrendCache.step noExpressions) ({} : TrendCache (List Mark))
      [.reconcile 3000 (flowScope 12000000), .sample 3500 [flowRow 7],
        .reconcile 3500 (flowScope 6000000)]).entry flowKey = some
          { rows := [⟨2000, [.sample 3500 (some 7)]⟩], startedAt := 3000, width := 1000,
            retention := 6000000, limit := 6000, taken := [(3500, some 7)] } := by
    decide +kernel
  refine ⟨by decide, _, hentry, ?_, ?_⟩
  · intro h
    have hlt := (h.inside _ List.mem_cons_self _ List.mem_cons_self).2
    revert hlt
    decide
  · intro h
    have hcount := (h.reports ⟨2000, 3000, 1, some 7, some 7, some 7, 1⟩ (by decide +kernel)).count
    revert hcount
    decide

end OpcBridge.Hmi
