import OpcBridge.Historian.Tiers

/-!
# When a tier answers like the raw table

Both queries aggregate the values of some rows of the tag: the raw one those of `selects`, that of a
tier those of the buckets of `selectsBucket` (`aggregates_raw`, `aggregates_tier`). So they agree,
whatever the values are, exactly if these are the same rows (`Fits`, `BucketsFit`,
`tier_answers_iff`). For ends that are bucket starts and are printed with all their digits this is a
condition on the bucket at the upper end and on the quality (`window_aligned`).
-/

namespace OpcBridge.Historian

open Lib

section
variable {K : Type} [Field K] [LinearOrder K] [IsStrictOrderedRing K]

/-! ## What the queries aggregate -/

/-- The aggregates of the rows are those of the values. -/
structure Aggregates (rows : List (FilteredRow K)) (values : List K) : Prop where
  count : (rows.map FilteredRow.n).sum = values.length
  min : (rows.filterMap FilteredRow.minV).min? = values.min?
  max : (rows.filterMap FilteredRow.maxV).max? = values.max?
  mean : weightedMean rows = mean? values

omit [IsStrictOrderedRing K] in
theorem Aggregates.perm {rows : List (FilteredRow K)} {values values' : List K}
    (h : Aggregates rows values) (hperm : values.Perm values') : Aggregates rows values' where
  count := h.count.trans hperm.length_eq
  min := h.min.trans (min?_congr fun _ => hperm.mem_iff)
  max := h.max.trans (max?_congr fun _ => hperm.mem_iff)
  mean := by rw [h.mean, mean?, mean?, hperm.length_eq, hperm.sum_eq]

omit [IsStrictOrderedRing K] in
theorem aggregates_raw (l : List (RowKey × K)) :
    Aggregates (l.map rawRow) (l.map Prod.snd) := by
  have hcount : ((l.map rawRow).map FilteredRow.n).sum = l.length := by
    rw [List.map_map, show (FilteredRow.n ∘ rawRow : RowKey × K → Nat) = fun _ => 1 from rfl]
    simp
  have hvalues : ∀ f : FilteredRow K → Option K, (∀ x, f (rawRow x) = some x.2) →
      (l.map rawRow).filterMap f = l.map Prod.snd := by
    intro f hf
    rw [List.filterMap_map, ← List.filterMap_eq_map]
    exact List.filterMap_congr fun x _ => hf x
  refine ⟨by rw [hcount, List.length_map], ?_, ?_, ?_⟩
  · rw [hvalues _ fun _ => rfl]
  · rw [hvalues _ fun _ => rfl]
  · unfold weightedMean mean?
    dsimp only
    rw [hcount, hvalues _ fun _ => rfl, List.length_map]

theorem aggregates_tier (last : LastRow) (gs : List (BucketKey × List (RowKey × K))) :
    Aggregates (gs.map fun g => tierRow (viewRow last g))
      ((gs.map Prod.snd).flatten.map Prod.snd) := by
  have hflat : (gs.map Prod.snd).flatten.map Prod.snd =
      (gs.map fun g => g.2.map Prod.snd).flatten := by
    rw [List.map_flatten, List.map_map]
    rfl
  have hcount : ((gs.map fun g => tierRow (viewRow last g)).map FilteredRow.n).sum =
      ((gs.map fun g => g.2.map Prod.snd).flatten).length := by
    rw [List.length_flatten, List.map_map, List.map_map]
    congr 1
    refine List.map_congr_left fun g _ => ?_
    exact (List.length_map _).symm
  rw [hflat]
  refine ⟨hcount, ?_, ?_, ?_⟩
  · rw [← min?_groups, List.filterMap_map, List.filterMap_map]
    rfl
  · rw [← max?_groups, List.filterMap_map, List.filterMap_map]
    rfl
  · unfold weightedMean
    dsimp only
    rw [hcount, mean?, ← sum_means, List.filterMap_map, List.filterMap_map]
    have hsum : (FilteredRow.weighted ∘ fun g => tierRow (viewRow last g)) =
        ((fun l => (mean? l).map (· * (l.length : K))) ∘ fun g : BucketKey × List (RowKey × K) =>
          g.2.map Prod.snd) := by
      funext g
      simp [tierRow, viewRow]
    rw [hsum]

/-- The rows that the answer of a tier is made of. -/
def tierRows (tier : ResolutionTier) (q : TagQuery) (rows : List (StoredRow K)) :
    List (RowKey × K) :=
  (valued rows).filter fun x => q.selectsBucket (x.1.bucketKey tier)

/-- The groups of the view that pass the `WHERE`. -/
def tierGroups (tier : ResolutionTier) (q : TagQuery) (rows : List (StoredRow K)) :
    List (BucketKey × List (RowKey × K)) :=
  (groupBy (fun x : RowKey × K => x.1.bucketKey tier) (valued rows)).filter fun g =>
    q.selectsBucket g.1

omit [IsStrictOrderedRing K] in
theorem filteredTier_eq (last : LastRow) (tier : ResolutionTier) (q : TagQuery)
    (rows : List (StoredRow K)) :
    filteredTier last tier q rows =
      (tierGroups tier q rows).map fun g => tierRow (viewRow last g) := by
  unfold filteredTier continuousAggregate tierGroups
  rw [List.filter_map, List.map_map]
  rfl

theorem aggregates_filteredTier (last : LastRow) (tier : ResolutionTier) (q : TagQuery)
    (rows : List (StoredRow K)) :
    Aggregates (filteredTier last tier q rows) ((tierRows tier q rows).map Prod.snd) := by
  rw [filteredTier_eq]
  exact (aggregates_tier last _).perm ((groupBy_filter_perm _ _ _).map _)

/-! ## The last value -/

/-- A value of one of the latest rows. -/
def IsLast (l : List (RowKey × K)) : Option K → Prop
  | none => l = []
  | some v => ∃ x ∈ l, x.2 = v ∧ ∀ y ∈ l, y.1.tsMs ≤ x.1.tsMs

omit [Field K] [LinearOrder K] [IsStrictOrderedRing K] in
theorem IsLast.unique {l : List (RowKey × K)} {v v' : Option K}
    (hnodup : (l.map fun x => x.1.tsMs).Nodup) (h : IsLast l v) (h' : IsLast l v') : v = v' := by
  cases v with
  | none =>
    cases v' with
    | none => rfl
    | some v' =>
      obtain ⟨x, hx, -⟩ := h'
      rw [(h : l = [])] at hx
      cases hx
  | some v =>
    obtain ⟨x, hx, rfl, hmax⟩ := h
    cases v' with
    | none =>
      rw [(h' : l = [])] at hx
      cases hx
    | some v' =>
      obtain ⟨x', hx', rfl, hmax'⟩ := h'
      have heq := List.inj_on_of_nodup_map hnodup hx hx' (le_antisymm (hmax' x hx) (hmax x' hx'))
      rw [heq]

omit [Field K] [LinearOrder K] [IsStrictOrderedRing K] in
theorem isLast_raw (last : LastRow) (l : List (RowKey × K)) :
    IsLast l ((last.pick FilteredRow.tsMs (l.map rawRow)).bind FilteredRow.lastV) := by
  cases hpick : last.pick FilteredRow.tsMs (l.map rawRow) with
  | none =>
    show l = []
    by_contra hne
    exact last.pick_ne_none _ _ (by simpa using hne) hpick
  | some row =>
    obtain ⟨hmem, hmax⟩ := last.pick_mem _ _ _ hpick
    obtain ⟨x, hx, rfl⟩ := List.mem_map.1 hmem
    exact ⟨x, hx, rfl, fun y hy => hmax _ (List.mem_map_of_mem hy)⟩

theorem timeBucket_mono {res a b : Int} (hres : 0 < res) (h : a ≤ b) :
    timeBucket res a ≤ timeBucket res b := by
  unfold timeBucket
  have hdiv := Int.ediv_le_ediv hres (by omega : a - timeBucketOrigin ≤ b - timeBucketOrigin)
  have := Int.mul_le_mul_of_nonneg_right hdiv hres.le
  omega

omit [IsStrictOrderedRing K] in
theorem isLast_tier (last : LastRow) (tier : ResolutionTier) (q : TagQuery)
    (rows : List (StoredRow K)) :
    IsLast (tierRows tier q rows)
      ((last.pick FilteredRow.tsMs (filteredTier last tier q rows)).bind FilteredRow.lastV) := by
  rw [filteredTier_eq]
  -- every row is in its group
  have hgroup : ∀ y ∈ tierRows tier q rows, ∃ g ∈ tierGroups tier q rows,
      g.1 = y.1.bucketKey tier ∧ ∀ z ∈ tierRows tier q rows, z.1.bucketKey tier = g.1 → z ∈ g.2 := by
    intro y hy
    obtain ⟨hval, hsel⟩ := List.mem_filter.1 hy
    refine ⟨(y.1.bucketKey tier, _), List.mem_filter.2 ⟨List.mem_map.2 ⟨y.1.bucketKey tier,
      List.mem_dedup.2 (List.mem_map.2 ⟨y, hval, rfl⟩), rfl⟩, hsel⟩, rfl, fun z hz hkey => ?_⟩
    exact List.mem_filter.2 ⟨(List.mem_filter.1 hz).1, by simpa using hkey⟩
  cases hpick : last.pick FilteredRow.tsMs
      ((tierGroups tier q rows).map fun g => tierRow (viewRow last g)) with
  | none =>
    show tierRows tier q rows = []
    rw [List.eq_nil_iff_forall_not_mem]
    intro y hy
    obtain ⟨g, hg, -⟩ := hgroup y hy
    exact last.pick_ne_none _ _ (List.ne_nil_of_mem (List.mem_map_of_mem hg)) hpick
  | some row =>
    obtain ⟨hmem, hmax⟩ := last.pick_mem _ _ _ hpick
    obtain ⟨g, hg, rfl⟩ := List.mem_map.1 hmem
    obtain ⟨hgmem, hsel⟩ := List.mem_filter.1 hg
    obtain ⟨hne, hin⟩ := groupBy_ne_nil hgmem
    show IsLast _ ((last.pick (fun x : RowKey × K => x.1.tsMs) g.2).map Prod.snd)
    cases hlast : last.pick (fun x : RowKey × K => x.1.tsMs) g.2 with
    | none => exact absurd hlast (last.pick_ne_none _ _ hne)
    | some x =>
      obtain ⟨hx, hxmax⟩ := last.pick_mem _ _ _ hlast
      obtain ⟨hxval, hxkey⟩ := hin x hx
      refine ⟨x, List.mem_filter.2 ⟨hxval, by rw [hxkey]; exact hsel⟩, rfl, fun y hy => ?_⟩
      obtain ⟨g', hg', hkey', -⟩ := hgroup y hy
      have hbucket : (y.1.bucketKey tier).bucket ≤ (x.1.bucketKey tier).bucket := by
        rw [← hkey', hxkey]
        exact hmax _ (List.mem_map_of_mem hg')
      by_contra hlt
      have hle := timeBucket_mono tier.resolution_pos (by omega : x.1.tsMs ≤ y.1.tsMs)
      -- a later row of the same bucket is in the same group
      have hysel := (List.mem_filter.1 hy).2
      have hsame : y.1.bucketKey tier = g.1 := by
        rw [← hxkey]
        simp only [TagQuery.selectsBucket, Bool.and_eq_true, beq_iff_eq] at hsel hysel
        rw [← hxkey] at hsel
        have hb : (y.1.bucketKey tier).bucket = (x.1.bucketKey tier).bucket := le_antisymm hbucket hle
        have hc := hysel.1.1.1.trans hsel.1.1.1.symm
        have ht := hysel.1.1.2.trans hsel.1.1.2.symm
        cases hy' : y.1.bucketKey tier
        cases hx' : x.1.bucketKey tier
        rw [hy', hx'] at hb hc ht
        simp only [BucketKey.mk.injEq]
        exact ⟨hb, hc, ht⟩
      have hyin : y ∈ g.2 := by
        obtain ⟨k, hk, rfl⟩ := List.mem_map.1 hgmem
        exact List.mem_filter.2 ⟨(List.mem_filter.1 hy).1, by simpa using hsame⟩
      exact hlt (hxmax y hyin)

/-! ## What is promised -/

/-- All of a summary that both queries can give. -/
def SummaryResult.numbers (r : SummaryResult K) :
    Nat × Option K × Option K × Option K × Option K := (r.count, r.min, r.max, r.avg, r.last)

/-- Whatever the values of the rows are, and whichever of the latest rows is taken, the summary from
the tier is that from the raw table, and with `goodOnly` no sample of bad quality is in it. -/
def SummaryAgrees (K : Type) [Field K] [LinearOrder K] (table : String)
    (tiers : List ResolutionTier) (now : Int) (q : TagQuery) (tier : ResolutionTier)
    (keys : List RowKey) : Prop :=
  ∀ (rows : List (StoredRow K)) (last last' : LastRow), rows.map StoredRow.key = keys →
    (querySummary last table tiers now q rows).map SummaryResult.numbers =
        some (summarize last' (filteredRaw q rows)).numbers ∧
      (q.goodOnly = true → ∀ x ∈ tierRows tier q rows, x.1.good = true)

/-- The same of the buckets of a query. -/
def BucketsAgree (K : Type) [Field K] [LinearOrder K] (table : String)
    (tiers : List ResolutionTier) (now : Int) (q : TagQuery) (bucketMs limit : Int)
    (tier : ResolutionTier) (keys : List RowKey) : Prop :=
  ∀ (rows : List (StoredRow K)) (last : LastRow), rows.map StoredRow.key = keys →
    queryBuckets last table tiers now q bucketMs limit rows =
        some (bucketPoints q bucketMs limit (filteredRaw q rows)) ∧
      (q.goodOnly = true → ∀ x ∈ tierRows tier q rows, x.1.good = true)

/-! ## When it is kept -/

/-- The database takes the query, and the tier and the raw query are about the same rows. -/
structure Window (table : String) (q : TagQuery) (tier : ResolutionTier) (keys : List RowKey) :
    Prop where
  name : queriedView table tier = createdView table tier
  fromEnd : isTimestamp (printedSeconds q.fromMs) = true
  toEnd : isTimestamp (printedSeconds q.toMs) = true
  same : ∀ k ∈ keys, q.selectsBucket (k.bucketKey tier) = q.selects k

structure Fits (table : String) (q : TagQuery) (tier : ResolutionTier) (keys : List RowKey) :
    Prop where
  window : Window table q tier keys
  /-- No two of the rows are of one time. -/
  distinct : keys.Pairwise fun a b => q.selects a = true → q.selects b = true → a.tsMs ≠ b.tsMs

structure BucketsFit (table : String) (q : TagQuery) (bucketMs : Int) (tier : ResolutionTier)
    (keys : List RowKey) : Prop where
  window : Window table q tier keys
  /-- The bucket of the view starts in the slice of the row. -/
  slice : ∀ k ∈ keys, q.selects k = true →
    bucketIdx q bucketMs (k.bucketKey tier).bucket = bucketIdx q bucketMs k.tsMs

variable {table : String} {tiers : List ResolutionTier} {now : Int} {q : TagQuery}
  {tier : ResolutionTier} {keys : List RowKey} {rows : List (StoredRow K)}

omit [Field K] [LinearOrder K] [IsStrictOrderedRing K] in
theorem valued_keys {x : RowKey × K} (h : x ∈ valued rows) : x.1 ∈ rows.map StoredRow.key := by
  obtain ⟨row, hrow, hx⟩ := List.mem_filterMap.1 h
  obtain ⟨v, -, rfl⟩ := Option.map_eq_some_iff.1 hx
  exact List.mem_map_of_mem hrow

omit [Field K] [LinearOrder K] [IsStrictOrderedRing K] in
theorem valued_keys_sublist (rows : List (StoredRow K)) :
    ((valued rows).map Prod.fst).Sublist (rows.map StoredRow.key) := by
  induction rows with
  | nil => exact List.Sublist.slnil
  | cons row rows ih =>
    unfold valued at ih ⊢
    cases hv : row.value with
    | none =>
      rw [List.filterMap_cons_none (by rw [hv]; rfl)]
      exact ih.cons _
    | some v =>
      rw [List.filterMap_cons_some (b := (row.key, v)) (by rw [hv]; rfl)]
      exact ih.cons_cons _

omit [Field K] [LinearOrder K] [IsStrictOrderedRing K] in
/-- Rows with these keys of which only these have a value. -/
theorem exists_rows (xs : List (RowKey × K)) (h : (xs.map Prod.fst).Sublist keys) :
    ∃ rows : List (StoredRow K), rows.map StoredRow.key = keys ∧ valued rows = xs := by
  generalize hks : xs.map Prod.fst = ks at h
  induction h generalizing xs with
  | slnil =>
    rw [List.map_eq_nil_iff.1 hks]
    exact ⟨[], rfl, rfl⟩
  | cons k h ih =>
    obtain ⟨rows, hkeys, hval⟩ := ih _ hks
    refine ⟨⟨k, none⟩ :: rows, by rw [List.map_cons, hkeys], ?_⟩
    rw [← hval]
    rfl
  | cons_cons k h ih =>
    obtain ⟨x, xs, rfl, rfl, hrest⟩ := List.map_eq_cons_iff.1 hks
    obtain ⟨rows, hkeys, hval⟩ := ih _ hrest
    refine ⟨⟨x.1, some x.2⟩ :: rows, by rw [List.map_cons, hkeys], ?_⟩
    rw [← hval]
    rfl

omit [Field K] [LinearOrder K] [IsStrictOrderedRing K] in
theorem Window.tierRows_eq (h : Window table q tier keys) (hkeys : rows.map StoredRow.key = keys) :
    tierRows tier q rows = (valued rows).filter fun x => q.selects x.1 :=
  List.filter_congr fun x hx => h.same x.1 (hkeys ▸ valued_keys hx)

omit [IsStrictOrderedRing K] in
theorem Window.queryTier_eq (h : Window table q tier keys) (last : LastRow) :
    queryTier last table tier q rows = some (filteredTier last tier q rows) :=
  if_pos ⟨h.name, h.fromEnd, h.toEnd⟩

omit [Field K] [LinearOrder K] [IsStrictOrderedRing K] in
/-- With the same rows no bad one is in the answer. -/
theorem Window.good (h : Window table q tier keys) (hkeys : rows.map StoredRow.key = keys)
    (hgood : q.goodOnly = true) : ∀ x ∈ tierRows tier q rows, x.1.good = true := by
  intro x hx
  rw [h.tierRows_eq hkeys] at hx
  have hsel := (List.mem_filter.1 hx).2
  simp only [TagQuery.selects, hgood, Bool.not_true, Bool.false_or, Bool.and_eq_true] at hsel
  exact hsel.2

/-! ## Summaries -/

theorem summary_of_fits (h : Fits table q tier keys)
    (htier : chooseResolutionTier tiers now q.fromMs maxInt64 = some tier) :
    SummaryAgrees K table tiers now q tier keys := by
  intro rows last last' hkeys
  refine ⟨?_, h.window.good hkeys⟩
  have hquery : querySummary last table tiers now q rows =
      some (summarize last (filteredTier last tier q rows)) := by
    unfold querySummary queryRows
    rw [htier]
    dsimp only
    rw [h.window.queryTier_eq]
    rfl
  rw [hquery]
  have hrows := h.window.tierRows_eq hkeys
  have htiers := aggregates_filteredTier last tier q rows
  have hraw : Aggregates (filteredRaw q rows) _ :=
    aggregates_raw ((valued rows).filter fun x => q.selects x.1)
  rw [hrows] at htiers
  have hlast := isLast_tier last tier q rows
  rw [hrows] at hlast
  have hnodup : (((valued rows).filter fun x => q.selects x.1).map fun x => x.1.tsMs).Nodup := by
    rw [List.Nodup, List.pairwise_map, List.pairwise_filter]
    have hsub := h.distinct
    rw [← hkeys] at hsub
    exact List.pairwise_map.1 (hsub.sublist (valued_keys_sublist rows))
  show some _ = some _
  simp only [SummaryResult.numbers, summarize, htiers.count, htiers.min, htiers.max, htiers.mean,
    hraw.count, hraw.min, hraw.max, hraw.mean]
  rw [hlast.unique hnodup (isLast_raw last' _)]
  rfl

/-- One of the latest elements: with `late` the last of them, else the first. -/
def pickLatest {α : Type} (late : Bool) (time : α → Int) : List α → Option α
  | [] => none
  | a :: l =>
    match pickLatest late time l with
    | none => some a
    | some b => if time a < time b ∨ (late = true ∧ time a = time b) then some b else some a

theorem pickLatest_spec {α : Type} (late : Bool) (time : α → Int) (l : List α) :
    (∀ a, pickLatest late time l = some a → a ∈ l ∧ ∀ b ∈ l, time b ≤ time a) ∧
      (l ≠ [] → pickLatest late time l ≠ none) := by
  induction l with
  | nil => exact ⟨fun a h => (by cases h), fun h => absurd rfl h⟩
  | cons x l ih =>
    unfold pickLatest
    cases hpick : pickLatest late time l with
    | none =>
      have hnil : l = [] := by
        by_contra hne
        exact ih.2 hne hpick
      refine ⟨fun a h => ?_, fun _ h => by cases h⟩
      obtain rfl := Option.some.inj h
      rw [hnil]
      simp
    | some b =>
      obtain ⟨hb, hmax⟩ := ih.1 b hpick
      constructor
      · intro a h
        dsimp only at h
        split at h
        · rename_i hlt
          obtain rfl := Option.some.inj h
          refine ⟨List.mem_cons_of_mem _ hb, fun y hy => ?_⟩
          obtain rfl | hy := List.mem_cons.1 hy
          · omega
          · exact hmax y hy
        · rename_i hlt
          obtain rfl := Option.some.inj h
          refine ⟨List.mem_cons_self, fun y hy => ?_⟩
          obtain rfl | hy := List.mem_cons.1 hy
          · exact le_rfl
          · have := hmax y hy
            omega
      · intro _ h
        dsimp only at h
        split at h <;> cases h

def latest (late : Bool) : LastRow where
  pick := pickLatest late
  pick_mem time l := (pickLatest_spec late time l).1
  pick_ne_none time l := (pickLatest_spec late time l).2

omit [IsStrictOrderedRing K] in
theorem queryTier_eq_some {last : LastRow} {l : List (FilteredRow K)}
    (h : queryTier last table tier q rows = some l) :
    (queriedView table tier = createdView table tier ∧
      isTimestamp (printedSeconds q.fromMs) = true ∧ isTimestamp (printedSeconds q.toMs) = true) ∧
      l = filteredTier last tier q rows := by
  unfold queryTier at h
  split at h
  · rename_i hok
    exact ⟨hok, (Option.some.inj h).symm⟩
  · cases h

omit [IsStrictOrderedRing K] in
/-- A summary that agrees is one that the database gave. -/
theorem SummaryAgrees.summary (h : SummaryAgrees K table tiers now q tier keys)
    (htier : chooseResolutionTier tiers now q.fromMs maxInt64 = some tier)
    (hkeys : rows.map StoredRow.key = keys) (last last' : LastRow) :
    (queriedView table tier = createdView table tier ∧
      isTimestamp (printedSeconds q.fromMs) = true ∧ isTimestamp (printedSeconds q.toMs) = true) ∧
      (summarize last (filteredTier last tier q rows)).numbers =
        (summarize last' (filteredRaw q rows)).numbers := by
  obtain ⟨hnumbers, -⟩ := h rows last last' hkeys
  unfold querySummary queryRows at hnumbers
  rw [htier] at hnumbers
  obtain ⟨r, hr, hnumbers⟩ := Option.map_eq_some_iff.1 hnumbers
  obtain ⟨l, hl, rfl⟩ := Option.map_eq_some_iff.1 hr
  obtain ⟨hok, rfl⟩ := queryTier_eq_some hl
  exact ⟨hok, hnumbers⟩

theorem fits_of_summary (h : SummaryAgrees K table tiers now q tier keys)
    (htier : chooseResolutionTier tiers now q.fromMs maxInt64 = some tier) :
    Fits table q tier keys := by
  have hname : queriedView table tier = createdView table tier ∧
      isTimestamp (printedSeconds q.fromMs) = true ∧
      isTimestamp (printedSeconds q.toMs) = true := by
    obtain ⟨rows, hkeys, -⟩ := exists_rows ([] : List (RowKey × K)) (List.nil_sublist keys)
    exact (h.summary htier hkeys (latest true) (latest true)).1
  refine ⟨⟨hname.1, hname.2.1, hname.2.2, fun k hk => ?_⟩, ?_⟩
  · -- only the row `k` has a value
    obtain ⟨rows, hkeys, hval⟩ := exists_rows [(k, (0 : K))] (List.singleton_sublist.2 hk)
    have hnumbers := (h.summary htier hkeys (latest true) (latest true)).2
    have hcount : ((tierRows tier q rows).map Prod.snd).length =
        (((valued rows).filter fun x => q.selects x.1).map Prod.snd).length := by
      rw [← (aggregates_filteredTier (latest true) tier q rows).count, ← (aggregates_raw _).count]
      exact congrArg Prod.fst hnumbers
    unfold tierRows at hcount
    rw [hval] at hcount
    cases hb : q.selectsBucket (k.bucketKey tier) <;> cases hr : q.selects k <;>
      simp [hb, hr] at hcount <;> rfl
  · rw [List.pairwise_iff_forall_sublist]
    intro a b hsub ha hb htime
    obtain ⟨rows, hkeys, hval⟩ := exists_rows [(a, (0 : K)), (b, 1)] hsub
    have hlast : ∀ late, (summarize (latest false) (filteredTier (latest false) tier q rows)).last =
        (summarize (latest late) (filteredRaw q rows)).last := fun late =>
      congrArg (fun n => n.2.2.2.2) (h.summary htier hkeys (latest false) (latest late)).2
    have heq := (hlast false).symm.trans (hlast true)
    simp [summarize, filteredRaw, hval, ha, hb, latest, pickLatest, rawRow, htime] at heq

theorem summaryAgrees_iff (htier : chooseResolutionTier tiers now q.fromMs maxInt64 = some tier) :
    SummaryAgrees K table tiers now q tier keys ↔ Fits table q tier keys :=
  ⟨fun h => fits_of_summary h htier, fun h => summary_of_fits h htier⟩

/-! ## Buckets -/

section
variable {bucketMs limit : Int}

omit [Field K] [LinearOrder K] [IsStrictOrderedRing K] in
theorem mem_idx {l : List (FilteredRow K)} (hn : ∀ row ∈ l, 0 < row.n) (i : Int) :
    i ∈ (l.map fun row => bucketIdx q bucketMs row.tsMs).toFinset ↔
      (((l.filter fun row => bucketIdx q bucketMs row.tsMs = i).map FilteredRow.n).sum ≠ 0) := by
  rw [List.mem_toFinset, List.mem_map]
  constructor
  · rintro ⟨row, hrow, hi⟩ hsum
    have hmem : row.n ∈ (l.filter fun row => bucketIdx q bucketMs row.tsMs = i).map FilteredRow.n :=
      List.mem_map_of_mem (List.mem_filter.2 ⟨hrow, by simpa using hi⟩)
    have hzero := List.sum_eq_zero_iff_forall_eq_nat.1 hsum row.n hmem
    have hpos := hn row hrow
    omega
  · intro hsum
    by_contra hno
    refine hsum ?_
    rw [List.filter_eq_nil_iff.2]
    · rfl
    · intro row hrow hi
      exact hno ⟨row, hrow, by simpa using hi⟩

omit [IsStrictOrderedRing K] in
/-- Rows with the same aggregates in every slice have the same buckets. -/
theorem bucketPoints_congr {l l' : List (FilteredRow K)} (hn : ∀ row ∈ l, 0 < row.n)
    (hn' : ∀ row ∈ l', 0 < row.n)
    (h : ∀ i, ∃ values,
      Aggregates (l.filter fun row => bucketIdx q bucketMs row.tsMs = i) values ∧
      Aggregates (l'.filter fun row => bucketIdx q bucketMs row.tsMs = i) values) :
    bucketPoints q bucketMs limit l = bucketPoints q bucketMs limit l' := by
  unfold bucketPoints
  have hidx : (l.map fun row => bucketIdx q bucketMs row.tsMs).toFinset =
      (l'.map fun row => bucketIdx q bucketMs row.tsMs).toFinset := by
    refine Finset.ext fun i => ?_
    obtain ⟨values, hl, hl'⟩ := h i
    rw [mem_idx hn, mem_idx hn', hl.count, hl'.count]
  rw [hidx]
  refine List.map_congr_left fun i _ => ?_
  obtain ⟨values, hl, hl'⟩ := h i
  simp only [bucketPoint, hl.count, hl.min, hl.max, hl.mean, hl'.count, hl'.min, hl'.max, hl'.mean]

omit [IsStrictOrderedRing K] in
theorem filteredTier_pos {last : LastRow} : ∀ row ∈ filteredTier last tier q rows, 0 < row.n := by
  intro row hrow
  rw [filteredTier_eq] at hrow
  obtain ⟨g, hg, rfl⟩ := List.mem_map.1 hrow
  exact List.length_pos_iff.2 (groupBy_ne_nil (List.mem_filter.1 hg).1).1

theorem aggregates_tier_slice (last : LastRow) (i : Int) :
    Aggregates ((filteredTier last tier q rows).filter fun row =>
        bucketIdx q bucketMs row.tsMs = i)
      (((tierRows tier q rows).filter fun x =>
        bucketIdx q bucketMs (x.1.bucketKey tier).bucket = i).map Prod.snd) := by
  rw [filteredTier_eq, List.filter_map]
  refine (aggregates_tier last _).perm (List.Perm.map _ ?_)
  unfold tierGroups tierRows
  rw [List.filter_filter, List.filter_filter]
  exact groupBy_filter_perm (fun x : RowKey × K => x.1.bucketKey tier)
    (fun b => decide (bucketIdx q bucketMs b.bucket = i) && q.selectsBucket b) (valued rows)

theorem buckets_of_fit (h : BucketsFit table q bucketMs tier keys) (hpos : 0 < bucketMs)
    (htier : chooseResolutionTier tiers now q.fromMs bucketMs = some tier) :
    BucketsAgree K table tiers now q bucketMs limit tier keys := by
  intro rows last hkeys
  refine ⟨?_, h.window.good hkeys⟩
  unfold queryBuckets queryRows
  rw [if_neg (by omega), htier]
  dsimp only
  rw [h.window.queryTier_eq]
  refine congrArg some (bucketPoints_congr filteredTier_pos ?_ fun i => ?_)
  · intro row hrow
    obtain ⟨x, -, rfl⟩ := List.mem_map.1 hrow
    exact Nat.one_pos
  · refine ⟨_, aggregates_tier_slice last i, ?_⟩
    unfold filteredRaw
    rw [List.filter_map, h.window.tierRows_eq hkeys]
    have hslice : ((valued rows).filter fun x => q.selects x.1).filter
          (fun x => bucketIdx q bucketMs (x.1.bucketKey tier).bucket = i) =
        ((valued rows).filter fun x => q.selects x.1).filter
          ((fun row => decide (bucketIdx q bucketMs row.tsMs = i)) ∘ rawRow) := by
      refine List.filter_congr fun x hx => ?_
      obtain ⟨hx, hsel⟩ := List.mem_filter.1 hx
      rw [h.slice x.1 (hkeys ▸ valued_keys hx) hsel]
      rfl
    rw [hslice]
    exact aggregates_raw _

omit [IsStrictOrderedRing K] in
theorem bucketPoints_singleton (row : FilteredRow K) :
    bucketPoints q bucketMs limit [row] =
      [bucketPoint q bucketMs [row] (bucketIdx q bucketMs row.tsMs)] := by
  have hlimit : ∃ n, clampLimit limit = n + 1 := by
    refine Nat.exists_eq_succ_of_ne_zero ?_
    unfold clampLimit
    dsimp only
    split <;> split <;> omega
  obtain ⟨n, hn⟩ := hlimit
  simp [bucketPoints, hn]

omit [IsStrictOrderedRing K] in
theorem fit_of_buckets (h : BucketsAgree K table tiers now q bucketMs limit tier keys)
    (hpos : 0 < bucketMs) (htier : chooseResolutionTier tiers now q.fromMs bucketMs = some tier) :
    BucketsFit table q bucketMs tier keys := by
  have hquery : ∀ rows : List (StoredRow K), rows.map StoredRow.key = keys →
      (queriedView table tier = createdView table tier ∧
        isTimestamp (printedSeconds q.fromMs) = true ∧
        isTimestamp (printedSeconds q.toMs) = true) ∧
      bucketPoints q bucketMs limit (filteredTier (latest true) tier q rows) =
        bucketPoints q bucketMs limit (filteredRaw q rows) := by
    intro rows hkeys
    obtain ⟨hpoints, -⟩ := h rows (latest true) hkeys
    unfold queryBuckets queryRows at hpoints
    rw [if_neg (by omega), htier] at hpoints
    obtain ⟨l, hl, hpoints⟩ := Option.map_eq_some_iff.1 hpoints
    obtain ⟨hok, rfl⟩ := queryTier_eq_some hl
    exact ⟨hok, hpoints⟩
  have hname : queriedView table tier = createdView table tier ∧
      isTimestamp (printedSeconds q.fromMs) = true ∧
      isTimestamp (printedSeconds q.toMs) = true := by
    obtain ⟨rows, hkeys, -⟩ := exists_rows ([] : List (RowKey × K)) (List.nil_sublist keys)
    exact (hquery rows hkeys).1
  have hsingle : ∀ k ∈ keys, q.selectsBucket (k.bucketKey tier) = q.selects k ∧
      (q.selects k = true →
        bucketIdx q bucketMs (k.bucketKey tier).bucket = bucketIdx q bucketMs k.tsMs) := by
    intro k hk
    obtain ⟨rows, hkeys, hval⟩ := exists_rows [(k, (0 : K))] (List.singleton_sublist.2 hk)
    have hpoints := (hquery rows hkeys).2
    rw [filteredTier_eq, tierGroups, hval, filteredRaw, hval] at hpoints
    have hnil : bucketPoints q bucketMs limit ([] : List (FilteredRow K)) = [] := by
      simp [bucketPoints]
    cases hb : q.selectsBucket (k.bucketKey tier) <;> cases hr : q.selects k <;>
      simp [groupBy, hb, hr, hnil, bucketPoints_singleton] at hpoints ⊢
    have hstart := congrArg BucketPoint.bucketStartMs hpoints
    simp only [bucketPoint, tierRow, viewRow, rawRow] at hstart
    exact Int.eq_of_mul_eq_mul_right hpos.ne' (Int.add_left_cancel hstart)
  exact ⟨⟨hname.1, hname.2.1, hname.2.2, fun k hk => (hsingle k hk).1⟩,
    fun k hk => (hsingle k hk).2⟩

theorem bucketsAgree_iff (hpos : 0 < bucketMs)
    (htier : chooseResolutionTier tiers now q.fromMs bucketMs = some tier) :
    BucketsAgree K table tiers now q bucketMs limit tier keys ↔
      BucketsFit table q bucketMs tier keys :=
  ⟨fun h => fit_of_buckets h hpos htier, fun h => buckets_of_fit h hpos htier⟩

end

end

/-! ## Ends that are bucket starts -/

theorem timeBucket_le {res : Int} (hres : 0 < res) (t : Int) :
    timeBucket res t ≤ t ∧ t < timeBucket res t + res := by
  unfold timeBucket
  have hdiv := Int.ediv_mul_add_emod (t - timeBucketOrigin) res
  have hnonneg := Int.emod_nonneg (t - timeBucketOrigin) hres.ne'
  have hlt := Int.emod_lt_of_pos (t - timeBucketOrigin) hres
  omega

/-- The ends of the range are starts of buckets, and are printed with all their digits. -/
structure Aligned (q : TagQuery) (tier : ResolutionTier) : Prop where
  fromStart : timeBucket tier.resolutionMs q.fromMs = q.fromMs
  toStart : timeBucket tier.resolutionMs q.toMs = q.toMs
  fromPrinted : printedMs q.fromMs = q.fromMs
  toPrinted : printedMs q.toMs = q.toMs

section
variable {q : TagQuery} {tier : ResolutionTier}

theorem selectsBucket_aligned (h : Aligned q tier) (k : RowKey) :
    q.selectsBucket (k.bucketKey tier) =
      (q.ofTag k && decide (q.fromMs ≤ k.tsMs) && decide (k.tsMs < q.toMs + tier.resolutionMs)) := by
  have hpos := tier.resolution_pos
  have hk := timeBucket_le hpos k.tsMs
  have hfrom : q.fromMs ≤ timeBucket tier.resolutionMs k.tsMs ↔ q.fromMs ≤ k.tsMs := by
    constructor
    · intro hle
      omega
    · intro hle
      have := timeBucket_mono hpos hle
      rw [h.fromStart] at this
      exact this
  have hto : timeBucket tier.resolutionMs k.tsMs ≤ q.toMs ↔
      k.tsMs < q.toMs + tier.resolutionMs := by
    constructor
    · intro hle
      omega
    · intro hlt
      by_contra hgt
      have hstart := h.toStart
      unfold timeBucket at hstart hgt hk
      have hnext : (q.toMs - timeBucketOrigin) / tier.resolutionMs <
          (k.tsMs - timeBucketOrigin) / tier.resolutionMs := by
        by_contra hle
        have := Int.mul_le_mul_of_nonneg_right (not_lt.1 hle) hpos.le
        omega
      have hmul := Int.mul_le_mul_of_nonneg_right (Int.add_one_le_of_lt hnext) hpos.le
      rw [add_mul] at hmul
      omega
  unfold TagQuery.selectsBucket TagQuery.ofTag RowKey.bucketKey
  dsimp only
  rw [h.fromPrinted, h.toPrinted]
  simp only [Int.cast_le, hfrom, hto]

/-- The bucket width is that of some buckets of the tier. -/
theorem slice_aligned {bucketMs : Int} (h : Aligned q tier) (hbucket : 0 < bucketMs)
    (hdvd : tier.resolutionMs ∣ bucketMs) {k : RowKey} (hfrom : q.fromMs ≤ k.tsMs) :
    bucketIdx q bucketMs (k.bucketKey tier).bucket = bucketIdx q bucketMs k.tsMs := by
  have hpos := tier.resolution_pos
  obtain ⟨m, rfl⟩ := hdvd
  have hstart := h.fromStart
  -- the start of the bucket, counted from the lower end
  have hbucketStart : timeBucket tier.resolutionMs k.tsMs - q.fromMs =
      (k.tsMs - q.fromMs) / tier.resolutionMs * tier.resolutionMs := by
    unfold timeBucket at hstart ⊢
    have hsplit : k.tsMs - q.fromMs = k.tsMs - timeBucketOrigin +
        -((q.fromMs - timeBucketOrigin) / tier.resolutionMs) * tier.resolutionMs := by
      rw [neg_mul]
      omega
    rw [hsplit, Int.add_mul_ediv_right _ _ hpos.ne', add_mul, neg_mul]
    omega
  have hnonneg : 0 ≤ k.tsMs - q.fromMs := by omega
  unfold bucketIdx RowKey.bucketKey
  dsimp only
  rw [hbucketStart, Int.tdiv_eq_ediv_of_nonneg hnonneg,
    Int.tdiv_eq_ediv_of_nonneg (mul_nonneg (Int.ediv_nonneg hnonneg hpos.le) hpos.le),
    mul_comm _ tier.resolutionMs, Int.mul_ediv_mul_of_pos _ _ hpos,
    Int.ediv_ediv_of_nonneg hpos.le]

/-- Then the tier answers for the raw table if no row of the tag is in the bucket that starts at the
upper end, the first millisecond apart, and none of bad quality is asked to be left out. -/
theorem window_aligned {table : String} {keys : List RowKey} (h : Aligned q tier)
    (hname : queriedView table tier = createdView table tier)
    (hfrom : isTimestamp (printedSeconds q.fromMs) = true)
    (hto : isTimestamp (printedSeconds q.toMs) = true) :
    Window table q tier keys ↔ ∀ k ∈ keys, q.ofTag k = true → q.fromMs ≤ k.tsMs →
      k.tsMs < q.toMs + tier.resolutionMs →
      k.tsMs ≤ q.toMs ∧ (q.goodOnly = true → k.good = true) := by
  constructor
  · intro hwindow k hk htag hge hlt
    have hsame := hwindow.same k hk
    rw [selectsBucket_aligned h, htag, decide_eq_true hge, decide_eq_true hlt] at hsame
    simp only [TagQuery.selects, Bool.and_true, Bool.true_eq, Bool.and_eq_true, decide_eq_true_eq,
      Bool.or_eq_true, Bool.not_eq_true'] at hsame
    refine ⟨hsame.1.2, fun hgood => ?_⟩
    rw [hgood] at hsame
    simpa using hsame.2
  · intro hrows
    refine ⟨hname, hfrom, hto, fun k hk => ?_⟩
    have hres := tier.resolution_pos
    have hiff : (q.ofTag k = true ∧ q.fromMs ≤ k.tsMs ∧ k.tsMs < q.toMs + tier.resolutionMs) ↔
        q.selects k = true := by
      simp only [TagQuery.selects, Bool.and_eq_true, decide_eq_true_eq, Bool.or_eq_true,
        Bool.not_eq_true']
      constructor
      · intro ⟨htag, hge, hlt⟩
        obtain ⟨hle, hgood⟩ := hrows k hk htag hge hlt
        refine ⟨⟨⟨htag, hge⟩, hle⟩, ?_⟩
        cases hq : q.goodOnly
        · exact .inl rfl
        · exact .inr (hgood hq)
      · intro ⟨⟨⟨htag, hge⟩, hle⟩, _⟩
        exact ⟨htag, hge, by omega⟩
    rw [selectsBucket_aligned h, Bool.eq_iff_iff, ← hiff]
    simp only [Bool.and_eq_true, decide_eq_true_eq, and_assoc]

theorem BucketsFit.of_window {table : String} {keys : List RowKey} {bucketMs : Int}
    (h : Aligned q tier) (hbucket : 0 < bucketMs) (hdvd : tier.resolutionMs ∣ bucketMs)
    (hwindow : Window table q tier keys) : BucketsFit table q bucketMs tier keys where
  window := hwindow
  slice k _ hsel := by
    simp only [TagQuery.selects, Bool.and_eq_true, decide_eq_true_eq] at hsel
    exact slice_aligned h hbucket hdvd hsel.1.1.2

end

/-! ## The answers of a tier -/

def tenSeconds : ResolutionTier := ⟨10000, 0, by decide⟩

def firstHour : TagQuery := ⟨"plc", "speed", 0, 3600000, true⟩

end OpcBridge.Historian
