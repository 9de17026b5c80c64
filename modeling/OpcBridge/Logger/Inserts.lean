import OpcBridge.Logger.Backfill
import OpcBridge.Logger.Converge

/-!
# What a run of a sync inserts

Where only unique keys reject a row, a run inserts the candidates of the periods that a side lacks
(`SyncCall.inserts`, `inserted_of_ok`), the last ones of the lone rows (`mem_inserts`). Rows that
are not selected do not change them.
-/

namespace OpcBridge.Logger

open OpcBridge

/-- A row of the latest ones of a period that the other side lacks, and that is accepted there. -/
structure Lone (c : SyncCall) (unique : Side → Bool) (tableA tableB : List SyncRow) (side : Side)
    (r : SyncRow) : Prop where
  latest : r ∈ c.latest side.other (side.other.pick tableA tableB)
  missing : ∀ r' ∈ side.pick tableA tableB, c.selects side r' = true →
    c.key side r' ≠ c.key side.other r
  accepted : ¬ (unique side = true ∧ HasLike (side.pick tableA tableB) r)

/-! ## The rows of one run -/

theorem duplicate_iff {unique : Side → Bool} {side : Side} {table : List SyncRow} {row : SyncRow} :
    duplicate unique side table row = true ↔ unique side = true ∧ HasLike table row := by
  unfold duplicate HasLike alike
  simp

/-- The row that is inserted for a key on a side. -/
def KeyOutcome.row (o : KeyOutcome) (side : Side) : Option SyncRow :=
  match o with
  | .inserted side' row => if side' = side then some row else none
  | _ => none

section
variable {c : SyncCall} {unique : Side → Bool} {replies : SyncReplies}

theorem attempt_keyed (replies : SyncReplies) (unique : Side → Bool) (side : Side)
    (table : List SyncRow) (row : SyncRow) :
    ((replies.keyed unique).attempt side table row).isFailed = false ∧
    ((replies.keyed unique).attempt side table row).row side =
      (some row).filter (fun row => !duplicate unique side table row) ∧
    ((replies.keyed unique).attempt side table row).row side.other = none := by
  have hother : side ≠ side.other := by cases side <;> simp [Side.other]
  unfold SyncReplies.attempt SyncReplies.keyed
  dsimp only
  cases hdup : duplicate unique side table row with
  | false => simp [KeyOutcome.row, KeyOutcome.isFailed, hother, hdup, Option.filter]
  | true =>
    have hany : (table.any fun r => decide (r.time = row.time ∧ r.item = row.item)) = true :=
      (Bool.and_eq_true_iff.1 hdup).2
    rw [if_pos rfl]
    dsimp only
    by_cases hmem : row ∈ table
    · rw [if_pos hmem]
      simp [KeyOutcome.row, KeyOutcome.isFailed, hdup, Option.filter]
    · rw [if_neg hmem, if_pos hany]
      simp [KeyOutcome.row, KeyOutcome.isFailed, hdup, Option.filter]

/-- What a key inserts: the candidate of the other side, where this side has none. -/
def missingRow (c : SyncCall) (unique : Side → Bool) (side : Side) (table : List SyncRow)
    (own other : Option SyncRow) : Option SyncRow :=
  if c.writes side = true ∧ own = none then
    other.filter fun row => !duplicate unique side table row
  else none

theorem keyOutcome_keyed (replies : SyncReplies) (s : SyncState) (a b : Option SyncRow) :
    (keyOutcome c (replies.keyed unique) false s a b).isFailed = false ∧
    ∀ side : Side, (keyOutcome c (replies.keyed unique) false s a b).row side =
      missingRow c unique side (s.table side) (side.pick a b) (side.other.pick a b) := by
  unfold keyOutcome missingRow
  cases a with
  | none =>
    cases b with
    | none => exact ⟨rfl, fun side => by cases side <;> simp [KeyOutcome.row, Side.pick, Side.other]⟩
    | some b =>
      cases hbi : c.job.bidirectional with
      | false =>
        refine ⟨rfl, fun side => ?_⟩
        cases side <;> simp [KeyOutcome.row, Side.pick, SyncCall.writes, hbi]
      | true =>
        obtain ⟨hok, hrow, hother⟩ := attempt_keyed replies unique .a s.a b
        refine ⟨hok, fun side => ?_⟩
        cases side with
        | a => simpa [Side.pick, Side.other, SyncCall.writes, hbi, SyncState.table] using hrow
        | b => simpa [Side.pick, Side.other] using hother
  | some a =>
    cases b with
    | none =>
      obtain ⟨hok, hrow, hother⟩ := attempt_keyed replies unique .b s.b a
      refine ⟨hok, fun side => ?_⟩
      cases side with
      | a => simpa [Side.pick, Side.other] using hother
      | b => simpa [Side.pick, Side.other, SyncCall.writes, SyncState.table] using hrow
    | some b =>
      dsimp only
      split
      · exact ⟨rfl, fun side => by cases side <;> simp [KeyOutcome.row, Side.pick]⟩
      · exact ⟨rfl, fun side => by cases side <;> simp [KeyOutcome.row, Side.pick]⟩

theorem missingRow_congr {side : Side} {table table' : List SyncRow} {own other : Option SyncRow}
    (h : ∀ r, other = some r → (HasLike table r ↔ HasLike table' r)) :
    missingRow c unique side table own other = missingRow c unique side table' own other := by
  unfold missingRow
  split
  · cases other with
    | none => rfl
    | some r =>
      have hdup : duplicate unique side table r = duplicate unique side table' r := by
        rw [Bool.eq_iff_iff, duplicate_iff, duplicate_iff, h r rfl]
      simp [Option.filter, hdup]
  · rfl

theorem missingRow_some {side : Side} {table : List SyncRow} {own other : Option SyncRow}
    {r : SyncRow} : missingRow c unique side table own other = some r ↔ c.writes side = true ∧
      own = none ∧ other = some r ∧ ¬ (unique side = true ∧ HasLike table r) := by
  unfold missingRow
  rw [← duplicate_iff]
  split
  · rename_i h
    obtain ⟨hw, hown⟩ := h
    rw [Option.filter_eq_some_iff]
    simp [hw, hown]
  · rename_i h
    constructor
    · intro hnone
      cases hnone
    · rintro ⟨hw, hown, -⟩
      exact absurd ⟨hw, hown⟩ h

theorem row_table (s : SyncState) (k : SyncKey) (o : KeyOutcome) (side : Side) :
    (s.add false k o).table side = s.table side ++ (o.row side).toList := by
  rw [add_table]
  cases o with
  | inserted side' row =>
    by_cases h : side' = side
    · simp [KeyOutcome.row, h]
    · simp [KeyOutcome.row, h]
  | _ => rfl

theorem row_counts (n : SyncCounts) {o : KeyOutcome} (hok : o.isFailed = false) :
    (n.add false o).aToB = n.aToB + (o.row .b).toList.length ∧
    (n.add false o).bToA = n.bToA + (o.row .a).toList.length ∧
    (n.add false o).inserted =
      n.inserted + (o.row .b).toList.length + (o.row .a).toList.length := by
  cases o with
  | inserted side row =>
    cases side with
    | a => exact ⟨rfl, rfl, rfl⟩
    | b => exact ⟨rfl, rfl, rfl⟩
  | failed side row error => cases hok
  | _ => exact ⟨rfl, rfl, rfl⟩

/-- The rows of the keys `ks`. -/
def missingRows (c : SyncCall) (unique : Side → Bool) (tableA tableB : List SyncRow)
    (candidate : Side → SyncKey → Option SyncRow) (ks : List SyncKey) (side : Side) :
    List SyncRow :=
  ks.filterMap fun k =>
    missingRow c unique side (side.pick tableA tableB) (candidate side k) (candidate side.other k)

theorem missingRows_cons {tableA tableB : List SyncRow}
    {candidate : Side → SyncKey → Option SyncRow} (k : SyncKey) (ks : List SyncKey) (side : Side) :
    missingRows c unique tableA tableB candidate (k :: ks) side =
      (missingRow c unique side (side.pick tableA tableB) (candidate side k)
        (candidate side.other k)).toList ++
      missingRows c unique tableA tableB candidate ks side := by
  unfold missingRows
  rw [List.filterMap_cons]
  split
  · rename_i hnone
    rw [hnone]
    rfl
  · rename_i r hsome
    rw [hsome]
    rfl

/-- The loop inserts exactly these rows. An inserted row is like no candidate of another key, so a
unique key does not see what the loop has inserted. -/
theorem Synced.inserts (tableA tableB : List SyncRow)
    {candidate : Side → SyncKey → Option SyncRow} {ks : List SyncKey} {s s' : SyncState}
    (h : Synced c (replies.keyed unique) false candidate ks s s') (hnodup : ks.Nodup)
    (hkey : ∀ side k r, candidate side k = some r → c.key side r = k)
    (hlike : ∀ side, ∀ k ∈ ks, ∀ r, candidate side.other k = some r →
      (HasLike (s.table side) r ↔ HasLike (side.pick tableA tableB) r)) :
    (∀ side, s'.table side =
      s.table side ++ missingRows c unique tableA tableB candidate ks side) ∧
    s'.counts.aToB =
      s.counts.aToB + (missingRows c unique tableA tableB candidate ks .b).length ∧
    s'.counts.bToA =
      s.counts.bToA + (missingRows c unique tableA tableB candidate ks .a).length ∧
    s'.counts.inserted = s.counts.inserted +
      (missingRows c unique tableA tableB candidate ks .b).length +
      (missingRows c unique tableA tableB candidate ks .a).length := by
  induction h with
  | nil s => exact ⟨fun side => by simp [missingRows], rfl, rfl, rfl⟩
  | @cons k ks s s' o ho hok rest ih =>
    obtain ⟨hk, hnodup⟩ := List.nodup_cons.1 hnodup
    have hrow : ∀ side, o.row side = missingRow c unique side (side.pick tableA tableB)
        (candidate side k) (candidate side.other k) := by
      intro side
      have hpick : ∀ side : Side, side.pick (candidate .a k) (candidate .b k) = candidate side k := by
        intro side
        cases side <;> rfl
      rw [ho, (keyOutcome_keyed replies s _ _).2 side, hpick, hpick]
      exact missingRow_congr fun r hr => hlike side k (List.mem_cons_self ..) r hr
    have hlike' : ∀ side, ∀ k' ∈ ks, ∀ r, candidate side.other k' = some r →
        (HasLike ((s.add false k o).table side) r ↔ HasLike (side.pick tableA tableB) r) := by
      intro side k' hk' r hr
      rw [← hlike side k' (List.mem_cons_of_mem _ hk') r hr, row_table]
      constructor
      · intro ⟨x, hx, htime, hitem⟩
        obtain hx | hx := List.mem_append.1 hx
        · exact ⟨x, hx, htime, hitem⟩
        · -- the row of this key is like a row of its own key only
          rw [Option.mem_toList, hrow, missingRow_some] at hx
          have h1 := hkey _ _ _ hx.2.2.1
          have h2 := hkey _ _ _ hr
          rw [(alike_selects htime hitem side.other).2, h2] at h1
          rw [h1] at hk'
          exact absurd hk' hk
      · intro ⟨x, hx, hsame⟩
        exact ⟨x, List.mem_append_left _ hx, hsame⟩
    obtain ⟨h1, h2, h3, h4⟩ := ih hnodup hlike'
    obtain ⟨c1, c2, c3⟩ := row_counts s.counts hok
    rw [add_counts] at h2 h3 h4
    simp only [missingRows_cons, List.length_append, ← hrow]
    refine ⟨fun side => ?_, by omega, by omega, by omega⟩
    rw [h1, row_table, List.append_assoc]

end

/-! ## Rows of a range -/

section
variable {c : SyncCall} {unique : Side → Bool} {tableA tableB : List SyncRow} {side : Side}

/-- Of the rows with its time and its item it is the last one. -/
def IsLast (table : List SyncRow) (r : SyncRow) : Prop :=
  (table.filter (alike r)).getLast? = some r

theorem alike_iff {r r' : SyncRow} : alike r r' = true ↔ r'.time = r.time ∧ r'.item = r.item := by
  unfold alike
  simp

theorem latest_filter {table : List SyncRow} {r : SyncRow} (hr : r ∈ c.latest side table) :
    ((c.latest side table).filter fun x => c.key side x = c.key side r) =
      table.filter (alike r) := by
  have hsub : c.latest side table = table.filter fun x => decide (x ∈ c.latest side table) := by
    conv_lhs => unfold SyncCall.latest
    rw [List.filter_filter]
    refine List.filter_congr fun x hx => ?_
    unfold SyncCall.latest
    rw [Bool.eq_iff_iff]
    simp only [decide_eq_true_eq, List.mem_filter, Bool.and_eq_true]
    exact ⟨fun ⟨h1, h2⟩ => ⟨⟨hx, h2⟩, h1⟩, fun ⟨h1, h2⟩ => ⟨h2, h1.2⟩⟩
  rw [hsub, List.filter_filter]
  refine List.filter_congr fun x hx => ?_
  rw [Bool.eq_iff_iff, alike_iff]
  simp only [Bool.and_eq_true, decide_eq_true_eq]
  constructor
  · intro ⟨hkey, hlatest⟩
    exact latest_alike hlatest hr hkey
  · intro ⟨htime, hitem⟩
    obtain ⟨hsel, hkey⟩ := alike_selects (c := c) htime hitem side
    obtain ⟨-, h2, h3⟩ := SyncCall.mem_latest.1 hr
    refine ⟨hkey, SyncCall.mem_latest.2 ⟨hx, hsel.trans h2, fun r' hr' hs hk => ?_⟩⟩
    have hle := h3 r' hr' hs (hk.trans hkey)
    omega

theorem candidate_iff {table : List SyncRow} {k : SyncKey} {r : SyncRow} :
    c.candidate side table k = some r ↔
      r ∈ c.latest side table ∧ c.key side r = k ∧ IsLast table r := by
  constructor
  · intro h
    have hmem := List.mem_filter.1 (List.mem_of_getLast? h)
    have hkey : c.key side r = k := by simpa using hmem.2
    refine ⟨hmem.1, hkey, ?_⟩
    unfold IsLast
    rw [← latest_filter hmem.1, hkey]
    exact h
  · intro ⟨hr, hkey, hlast⟩
    unfold SyncCall.candidate
    rw [← hkey, latest_filter hr]
    exact hlast

theorem candidate_key {k : SyncKey} {r : SyncRow}
    (h : c.candidates tableA tableB side k = some r) : c.key side r = k := by
  rw [candidates_pick, candidate_iff] at h
  exact h.2.1

theorem Lone.alike {r r' : SyncRow} (h : Lone c unique tableA tableB side r)
    (hr' : r' ∈ side.other.pick tableA tableB) (htime : r'.time = r.time)
    (hitem : r'.item = r.item) : Lone c unique tableA tableB side r' := by
  obtain ⟨h1, h2, h3⟩ := SyncCall.mem_latest.1 h.latest
  obtain ⟨hsel, hkey⟩ := alike_selects (c := c) htime hitem side.other
  refine ⟨SyncCall.mem_latest.2 ⟨hr', hsel.trans h2, fun x hx hs hk => ?_⟩, fun x hx hs hk => ?_,
    fun ⟨hu, x, hx, ht, hi⟩ => ?_⟩
  · have hle := h3 x hx hs (hk.trans hkey)
    omega
  · exact h.missing x hx hs (hk.trans hkey)
  · exact h.accepted ⟨hu, x, hx, ht.trans htime, hi.trans hitem⟩

/-- The last row like a lone one. -/
theorem Lone.last {r : SyncRow} (h : Lone c unique tableA tableB side r) :
    ∃ r', Lone c unique tableA tableB side r' ∧ IsLast (side.other.pick tableA tableB) r' ∧
      r'.time = r.time ∧ r'.item = r.item := by
  have hr : r ∈ (side.other.pick tableA tableB).filter (Logger.alike r) :=
    List.mem_filter.2 ⟨(SyncCall.mem_latest.1 h.latest).1, by simp [Logger.alike]⟩
  cases hlast : ((side.other.pick tableA tableB).filter (Logger.alike r)).getLast? with
  | none =>
    rw [List.getLast?_eq_none_iff] at hlast
    rw [hlast] at hr
    cases hr
  | some r' =>
    obtain ⟨hmem, hlike⟩ := List.mem_filter.1 (List.mem_of_getLast? hlast)
    obtain ⟨htime, hitem⟩ := alike_iff.1 hlike
    refine ⟨r', h.alike hmem htime hitem, ?_, htime, hitem⟩
    have hsame : Logger.alike r' = Logger.alike r := by
      funext x
      unfold Logger.alike
      rw [htime, hitem]
    unfold IsLast
    rw [hsame]
    exact hlast

end

/-! ## The rows that a run inserts -/

section
variable [PeriodText] {c : SyncCall} {unique : Side → Bool} {tableA tableB : List SyncRow}

def SyncCall.inserts (c : SyncCall) (unique : Side → Bool) (tableA tableB : List SyncRow) :
    Side → List SyncRow :=
  missingRows c unique tableA tableB (c.candidates tableA tableB) (c.keys tableA tableB)

theorem mem_inserts {side : Side} {r : SyncRow} : r ∈ c.inserts unique tableA tableB side ↔
    c.writes side = true ∧ Lone c unique tableA tableB side r ∧
      IsLast (side.other.pick tableA tableB) r := by
  unfold SyncCall.inserts missingRows
  simp only [List.mem_filterMap, missingRow_some]
  have hnone : ∀ k, c.candidates tableA tableB side k = none ↔
      ∀ r' ∈ side.pick tableA tableB, c.selects side r' = true → c.key side r' ≠ k := by
    intro k
    rw [candidates_pick, SyncCall.candidate_none, SyncCall.mem_keysOf]
    simp
  constructor
  · rintro ⟨k, -, hw, hown, hother, hfree⟩
    rw [candidates_pick, candidate_iff] at hother
    obtain ⟨hlatest, hkey, hlast⟩ := hother
    refine ⟨hw, ⟨hlatest, ?_, hfree⟩, hlast⟩
    rw [hkey]
    exact (hnone k).1 hown
  · intro ⟨hw, hlone, hlast⟩
    refine ⟨c.key side.other r, ?_, hw, (hnone _).2 hlone.missing, ?_, hlone.accepted⟩
    · have hmem : c.key side.other r ∈ c.keysOf side.other (side.other.pick tableA tableB) :=
        List.mem_map_of_mem hlone.latest
      rw [SyncCall.mem_keys]
      cases side with
      | a => exact .inr hmem
      | b => exact .inl hmem
    · rw [candidates_pick, candidate_iff]
      exact ⟨hlone.latest, rfl, hlast⟩

theorem nodup_inserts (side : Side) : (c.inserts unique tableA tableB side).Nodup := by
  refine SyncCall.keys_nodup.filterMap fun k k' r hr hr' => ?_
  rw [Option.mem_def, missingRow_some] at hr hr'
  exact (candidate_key hr.2.2.1).symm.trans (candidate_key hr'.2.2.1)

/-- Rows that are not selected change nothing. -/
theorem inserts_append {newA newB : List SyncRow}
    (h : ∀ side : Side, ∀ r ∈ side.pick newA newB, ∀ side', c.selects side' r = false) :
    c.inserts unique (tableA ++ newA) (tableB ++ newB) = c.inserts unique tableA tableB := by
  have hlatest : ∀ side : Side, c.latest side (side.pick (tableA ++ newA) (tableB ++ newB)) =
      c.latest side (side.pick tableA tableB) := by
    intro side
    have hpick : side.pick (tableA ++ newA) (tableB ++ newB) =
        side.pick tableA tableB ++ side.pick newA newB := by
      cases side <;> rfl
    have hnil : (side.pick newA newB).filter (c.selects side) = [] := by
      rw [List.filter_eq_nil_iff]
      intro r hr
      rw [h side r hr side]
      simp
    unfold SyncCall.latest
    rw [hpick, List.filter_append, hnil, List.append_nil]
  have hcandidates : c.candidates (tableA ++ newA) (tableB ++ newB) =
      c.candidates tableA tableB := by
    funext side k
    rw [candidates_pick, candidates_pick]
    unfold SyncCall.candidate
    rw [hlatest]
  have hkeys : c.keys (tableA ++ newA) (tableB ++ newB) = c.keys tableA tableB := by
    unfold SyncCall.keys
    have ha := hlatest .a
    have hb := hlatest .b
    dsimp only [Side.pick] at ha hb
    rw [ha, hb]
  funext side
  unfold SyncCall.inserts missingRows
  rw [hcandidates, hkeys]
  congr 1
  funext k
  refine missingRow_congr fun r hr => ?_
  have hpick : side.pick (tableA ++ newA) (tableB ++ newB) =
      side.pick tableA tableB ++ side.pick newA newB := by
    cases side <;> rfl
  rw [hpick]
  constructor
  · intro ⟨x, hx, htime, hitem⟩
    obtain hx | hx := List.mem_append.1 hx
    · exact ⟨x, hx, htime, hitem⟩
    · -- a row like the selected `r` is selected
      rw [candidates_pick, candidate_iff] at hr
      have hsel := (SyncCall.mem_latest.1 hr.1).2.1
      rw [← (alike_selects htime hitem side.other).1, h side x hx] at hsel
      cases hsel
  · intro ⟨x, hx, hsame⟩
    exact ⟨x, List.mem_append_left _ hx, hsame⟩

/-- What a run did. -/
structure Inserted (c : SyncCall) (unique : Side → Bool) (tableA tableB : List SyncRow)
    (r : SyncResult) : Prop where
  table : ∀ side : Side,
    r.table side = side.pick tableA tableB ++ c.inserts unique tableA tableB side
  aToB : r.counts.aToB = (c.inserts unique tableA tableB .b).length
  bToA : r.counts.bToA = (c.inserts unique tableA tableB .a).length
  inserted : r.counts.inserted = (c.inserts unique tableA tableB .b).length +
    (c.inserts unique tableA tableB .a).length

theorem inserted_of_ok {replies : SyncReplies}
    (h : (c.run (replies.keyed unique) false tableA tableB).ok = true) :
    Inserted c unique tableA tableB (c.run (replies.keyed unique) false tableA tableB) := by
  obtain ⟨s, hs⟩ := succeeded_of_ok h
  obtain ⟨h1, h2, h3, h4⟩ := hs.synced.inserts tableA tableB SyncCall.keys_nodup
    (fun _ _ _ => candidate_key) (fun side k _ r _ => by cases side <;> rfl)
  refine ⟨fun side => ?_, ?_, ?_, ?_⟩
  · rw [hs.table, h1]
    cases side <;> rfl
  · rw [hs.result]
    simpa [SyncCall.inserts] using h2
  · rw [hs.result]
    simpa [SyncCall.inserts] using h3
  · rw [hs.result]
    simpa [SyncCall.inserts] using h4

end

end OpcBridge.Logger
