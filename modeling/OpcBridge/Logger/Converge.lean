import OpcBridge.Logger.SyncRun

/-!
# When a sync converges

`Converges` is what is asked of the runs of a job over two tables, whatever the databases answer:
rows are only added, every key of one side is on the other side afterwards, a second run inserts
nothing, a dry run predicts the run, the counts add up, and a failed run changes nothing before it
commits. `converges_iff` says for which jobs and tables this holds: those whose inserted rows the
other database selects and puts into the same period (`Placed`).
-/

namespace OpcBridge.Logger

open OpcBridge

def SyncResult.table (r : SyncResult) : Side → List SyncRow
  | .a => r.a
  | .b => r.b

/-- The table of a side. -/
def Side.pick {α : Type} (a b : α) : Side → α
  | .a => a
  | .b => b

/-- The job or the number of the rows is refused. -/
def SyncCall.Refused (c : SyncCall) (tableA tableB : List SyncRow) : Prop :=
  c.problem.isSome = true ∨ ∃ side : Side,
    SyncCall.rowLimit < (c.latest side (side.pick tableA tableB)).length

/-- The latest row of a period that the other side lacks is selected there, in the same period. -/
def SyncCall.Placed (c : SyncCall) (tableA tableB : List SyncRow) : Prop :=
  ∀ side : Side, c.writes side = true → ∀ r ∈ c.latest side.other (side.other.pick tableA tableB),
    (∀ r' ∈ side.pick tableA tableB, c.selects side r' = true →
      c.key side r' ≠ c.key side.other r) →
    c.selects side r = true ∧ c.key side r = c.key side.other r

section
variable [PeriodText]

/-- What is asked of a run that reports success. -/
structure Achieved (c : SyncCall) (tableA tableB : List SyncRow) (r : SyncResult) : Prop where
  grows : ∀ side : Side, ∃ new, r.table side = side.pick tableA tableB ++ new
  oneWay : c.job.bidirectional = false → r.a = tableA
  complete : ∀ side : Side, c.writes side = true →
    ∀ k ∈ c.keysOf side.other (side.other.pick tableA tableB),
      k ∈ c.keysOf side (r.table side) ∨ (k, .conflict) ∈ r.outcomes
  again : ∀ replies, (c.run replies false r.a r.b).counts.inserted = 0 ∧
    (c.run replies false r.a r.b).a = r.a ∧ (c.run replies false r.a r.b).b = r.b
  selected : r.counts.selected = r.counts.total +
    (c.keys tableA tableB).countP (onlyOnB c (c.candidates tableA tableB))

structure Converges (c : SyncCall) (tableA tableB : List SyncRow) : Prop where
  achieved : ∀ replies, (c.run replies false tableA tableB).ok = true →
    Achieved c tableA tableB (c.run replies false tableA tableB)
  predicted : ∀ replies replies' : SyncReplies,
    (∀ side table row, replies.rejects side table row = none) →
    (c.run replies false tableA tableB).ok = true → (c.run replies' true tableA tableB).ok = true →
    (c.run replies' true tableA tableB).counts.Predicts (c.run replies false tableA tableB).counts ∧
      (c.run replies false tableA tableB).counts.inserted =
        (c.run replies' true tableA tableB).counts.inserted
  untouched : ∀ replies, (c.run replies false tableA tableB).ok = false →
    (c.run replies false tableA tableB).committing = false →
    (c.run replies false tableA tableB).a = tableA ∧ (c.run replies false tableA tableB).b = tableB

end

/-! ## Rows and keys -/

section
variable {c : SyncCall} {tableA tableB : List SyncRow}

theorem candidates_pick (side : Side) :
    c.candidates tableA tableB side = c.candidate side (side.pick tableA tableB) := by
  cases side <;> rfl

/-- The same time and item are selected alike and in the same period. -/
theorem alike_selects {r r' : SyncRow} (htime : r.time = r'.time) (hitem : r.item = r'.item)
    (side : Side) : c.selects side r = c.selects side r' ∧ c.key side r = c.key side r' := by
  unfold SyncCall.selects SyncCall.key
  rw [htime, hitem]
  exact ⟨rfl, rfl⟩

theorem alike_mem_keysOf {side : Side} {table : List SyncRow} {row : SyncRow}
    (hlike : HasLike table row) (hsel : c.selects side row = true) :
    c.key side row ∈ c.keysOf side table := by
  obtain ⟨r, hr, htime, hitem⟩ := hlike
  obtain ⟨hs, hk⟩ := alike_selects (c := c) htime hitem side
  exact SyncCall.mem_keysOf.2 ⟨r, hr, hs.trans hsel, hk⟩

theorem placed_candidate (h : c.Placed tableA tableB) {side : Side} (hw : c.writes side = true)
    {k : SyncKey} {r : SyncRow} (hr : c.candidates tableA tableB side.other k = some r)
    (hnone : c.candidates tableA tableB side k = none) :
    c.selects side r = true ∧ c.key side r = k := by
  rw [candidates_pick] at hr hnone
  have hmem := List.mem_filter.1 (List.mem_of_getLast? hr)
  have hk : c.key side.other r = k := by simpa using hmem.2
  rw [← hk]
  refine h side hw r hmem.1 fun r' hr' hs hkey => ?_
  exact SyncCall.candidate_none.1 hnone (SyncCall.mem_keysOf.2 ⟨r', hr', hs, hkey.trans hk⟩)

theorem loadSide_limit {replies : SyncReplies} {side : Side} {table rows : List SyncRow}
    (h : c.loadSide replies side table = .ok rows) :
    ¬ SyncCall.rowLimit < (c.latest side table).length := by
  unfold SyncCall.loadSide at h
  dsimp only at h
  split at h
  · cases h
  · split at h
    · cases h
    · assumption

/-- The first of the rows with a property, in an order of the periods. -/
theorem exists_first {l : List SyncRow} {P : SyncRow → Prop} (f : SyncRow → Int)
    (h : ∃ r ∈ l, P r) : ∃ r ∈ l, P r ∧ ∀ r' ∈ l, P r' → f r ≤ f r' := by
  classical
  obtain ⟨r, hr, hP⟩ := h
  have hmem : ∀ x, x ∈ (l.filter (P ·)).toFinset ↔ x ∈ l ∧ P x := by simp
  obtain ⟨m, hm, hmin⟩ := (l.filter (P ·)).toFinset.exists_min_image f ⟨r, (hmem r).2 ⟨hr, hP⟩⟩
  obtain ⟨hml, hmP⟩ := (hmem m).1 hm
  exact ⟨m, hml, hmP, fun r' hr' hP' => hmin r' ((hmem r').2 ⟨hr', hP'⟩)⟩

/-- The latest rows of a key have one time. -/
theorem latest_alike {side : Side} {table : List SyncRow} {r r' : SyncRow}
    (hr : r ∈ c.latest side table) (hr' : r' ∈ c.latest side table)
    (hkey : c.key side r = c.key side r') : r.time = r'.time ∧ r.item = r'.item := by
  obtain ⟨h1, h2, h3⟩ := SyncCall.mem_latest.1 hr
  obtain ⟨h1', h2', h3'⟩ := SyncCall.mem_latest.1 hr'
  have hle := h3 r' h1' h2' hkey.symm
  have hge := h3' r h1 h2 hkey
  exact ⟨by omega, congrArg Prod.fst hkey⟩

/-- The latest row of a key has the key of a candidate. -/
theorem latest_candidate {side : Side} {table : List SyncRow} {r : SyncRow}
    (hr : r ∈ c.latest side table) : ∃ row, c.candidate side table (c.key side r) = some row :=
  SyncCall.candidate_some (List.mem_map_of_mem hr)

theorem refused_load (h : c.Refused tableA tableB) (replies : SyncReplies) :
    ∃ e, c.load replies tableA tableB = .error e := by
  unfold SyncCall.load
  split
  · exact ⟨_, rfl⟩
  · exact ⟨_, rfl⟩
  · exact ⟨_, rfl⟩
  · exact ⟨_, rfl⟩
  · rename_i hproblem _ _ _
    obtain hp | ⟨side, hlimit⟩ := h
    · rw [hproblem] at hp
      cases hp
    · cases hA : c.loadSide replies .a tableA with
      | error e => exact ⟨_, rfl⟩
      | ok rowsA =>
        cases hB : c.loadSide replies .b tableB with
        | error e => exact ⟨_, rfl⟩
        | ok rowsB =>
          cases side with
          | a => exact absurd hlimit (loadSide_limit hA)
          | b => exact absurd hlimit (loadSide_limit hB)

end

/-! ## What holds for all tables -/

section
variable [PeriodText] {c : SyncCall} {tableA tableB : List SyncRow}

/-- The state of a run that reports success. -/
theorem succeeded_of_ok {replies : SyncReplies} (h : (c.run replies false tableA tableB).ok = true) :
    ∃ s, Succeeded c replies tableA tableB s := by
  obtain hs | ⟨hok, -⟩ := run_cases c replies tableA tableB
  · exact hs
  · rw [h] at hok
    cases hok

/-- A run inserts nothing if nothing is missing. -/
theorem run_still (replies : SyncReplies)
    (h : ∀ k side, c.writes side = true → c.candidates tableA tableB side k = none →
      c.candidates tableA tableB side.other k = none) :
    (c.run replies false tableA tableB).counts.inserted = 0 ∧
    (c.run replies false tableA tableB).a = tableA ∧
    (c.run replies false tableA tableB).b = tableB := by
  have hloop : ∀ examined, (c.loop replies false tableA tableB examined).a = tableA ∧
      (c.loop replies false tableA tableB examined).b = tableB ∧
      (c.loop replies false tableA tableB examined).counts.inserted = 0 :=
    fun examined => loop_still fun k _ side => h k side
  unfold SyncCall.run
  split
  · exact ⟨rfl, rfl, rfl⟩
  · rename_i examined hload
    obtain ⟨ha, hb, hi⟩ := hloop examined
    unfold SyncCall.compare
    dsimp only
    rw [if_neg (by simp)]
    split
    · exact ⟨rfl, rfl, rfl⟩
    · split
      · exact ⟨rfl, rfl, rfl⟩
      · split
        · exact ⟨hi, rfl, rfl⟩
        · split
          · exact ⟨hi, ha, rfl⟩
          · exact ⟨hi, ha, hb⟩

theorem dry_counts {replies : SyncReplies} (h : (c.run replies true tableA tableB).ok = true) :
    ∃ examined, (c.run replies true tableA tableB).counts =
      { (c.loop replies true tableA tableB examined).counts with
        inserted := (c.loop replies true tableA tableB examined).counts.aToB +
          (c.loop replies true tableA tableB examined).counts.bToA } := by
  unfold SyncCall.run at h ⊢
  split at h
  · cases h
  · rename_i examined hload
    exact ⟨examined, rfl⟩

/-- A dry run predicts a run whose inserts are not rejected. -/
theorem run_predicted {replies replies' : SyncReplies}
    (hreject : ∀ side table row, replies.rejects side table row = none)
    (hok : (c.run replies false tableA tableB).ok = true)
    (hdry : (c.run replies' true tableA tableB).ok = true) :
    (c.run replies' true tableA tableB).counts.Predicts (c.run replies false tableA tableB).counts ∧
      (c.run replies false tableA tableB).counts.inserted =
        (c.run replies' true tableA tableB).counts.inserted := by
  obtain ⟨s, hs⟩ := succeeded_of_ok hok
  obtain ⟨examined, hcounts⟩ := dry_counts hdry
  rw [hs.result, hcounts, hs.loop]
  have hloop : (c.loop replies' true tableA tableB examined).counts.Predicts
      (c.loop replies false tableA tableB s.counts.examined).counts :=
    loop_predicted hreject ⟨rfl, rfl, rfl, rfl, rfl, rfl⟩
  obtain ⟨h1, h2, h3, h4, h5, h6⟩ := hloop
  exact ⟨⟨h1, h2, h3, h4, h5, h6⟩, h6⟩

/-! ## Placed rows -/

theorem Succeeded.table {replies : SyncReplies} {s : SyncState}
    (h : Succeeded c replies tableA tableB s) (side : Side) :
    (c.run replies false tableA tableB).table side = s.table side := by
  rw [h.result]
  cases side <;> rfl

/-- The keys of one side are on the other side after a run that places its rows. -/
theorem placed_complete {replies : SyncReplies} {s : SyncState}
    (h : Succeeded c replies tableA tableB s) (hp : c.Placed tableA tableB) {side : Side}
    (hw : c.writes side = true) :
    c.keysOf side.other (side.other.pick tableA tableB) ⊆ c.keysOf side (s.table side) := by
  intro k hk
  obtain ⟨row, hrow⟩ := SyncCall.candidate_some hk
  rw [← candidates_pick] at hrow
  cases hc : c.candidates tableA tableB side k with
  | some r =>
    rw [candidates_pick] at hc
    obtain ⟨hr, hs, hkey⟩ := SyncCall.candidate_spec hc
    obtain ⟨new, hnew, -⟩ := h.synced.grows side
    refine SyncCall.mem_keysOf.2 ⟨r, ?_, hs, hkey⟩
    rw [hnew]
    refine List.mem_append_left _ ?_
    cases side <;> exact hr
  | none =>
    obtain ⟨hsel, hkey⟩ := placed_candidate hp hw hrow hc
    have hmem : k ∈ c.keys tableA tableB := by
      rw [SyncCall.mem_keys]
      cases side with
      | a => exact .inr hk
      | b => exact .inl hk
    rw [← hkey]
    exact alike_mem_keysOf (h.synced.reaches hw hmem hrow hc) hsel

/-- Nothing is missing on a written side after such a run. -/
theorem placed_still {replies : SyncReplies} {s : SyncState}
    (h : Succeeded c replies tableA tableB s) (hp : c.Placed tableA tableB) (k : SyncKey)
    {side : Side} (hw : c.writes side = true) (hnone : c.candidates s.a s.b side k = none) :
    c.candidates s.a s.b side.other k = none := by
  have hpick : ∀ side : Side, side.pick s.a s.b = s.table side := by
    intro side
    cases side <;> rfl
  rw [candidates_pick, hpick, SyncCall.candidate_none] at hnone ⊢
  intro hk
  apply hnone
  obtain ⟨r, hr, hsel, hkey⟩ := SyncCall.mem_keysOf.1 hk
  obtain ⟨new, hnew, hrows⟩ := h.synced.grows side.other
  rw [hnew] at hr
  obtain hr | hr := List.mem_append.1 hr
  · refine placed_complete h hp hw (SyncCall.mem_keysOf.2 ⟨r, ?_, hsel, hkey⟩)
    cases side <;> exact hr
  · -- a row that this run has copied from `side`
    obtain ⟨hw', k', -, hc, hnone'⟩ := hrows r hr
    obtain ⟨-, hkey'⟩ := placed_candidate hp hw' hc hnone'
    have hkk : k = k' := hkey.symm.trans hkey'
    have hback : side.other.other = side := by cases side <;> rfl
    rw [hback, candidates_pick] at hc
    obtain ⟨hr', hs', hk'⟩ := SyncCall.candidate_spec hc
    obtain ⟨new', hnew', -⟩ := h.synced.grows side
    refine SyncCall.mem_keysOf.2 ⟨r, ?_, hs', hk'.trans hkk.symm⟩
    rw [hnew']
    refine List.mem_append_left _ ?_
    cases side <;> exact hr'

theorem achieved_of_placed {replies : SyncReplies} (hp : c.Placed tableA tableB)
    (hok : (c.run replies false tableA tableB).ok = true) :
    Achieved c tableA tableB (c.run replies false tableA tableB) := by
  obtain ⟨s, h⟩ := succeeded_of_ok hok
  refine ⟨fun side => ?_, fun hone => ?_, fun side hw k hk => ?_, fun replies' => ?_, ?_⟩
  · obtain ⟨new, hnew, -⟩ := h.synced.grows side
    refine ⟨new, ?_⟩
    rw [h.table, hnew]
    cases side <;> rfl
  · obtain ⟨new, hnew, hrows⟩ := h.synced.grows .a
    rw [h.result]
    cases new with
    | nil => simpa [SyncState.table] using hnew
    | cons r new =>
      have hw := (hrows r (List.mem_cons_self ..)).1
      simp [SyncCall.writes, hone] at hw
  · rw [h.table]
    exact .inl (placed_complete h hp hw hk)
  · rw [h.result]
    exact run_still replies' fun k side hw => placed_still h hp k hw
  · have htotal := h.synced.total
    rw [h.result]
    dsimp only
    have hselected := htotal.2.1
    have hsum := htotal.1
    dsimp only [SyncCounts.total] at hsum hselected ⊢
    omega

/-! ## Rows that are not placed -/

/-- A run is not stopped where the databases let it insert. -/
theorem run_accepted {rejects : Side → List SyncRow → SyncRow → Option String}
    (haccept : ∀ s a b, (keyOutcome c { rejects } false s a b).isFailed = false)
    (h : ¬ c.Refused tableA tableB) : (c.run { rejects } false tableA tableB).ok = true := by
  unfold SyncCall.Refused at h
  obtain ⟨hproblem, hlimit⟩ := not_or.1 h
  have hnone : c.problem = none := by simpa using hproblem
  have hA : ¬ SyncCall.rowLimit < (c.latest .a tableA).length := fun hlt => hlimit ⟨.a, hlt⟩
  have hB : ¬ SyncCall.rowLimit < (c.latest .b tableB).length := fun hlt => hlimit ⟨.b, hlt⟩
  have hload : c.load { rejects } tableA tableB =
      .ok ((c.latest .a tableA).length + (c.latest .b tableB).length) := by
    unfold SyncCall.load SyncCall.loadSide
    simp [hnone, hA, hB]
  have hfailure : ∀ examined,
      failureOf (c.loop { rejects } false tableA tableB examined).outcomes = none :=
    fun examined => failureOf_none.2 (loop_accepted haccept (by simp))
  unfold SyncCall.run SyncCall.compare
  simp [hload, hfailure]

theorem refused_not_ok (h : c.Refused tableA tableB) (replies : SyncReplies) :
    ¬ (c.run replies false tableA tableB).ok = true := by
  obtain ⟨e, he⟩ := refused_load h replies
  unfold SyncCall.run
  rw [he]
  simp

/-- A row of a written side that the run may not copy there. -/
structure Astray (c : SyncCall) (tableA tableB : List SyncRow) (side : Side) (r : SyncRow) :
    Prop where
  latest : r ∈ c.latest side.other (side.other.pick tableA tableB)
  missing : ∀ r' ∈ side.pick tableA tableB, c.selects side r' = true →
    c.key side r' ≠ c.key side.other r
  astray : ¬ (c.selects side r = true ∧ c.key side r = c.key side.other r)

/-- The key of the first such row is not reached by another one. -/
theorem astray_unreached {replies : SyncReplies} {s : SyncState}
    (h : Succeeded c replies tableA tableB s) {side : Side}
    (hex : ∃ r, Astray c tableA tableB side r) :
    ∃ r, Astray c tableA tableB side r ∧ c.key side.other r ∉ c.keysOf side (s.table side) := by
  obtain ⟨f, hinj, hmono⟩ := period_monotone (c.type side.other) (c.type side)
    c.job.matchIntervalMinutes
  obtain ⟨r₀, h₀⟩ := hex
  obtain ⟨r, hr, hastray, hfirst⟩ := exists_first (fun r => f (c.key side.other r).2)
    ⟨r₀, h₀.latest, h₀⟩
  refine ⟨r, hastray, fun hk => ?_⟩
  obtain ⟨x, hx, hsel, hkey⟩ := SyncCall.mem_keysOf.1 hk
  obtain ⟨new, hnew, hrows⟩ := h.synced.grows side
  rw [hnew] at hx
  obtain hx | hx := List.mem_append.1 hx
  · refine hastray.missing x ?_ hsel hkey
    cases side <;> exact hx
  · obtain ⟨-, k', -, hc, hnone⟩ := hrows x hx
    rw [candidates_pick] at hc hnone
    have hmem := List.mem_filter.1 (List.mem_of_getLast? hc)
    have hk' : c.key side.other x = k' := by simpa using hmem.2
    by_cases hsame : c.key side x = c.key side.other x
    · -- a row of the same period, so it has the same time
      obtain ⟨htime, hitem⟩ := latest_alike hmem.1 hastray.latest (hsame.symm.trans hkey)
      obtain ⟨hs, hks⟩ := alike_selects (c := c) htime hitem side
      exact hastray.astray ⟨hs.symm.trans hsel, hks.symm.trans hkey⟩
    · -- a row that goes astray itself, so its period is no earlier one
      have hx' : Astray c tableA tableB side x := by
        refine ⟨hmem.1, fun r' hr' hs' hkr => ?_, fun hgood => hsame hgood.2⟩
        exact SyncCall.candidate_none.1 hnone
          (SyncCall.mem_keysOf.2 ⟨r', hr', hs', hkr.trans hk'⟩)
      have hle := hfirst x hmem.1 hx'
      have hge : f (c.key side.other x).2 ≤ f (c.key side x).2 := hmono x.time
      rw [hkey] at hge
      have heq := hinj (le_antisymm hge hle)
      exact hsame (Prod.ext rfl (by rw [hkey]; exact heq.symm))

theorem placed_of_achieved (hok : (c.run {} false tableA tableB).ok = true)
    (h : Achieved c tableA tableB (c.run {} false tableA tableB)) : c.Placed tableA tableB := by
  obtain ⟨s, hs⟩ := succeeded_of_ok hok
  intro side hw r hr hmissing
  by_contra hastray
  obtain ⟨m, hm, hnot⟩ := astray_unreached hs ⟨r, hr, hmissing, hastray⟩
  have hkey : c.key side.other m ∈ c.keysOf side.other (side.other.pick tableA tableB) :=
    List.mem_map_of_mem hm.latest
  obtain hreach | hconflict := h.complete side hw _ hkey
  · rw [hs.table] at hreach
    exact hnot hreach
  · -- an accepted row is no conflict
    rw [hs.result] at hconflict
    obtain ⟨row, hrow⟩ := latest_candidate hm.latest
    rw [← candidates_pick] at hrow
    have hnone : c.candidates tableA tableB side (c.key side.other m) = none := by
      rw [candidates_pick, SyncCall.candidate_none]
      intro hmem
      obtain ⟨r', hr', hsel, hk⟩ := SyncCall.mem_keysOf.1 hmem
      exact hm.missing r' hr' hsel hk
    obtain hnil | ⟨-, t, ht⟩ := hs.synced.outcome _ hconflict
    · cases hnil
    · have hattempt : SyncReplies.attempt {} side (t.table side) row = .inserted side row :=
        attempt_accepted (fun _ _ _ => rfl) side _ row
      have hins : keyOutcome c {} false t (c.candidates tableA tableB .a (c.key side.other m))
          (c.candidates tableA tableB .b (c.key side.other m)) = .inserted side row := by
        rw [← hattempt]
        apply keyOutcome_oneSided hw
        cases side with
        | a => exact .inr ⟨rfl, hnone, hrow⟩
        | b => exact .inl ⟨rfl, hrow, hnone⟩
      rw [hins] at ht
      cases ht

end

/-! ## A row before 1970 -/

section

/-- The texts of the first hour of 1970 and the hour before it. -/
@[reducible] def hourText : PeriodText :=
  ⟨fun first => if first < 0 then "1969-12-31 23:00:00" else "1970-01-01 00:00:00"⟩

attribute [local instance] hourText

/-- A job in one direction from MySQL to SQL Server, in periods of an hour. -/
def hourlyJob : SyncJob :=
  { sourceTable := "log", sourceTimeColumn := "at", sourceItemColumn := "item"
    destinationTable := "log", destinationTimeColumn := "at", destinationItemColumn := "item"
    lookbackDays := 1, matchIntervalMinutes := 60, bidirectional := false, allTags := true
    tags := [], mappings := [("value", "value")] }

def hourlyCall : SyncCall :=
  { job := hourlyJob, type := Side.pick .mysql .odbc, range := none, now := fun _ => 0 }

/-- 1969-12-31 23:30:00 -/
def earlyRow : SyncRow := { time := -1800000000, item := "level", values := [some "7"] }

end

end OpcBridge.Logger
