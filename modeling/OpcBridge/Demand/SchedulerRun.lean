import OpcBridge.Demand.Scheduler
import OpcBridge.Lib.Run

/-!
# When the scheduler suspends a tag

The plan keeps one entry for each composite key. `EntryHistory` reads an entry off the refreshes:
`started` is where the unbroken listing of the tag under its epoch began, `lastDemand` the latest
refresh that observed demand for it (or that beginning). So a tag is suspended exactly on the
evidence that the list of refreshes holds (`suspended_iff_evidence`), as long as its composite key
is its own.
-/

namespace OpcBridge

open Lib

section
variable [Floats]

/-! ## The refreshes of a plan -/

structure Refresh where
  demand : DemandTable
  time : Nat

def newPlan (startup idle stale : Nat) : DemandSchedulerPreview :=
  { startup := startup, idle := idle, stale := stale }

def planAfter (plan : DemandSchedulerPreview) (refreshes : List Refresh) : DemandSchedulerPreview :=
  run (fun s r => s.refresh r.demand r.time) plan refreshes

/-- Enabled poll work. -/
def DemandRow.Listed (row : DemandRow) : Prop := row.pollWork = true ∧ row.enabled = true

def DemandRow.Of (row : DemandRow) (cid name : String) : Prop :=
  row.connectionId = cid ∧ row.name = name

instance (row : DemandRow) : Decidable row.Listed := inferInstanceAs (Decidable (_ ∧ _))

instance (row : DemandRow) (cid name : String) : Decidable (row.Of cid name) :=
  inferInstanceAs (Decidable (_ ∧ _))

/-- The table lists the tag under an epoch. -/
def Lists (demand : DemandTable) (cid name : String) (epoch : Nat) : Prop :=
  ∃ row ∈ demand.tags, row.Of cid name ∧ row.Listed ∧ row.driverEpoch = epoch

/-- The table observes demand for the tag. -/
def Observes (demand : DemandTable) (cid name : String) : Prop :=
  ∃ row ∈ demand.tags, row.Of cid name ∧ row.observedDemand = true

/-- The tag was listed with the epoch by every refresh from one at `since` to the last one. -/
def ListedSince (refreshes : List Refresh) (cid name : String) (epoch since : Nat) : Prop :=
  ∃ before first rest, refreshes = before ++ first :: rest ∧ first.time = since ∧
    ∀ r ∈ first :: rest, Lists r.demand cid name epoch

/-- The evidence for a suspension: a last refresh that is not too old and lists the tag as enabled
poll work of this driver without demand, a listing as long as the startup grace, and no demand
observed within the idle grace. -/
structure Evidence (plan : DemandSchedulerPreview) (refreshes : List Refresh) (cid name : String)
    (epoch now : Nat) (last : Refresh) : Prop where
  latest : refreshes.getLast? = some last
  fresh : last.time ≤ now ∧ now ≤ last.time + plan.stale
  idle : ∃ row ∈ last.demand.tags, row.Of cid name ∧ row.Listed ∧ row.driverEpoch = epoch ∧
    row.driver = "ab_eip" ∧ row.observedDemand = false
  startup : ∃ since, ListedSince refreshes cid name epoch since ∧ since + plan.startup ≤ last.time
  undemanded : ∀ r ∈ refreshes, Observes r.demand cid name → r.time + plan.idle ≤ last.time

/-- The tag has at most one row in the table, and its composite key is not the one of another tag
that the table lists. -/
structure OwnKey (demand : DemandTable) (cid name : String) : Prop where
  key : ∀ row ∈ demand.tags, row.Listed →
    schedulerKey row.connectionId row.name = schedulerKey cid name → row.Of cid name
  once : (demand.tags.filter fun row => decide (row.Of cid name)).length ≤ 1

theorem OwnKey.unique {demand : DemandTable} {cid name : String} (h : OwnKey demand cid name)
    {a b : DemandRow} (ha : a ∈ demand.tags) (hb : b ∈ demand.tags) (hao : a.Of cid name)
    (hbo : b.Of cid name) : a = b := by
  have ha' : a ∈ demand.tags.filter fun row => decide (row.Of cid name) := by simp [ha, hao]
  have hb' : b ∈ demand.tags.filter fun row => decide (row.Of cid name) := by simp [hb, hbo]
  have hlen := h.once
  rcases hf : demand.tags.filter fun row => decide (row.Of cid name) with _ | ⟨x, _ | ⟨y, rest⟩⟩
  · rw [hf] at ha'
    cases ha'
  · rw [hf, List.mem_singleton] at ha' hb'
    rw [ha', hb']
  · rw [hf] at hlen
    simp at hlen

/-! ## One refresh -/

/-- The entry of a listed row, given what the key held before. -/
def DemandSchedulerPreview.entryOf (s : DemandSchedulerPreview) (now : Nat)
    (old : Option SchedulerEntry) (row : DemandRow) : SchedulerEntry :=
  let entry := match old.filter (·.epoch == row.driverEpoch) with
    | some entry => entry
    | none => { epoch := row.driverEpoch, started := now, lastDemand := now, wouldPoll := true }
  let entry := if row.observedDemand then { entry with lastDemand := now } else entry
  { entry with
    wouldPoll := decide (row.driver ≠ "ab_eip") || decide (row.observedDemand = true) ||
      decide ((now : Int) - entry.started < s.startup) ||
      decide ((now : Int) - entry.lastDemand < s.idle) }

variable (s : DemandSchedulerPreview) (now : Nat) {acc : RefreshState} {row : DemandRow}

omit [Floats] in
/-- The decision of a plan, without its reason. -/
theorem plan_fst {other observed a b : Prop} [Decidable other] [Decidable observed] [Decidable a]
    [Decidable b] {text : String} :
    (if other then (true, "unsupported_driver") else if observed then (true, text)
      else if a then (true, "startup_grace") else if b then (true, "idle_grace")
      else (false, "no_observed_demand")).1 =
        (decide other || decide observed || decide a || decide b) := by
  by_cases other <;> by_cases observed <;> by_cases a <;> by_cases b <;> simp [*]

theorem refreshTag_skip (acc : RefreshState) {key : String}
    (h : row.Listed → schedulerKey row.connectionId row.name ≠ key) :
    (s.refreshTag now acc row).entries key = acc.entries key ∧
      (key ∈ (s.refreshTag now acc row).seen ↔ key ∈ acc.seen) := by
  unfold DemandSchedulerPreview.refreshTag
  split
  · exact ⟨rfl, Iff.rfl⟩
  · rename_i hl
    have hne : key ≠ schedulerKey row.connectionId row.name := by
      refine (h ?_).symm
      simpa [DemandRow.Listed] using hl
    dsimp only
    exact ⟨Function.update_of_ne hne _ _, by simp [hne]⟩

theorem refreshTag_listed (acc : RefreshState) (h : row.Listed) :
    (s.refreshTag now acc row).entries (schedulerKey row.connectionId row.name) =
      some (s.entryOf now (acc.entries (schedulerKey row.connectionId row.name)) row) ∧
    schedulerKey row.connectionId row.name ∈ (s.refreshTag now acc row).seen := by
  unfold DemandSchedulerPreview.refreshTag
  rw [if_neg (by simp [h.1, h.2])]
  dsimp only
  refine ⟨?_, Finset.mem_insert_self _ _⟩
  rw [Function.update_self]
  unfold DemandSchedulerPreview.entryOf
  cases (acc.entries (schedulerKey row.connectionId row.name)).filter
    (·.epoch == row.driverEpoch) <;> dsimp only <;> rw [plan_fst]

theorem foldl_refreshTag_skip {key : String} {rows : List DemandRow}
    (h : ∀ row ∈ rows, row.Listed → schedulerKey row.connectionId row.name ≠ key) :
    ∀ acc, (rows.foldl (s.refreshTag now) acc).entries key = acc.entries key ∧
      (key ∈ (rows.foldl (s.refreshTag now) acc).seen ↔ key ∈ acc.seen) := by
  induction rows with
  | nil => exact fun acc => ⟨rfl, Iff.rfl⟩
  | cons row rows ih =>
    intro acc
    obtain ⟨h1, h2⟩ := refreshTag_skip s now acc (h row (by simp))
    obtain ⟨h3, h4⟩ := ih (fun r hr => h r (List.mem_cons_of_mem _ hr)) (s.refreshTag now acc row)
    exact ⟨h3.trans h1, h4.trans h2⟩

variable {demand : DemandTable} {cid name : String}

/-- A tag that the table does not list has no entry. -/
theorem refresh_unlisted (hk : OwnKey demand cid name)
    (h : ∀ row ∈ demand.tags, row.Of cid name → ¬ row.Listed) :
    (s.refresh demand now).entries (schedulerKey cid name) = none := by
  have hskip : ∀ row ∈ demand.tags, row.Listed →
      schedulerKey row.connectionId row.name ≠ schedulerKey cid name :=
    fun row hr hl heq => h row hr (hk.key row hr hl heq) hl
  have := (foldl_refreshTag_skip s now hskip { entries := s.entries }).2
  unfold DemandSchedulerPreview.refresh
  dsimp only
  rw [if_neg (by rw [this]; simp)]

/-- The entry of a tag that the table lists. -/
theorem refresh_listed (hk : OwnKey demand cid name) (hr : row ∈ demand.tags)
    (ho : row.Of cid name) (hl : row.Listed) :
    (s.refresh demand now).entries (schedulerKey cid name) =
      some (s.entryOf now (s.entries (schedulerKey cid name)) row) := by
  obtain ⟨pre, post, hsplit⟩ := List.append_of_mem hr
  have hlen := hk.once
  rw [hsplit, List.filter_append, List.length_append, List.filter_cons_of_pos (by simpa using ho),
    List.length_cons] at hlen
  -- no other row is of the tag, so none writes its key
  have hother : ∀ other ∈ pre ++ post, other.Listed →
      schedulerKey other.connectionId other.name ≠ schedulerKey cid name := by
    intro other hm hol heq
    have hmem : other ∈ demand.tags := by
      rw [hsplit]
      simp only [List.mem_append, List.mem_cons] at hm ⊢
      tauto
    have hoo := hk.key other hmem hol heq
    rcases List.mem_append.1 hm with hm | hm
    · have : 0 < (pre.filter fun row => decide (row.Of cid name)).length :=
        List.length_pos_of_mem (List.mem_filter.2 ⟨hm, by simpa using hoo⟩)
      omega
    · have : 0 < (post.filter fun row => decide (row.Of cid name)).length :=
        List.length_pos_of_mem (List.mem_filter.2 ⟨hm, by simpa using hoo⟩)
      omega
  have hkey : schedulerKey row.connectionId row.name = schedulerKey cid name := by
    rw [ho.1, ho.2]
  have h1 := foldl_refreshTag_skip s now (fun r hr => hother r (List.mem_append_left post hr))
    { entries := s.entries }
  have h2 := foldl_refreshTag_skip s now (fun r hr => hother r (List.mem_append_right pre hr))
  have h3 := refreshTag_listed s now (pre.foldl (s.refreshTag now) { entries := s.entries }) hl
  rw [hkey, h1.1] at h3
  unfold DemandSchedulerPreview.refresh
  dsimp only
  rw [hsplit, List.foldl_append, List.foldl_cons, if_pos ((h2 _).2.2 h3.2), (h2 _).1, h3.1]

/-! ## The history of an entry -/

/-- What the entry of a tag remembers of the refreshes. -/
structure EntryHistory (refreshes : List Refresh) (cid name : String) (entry : SchedulerEntry) :
    Prop where
  since : ListedSince refreshes cid name entry.epoch entry.started
  first : ∀ since, ListedSince refreshes cid name entry.epoch since → entry.started ≤ since
  started_le : entry.started ≤ entry.lastDemand
  demand : ∀ r ∈ refreshes, Observes r.demand cid name → r.time ≤ entry.lastDemand
  source : entry.lastDemand = entry.started ∨
    ∃ r ∈ refreshes, Observes r.demand cid name ∧ r.time = entry.lastDemand

/-- The plan after a last refresh. -/
structure PlanHistory (refreshes : List Refresh) (last : Refresh) (cid name : String)
    (s : DemandSchedulerPreview) : Prop where
  none : s.entries (schedulerKey cid name) = none →
    ∀ row ∈ last.demand.tags, row.Of cid name → ¬ row.Listed
  some : ∀ entry, s.entries (schedulerKey cid name) = some entry →
    EntryHistory refreshes cid name entry ∧
    ∃ row ∈ last.demand.tags, row.Of cid name ∧ row.Listed ∧ entry.epoch = row.driverEpoch ∧
      (entry.wouldPoll = false ↔ row.driver = "ab_eip" ∧ row.observedDemand = false ∧
        entry.started + s.startup ≤ last.time ∧ entry.lastDemand + s.idle ≤ last.time)

theorem ListedSince.mem {refreshes : List Refresh} {epoch since : Nat}
    (h : ListedSince refreshes cid name epoch since) : ∃ r ∈ refreshes, r.time = since := by
  obtain ⟨before, first, rest, rfl, ht, -⟩ := h
  exact ⟨first, by simp, ht⟩

/-- A listing goes on with the next refresh, or begins with it. -/
theorem listedSince_snoc {refreshes : List Refresh} {last : Refresh} {epoch since : Nat} :
    ListedSince (refreshes ++ [last]) cid name epoch since ↔
      Lists last.demand cid name epoch ∧
        (last.time = since ∨ ListedSince refreshes cid name epoch since) := by
  constructor
  · rintro ⟨before, first, rest, heq, ht, hall⟩
    rcases List.eq_nil_or_concat rest with rfl | ⟨rest', r, rfl⟩
    · obtain ⟨-, hl⟩ := List.append_inj' heq rfl
      rw [List.singleton_inj] at hl
      subst hl
      exact ⟨hall last (by simp), .inl ht⟩
    · rw [List.concat_eq_append, ← List.cons_append, ← List.append_assoc] at heq
      obtain ⟨hb, hl⟩ := List.append_inj' heq rfl
      rw [List.singleton_inj] at hl
      subst hl
      exact ⟨hall last (by simp), .inr ⟨before, first, rest', hb, ht,
        fun r hr => hall r (by
          rw [List.concat_eq_append, ← List.cons_append]
          exact List.mem_append_left _ hr)⟩⟩
  · rintro ⟨hl, ht | ⟨before, first, rest, rfl, ht, hall⟩⟩
    · exact ⟨refreshes, last, [], rfl, ht, by simpa using hl⟩
    · refine ⟨before, first, rest ++ [last], by simp, ht, fun r hr => ?_⟩
      rw [← List.cons_append, List.mem_append, List.mem_singleton] at hr
      obtain hr | rfl := hr
      · exact hall r hr
      · exact hl

/-- The refreshes come in the order of their times. -/
def Ordered (refreshes : List Refresh) : Prop := refreshes.Pairwise fun a b => a.time ≤ b.time

/-- The entry of a row listed by one more refresh. -/
theorem entryOf_history {refreshes : List Refresh} {last : Refresh} {old : Option SchedulerEntry}
    (ho : Ordered (refreshes ++ [last])) (hk : OwnKey last.demand cid name)
    (hr : row ∈ last.demand.tags) (hof : row.Of cid name) (hl : row.Listed)
    (hold : ∀ entry, old = some entry → EntryHistory refreshes cid name entry)
    (hnone : ∀ since, ListedSince refreshes cid name row.driverEpoch since →
      ∃ entry, old = some entry ∧ entry.epoch = row.driverEpoch) :
    EntryHistory (refreshes ++ [last]) cid name (s.entryOf last.time old row) := by
  have hle : ∀ r ∈ refreshes, r.time ≤ last.time := fun r hr =>
    (List.pairwise_append.1 ho).2.2 r hr last (by simp)
  have hlists : Lists last.demand cid name row.driverEpoch := ⟨row, hr, hof, hl, rfl⟩
  have hobs : Observes last.demand cid name → row.observedDemand = true := by
    rintro ⟨other, hm, ho', hd⟩
    rwa [hk.unique hm hr ho' hof] at hd
  have hmem : ∀ r, r ∈ refreshes ++ [last] ↔ r ∈ refreshes ∨ r = last := by simp
  unfold DemandSchedulerPreview.entryOf
  cases hf : old.filter (·.epoch == row.driverEpoch) with
  | some entry =>
    -- the entry of this epoch goes on
    obtain ⟨hentry, hepoch⟩ := Option.filter_eq_some_iff.1 hf
    have hepoch : entry.epoch = row.driverEpoch := by simpa using hepoch
    have h := hold entry hentry
    have hlast : entry.lastDemand ≤ last.time := by
      obtain ⟨r, hm, ht⟩ := h.since.mem
      obtain heq | ⟨r', hm', -, ht'⟩ := h.source
      · rw [heq, ← ht]
        exact hle r hm
      · rw [← ht']
        exact hle r' hm'
    have hstarted : entry.started ≤ last.time := h.started_le.trans hlast
    by_cases hd : row.observedDemand = true
    · simp only [hd, if_true]
      refine ⟨listedSince_snoc.2 ⟨hepoch ▸ hlists, .inr h.since⟩, fun since hs => ?_, hstarted,
        fun r hm _ => ?_, .inr ⟨last, by simp, ⟨row, hr, hof, hd⟩, rfl⟩⟩
      · obtain ⟨-, rfl | hs⟩ := listedSince_snoc.1 hs
        · exact hstarted
        · exact h.first since hs
      · obtain hm | rfl := (hmem r).1 hm
        · exact hle r hm
        · exact le_rfl
    · simp only [hd]
      refine ⟨listedSince_snoc.2 ⟨hepoch ▸ hlists, .inr h.since⟩, fun since hs => ?_,
        h.started_le, fun r hm ho' => ?_, ?_⟩
      · obtain ⟨-, rfl | hs⟩ := listedSince_snoc.1 hs
        · exact hstarted
        · exact h.first since hs
      · obtain hm | rfl := (hmem r).1 hm
        · exact h.demand r hm ho'
        · exact absurd (hobs ho') hd
      · obtain heq | ⟨r, hm, ho', ht⟩ := h.source
        · exact .inl heq
        · exact .inr ⟨r, (hmem r).2 (.inl hm), ho', ht⟩
  | none =>
    -- a new entry: the tag was not listed with this epoch before
    have hnew : ∀ since, ListedSince (refreshes ++ [last]) cid name row.driverEpoch since →
        last.time ≤ since := by
      intro since hs
      obtain ⟨-, rfl | hs⟩ := listedSince_snoc.1 hs
      · exact le_rfl
      · obtain ⟨entry, rfl, hepoch⟩ := hnone since hs
        simp [hepoch] at hf
    have hdem : ∀ r ∈ refreshes ++ [last], r.time ≤ last.time := by
      intro r hm
      obtain hm | rfl := (hmem r).1 hm
      · exact hle r hm
      · exact le_rfl
    by_cases hd : row.observedDemand = true
    · simp only [hd, if_true]
      exact ⟨listedSince_snoc.2 ⟨hlists, .inl rfl⟩, hnew, le_rfl, fun r hm _ => hdem r hm, .inl rfl⟩
    · simp only [hd]
      exact ⟨listedSince_snoc.2 ⟨hlists, .inl rfl⟩, hnew, le_rfl, fun r hm _ => hdem r hm, .inl rfl⟩

section
variable {plan : DemandSchedulerPreview} {refreshes : List Refresh} {last : Refresh}

theorem planAfter_snoc : planAfter plan (refreshes ++ [last]) =
    (planAfter plan refreshes).refresh last.demand last.time := by
  unfold planAfter
  rw [run_append]
  rfl

/-- The graces and the limit stay. -/
theorem planAfter_limits (plan : DemandSchedulerPreview) (refreshes : List Refresh) :
    (planAfter plan refreshes).startup = plan.startup ∧
      (planAfter plan refreshes).idle = plan.idle ∧
        (planAfter plan refreshes).stale = plan.stale := by
  unfold planAfter
  refine run_induct (I := fun s : DemandSchedulerPreview => s.startup = plan.startup ∧
    s.idle = plan.idle ∧ s.stale = plan.stale) ?_ ⟨rfl, rfl, rfl⟩ refreshes
  exact fun s r h => h

theorem entryOf_wouldPoll {old : Option SchedulerEntry} :
    (s.entryOf now old row).wouldPoll = false ↔ row.driver = "ab_eip" ∧ row.observedDemand = false ∧
      (s.entryOf now old row).started + s.startup ≤ now ∧
      (s.entryOf now old row).lastDemand + s.idle ≤ now := by
  have hsub : ∀ a b : Nat, ¬ ((now : Int) - a < b) ↔ a + b ≤ now := by omega
  unfold DemandSchedulerPreview.entryOf
  simp only [Bool.or_eq_false_iff, decide_eq_false_iff_not, hsub, not_not, Bool.not_eq_true,
    and_assoc]

theorem entryOf_epoch {old : Option SchedulerEntry} :
    (s.entryOf now old row).epoch = row.driverEpoch := by
  unfold DemandSchedulerPreview.entryOf
  dsimp only
  cases hf : old.filter (·.epoch == row.driverEpoch) with
  | none => dsimp only; split <;> rfl
  | some entry =>
    have hepoch : entry.epoch = row.driverEpoch := by
      simpa using (Option.filter_eq_some_iff.1 hf).2
    dsimp only
    split <;> exact hepoch

/-- **The plan remembers what it has to**: induction over the refreshes, where a listing under the
row's epoch before the last refresh is one that the old entry stands for. -/
theorem planAfter_history (startup idle stale : Nat) {refreshes : List Refresh}
    (hk : ∀ r ∈ refreshes, OwnKey r.demand cid name) (ho : Ordered refreshes) {last : Refresh}
    (hlast : refreshes.getLast? = some last) :
    PlanHistory refreshes last cid name (planAfter (newPlan startup idle stale) refreshes) := by
  induction refreshes using List.reverseRecOn generalizing last with
  | nil => cases hlast
  | append_singleton refreshes r ih =>
    simp only [List.getLast?_append, List.getLast?_singleton, Option.some_or,
      Option.some.injEq] at hlast
    subst hlast
    have hown : OwnKey r.demand cid name := hk r (by simp)
    have ih := fun last => @ih (fun r hr => hk r (List.mem_append_left _ hr))
      (List.pairwise_append.1 ho).1 last
    -- what the key held before the last refresh
    have hold : ∀ entry, (planAfter (newPlan startup idle stale) refreshes).entries
        (schedulerKey cid name) = some entry → EntryHistory refreshes cid name entry := by
      intro entry he
      rcases List.eq_nil_or_concat refreshes with rfl | ⟨before, prev, rfl⟩
      · cases he
      · exact ((ih prev (by simp)).some entry he).1
    rw [planAfter_snoc]
    by_cases hex : ∃ row ∈ r.demand.tags, row.Of cid name ∧ row.Listed
    · obtain ⟨row, hr, hof, hl⟩ := hex
      have hrow := refresh_listed (planAfter (newPlan startup idle stale) refreshes) r.time
        hown hr hof hl
      have hnone : ∀ since, ListedSince refreshes cid name row.driverEpoch since →
          ∃ entry, (planAfter (newPlan startup idle stale) refreshes).entries
            (schedulerKey cid name) = some entry ∧ entry.epoch = row.driverEpoch := by
        intro since hs
        rcases List.eq_nil_or_concat refreshes with rfl | ⟨before, prev, rfl⟩
        · obtain ⟨m, hm, -⟩ := hs.mem
          cases hm
        · rw [List.concat_eq_append] at *
          obtain ⟨⟨old, hm, hof', hl', hepoch⟩, -⟩ := listedSince_snoc.1 hs
          have hprev := ih prev (by simp)
          cases he : (planAfter (newPlan startup idle stale) (before ++ [prev])).entries
              (schedulerKey cid name) with
          | none => exact absurd hl' (hprev.none he old hm hof')
          | some entry =>
            obtain ⟨-, other, hm', hof'', -, heq, -⟩ := hprev.some entry he
            have huniq := (hk prev (by simp)).unique hm hm' hof' hof''
            exact ⟨entry, rfl, by rw [heq, ← huniq, hepoch]⟩
      refine ⟨fun hn => ?_, fun entry he => ?_⟩
      · rw [hrow] at hn
        cases hn
      rw [hrow, Option.some.injEq] at he
      subst he
      exact ⟨entryOf_history _ ho hown hr hof hl hold hnone, row, hr, hof, hl, entryOf_epoch _ _,
        entryOf_wouldPoll _ _⟩
    · push Not at hex
      have hno := refresh_unlisted (planAfter (newPlan startup idle stale) refreshes) r.time
        hown hex
      exact ⟨fun _ => hex, fun entry he => by rw [hno] at he; cases he⟩

/-- **Suspension only with evidence**, and always with it where the startup grace is no shorter than
the idle grace. -/
theorem suspended_iff_evidence (startup idle stale : Nat) (hgrace : idle ≤ startup)
    (refreshes : List Refresh) (ho : Ordered refreshes) (cid name : String)
    (hk : ∀ r ∈ refreshes, OwnKey r.demand cid name) (epoch now : Nat) :
    (planAfter (newPlan startup idle stale) refreshes).shouldPoll cid name epoch now = false ↔
      ∃ last, Evidence (newPlan startup idle stale) refreshes cid name epoch now last := by
  rcases List.eq_nil_or_concat refreshes with rfl | ⟨before, last, rfl⟩
  · constructor
    · intro h
      cases h
    · rintro ⟨last, h⟩
      cases h.latest
  rw [List.concat_eq_append] at *
  have hh := planAfter_history startup idle stale hk ho (show _ = some last by simp)
  obtain ⟨hstartup, hidle, hstale⟩ := planAfter_limits (newPlan startup idle stale)
    (before ++ [last])
  have hupdated : (planAfter (newPlan startup idle stale) (before ++ [last])).updated = last.time ∧
      (planAfter (newPlan startup idle stale) (before ++ [last])).initialized = true := by
    rw [planAfter_snoc]
    exact ⟨rfl, rfl⟩
  generalize planAfter (newPlan startup idle stale) (before ++ [last]) = s at *
  constructor
  · intro h
    unfold DemandSchedulerPreview.shouldPoll at h
    split at h
    · cases h
    · rename_i hfresh
      simp only [hupdated, Bool.not_true, Bool.false_or, Bool.or_eq_true, decide_eq_true_eq,
        not_or, not_lt, hstale] at hfresh
      cases he : s.entries (schedulerKey cid name) with
      | none => simp [he] at h
      | some entry =>
        simp only [he, Bool.or_eq_false_iff, bne_eq_false_iff_eq] at h
        obtain ⟨hentry, row, hr, hof, hl, hepoch, hpoll⟩ := hh.some entry he
        obtain ⟨hd, hobs, hs, hi⟩ := hpoll.1 h.2
        have hsince := hentry.since
        rw [h.1] at hsince
        refine ⟨last, by simp, ⟨hfresh.1, ?_⟩, ⟨row, hr, hof, hl, hepoch.symm.trans h.1, hd, hobs⟩,
          ⟨entry.started, hsince, ?_⟩, fun r hm ho' => ?_⟩
        · have := hfresh.2
          show now ≤ last.time + stale
          simp only [newPlan] at this
          omega
        · rw [← hstartup]
          exact hs
        · have := hentry.demand r hm ho'
          rw [← hidle]
          omega
  · rintro ⟨last', hlatest, hfresh, ⟨row, hr, hof, hl, hepoch, hd, hobs⟩, ⟨since, hs, hgr⟩, hun⟩
    simp only [List.getLast?_append, List.getLast?_singleton, Option.some_or,
      Option.some.injEq] at hlatest
    subst hlatest
    unfold DemandSchedulerPreview.shouldPoll
    rw [if_neg]
    · cases he : s.entries (schedulerKey cid name) with
      | none => exact absurd hl (hh.none he row hr hof)
      | some entry =>
        obtain ⟨hentry, other, hm', hof', -, heq, hpoll⟩ := hh.some entry he
        have huniq := (hk last (by simp)).unique hr hm' hof hof'
        subst huniq
        simp only [Bool.or_eq_false_iff, bne_eq_false_iff_eq]
        refine ⟨heq.trans hepoch, hpoll.2 ⟨hd, hobs, ?_, ?_⟩⟩
        · have := hentry.first since (by rw [heq, hepoch]; exact hs)
          rw [hstartup]
          omega
        · have hfirst := hentry.first since (by rw [heq, hepoch]; exact hs)
          rw [hidle]
          have hplan : (newPlan startup idle stale).startup = startup := rfl
          rw [hplan] at hgr
          -- the latest demand, or the begin of the listing
          obtain heq' | ⟨r, hm, ho', ht⟩ := hentry.source
          · rw [heq']
            show entry.started + idle ≤ last.time
            omega
          · rw [← ht]
            exact hun r hm ho'
    · simp only [hupdated, Bool.not_true, Bool.false_or, Bool.or_eq_true, decide_eq_true_eq,
        not_or, not_lt, hstale]
      have := hfresh.2
      omega

end

end

/-! ## Two tags of one key -/

section
attribute [local instance] intFloats

/-- Enabled poll work without demand. -/
def idleRow (cid name : String) (epoch : Nat) : DemandRow where
  connectionId := cid
  name := name
  enabled := true
  observedDemand := false
  reasons := ∅
  registeredMonitoredItems := 0
  activeMonitoredItems := 0
  inheritedSamplingItems := 0
  minExplicitSamplingInterval := none
  websocketSubscribers := 0
  pollSource := none
  pollWork := true
  writable := false
  driver := "ab_eip"
  driverEpoch := epoch

def idleTable (tags : List DemandRow) : DemandTable where
  allTagsClients := 0
  consumerRegistrations := []
  automation := {}
  connections := fun _ => none
  tags := tags

/-- Refreshes with one table for the startup grace. -/
def idleRefreshes (tags : List DemandRow) : List Refresh :=
  [⟨idleTable tags, 0⟩, ⟨idleTable tags, 30000000000⟩]

theorem idleRefreshes_ordered (tags : List DemandRow) : Ordered (idleRefreshes tags) := by
  simp [Ordered, idleRefreshes]

theorem idleRefreshes_evidence {tags : List DemandRow} {cid name : String} {epoch : Nat}
    (h : idleRow cid name epoch ∈ tags) (hidle : ∀ row ∈ tags, row.observedDemand = false) :
    Evidence (newPlan 30000000000 10000000000 2500000000) (idleRefreshes tags) cid name epoch
      30000000000 ⟨idleTable tags, 30000000000⟩ where
  latest := rfl
  fresh := ⟨le_rfl, by simp⟩
  idle := ⟨_, h, ⟨rfl, rfl⟩, ⟨rfl, rfl⟩, rfl, rfl, rfl⟩
  startup := by
    refine ⟨0, ⟨[], _, _, rfl, rfl, fun r hr => ?_⟩, by simp [newPlan]⟩
    have hd : r.demand = idleTable tags := by
      simp only [List.mem_cons, List.not_mem_nil, or_false] at hr
      rcases hr with rfl | rfl <;> rfl
    rw [hd]
    exact ⟨_, h, ⟨rfl, rfl⟩, ⟨rfl, rfl⟩, rfl⟩
  undemanded := by
    rintro r hr ⟨row, hm, -, ho⟩
    have hd : r.demand = idleTable tags := by
      simp only [idleRefreshes, List.mem_cons, List.not_mem_nil, or_false] at hr
      rcases hr with rfl | rfl <;> rfl
    rw [hd] at hm
    rw [hidle row hm] at ho
    cases ho

/-- A tag that nothing demands is suspended after the startup grace. -/
theorem idle_tag_suspended :
    (planAfter (newPlan 30000000000 10000000000 2500000000)
      (idleRefreshes [idleRow "PLC" "Idle" 1])).shouldPoll "PLC" "Idle" 1 30000000000 = false := by
  refine (suspended_iff_evidence 30000000000 10000000000 2500000000 (by decide) _
    (idleRefreshes_ordered _) "PLC" "Idle" (fun r hr => ?_) 1 30000000000).2
      ⟨_, idleRefreshes_evidence (by simp) (by simp [idleRow])⟩
  have hd : r.demand = idleTable [idleRow "PLC" "Idle" 1] := by
    simp only [idleRefreshes, List.mem_cons, List.not_mem_nil, or_false] at hr
    rcases hr with rfl | rfl <;> rfl
  rw [hd]
  exact ⟨by simp [idleTable, idleRow, DemandRow.Of], by decide⟩

/-- Tag `C` of a connection whose id ends in a separator and `B`, and tag `B`, separator, `C` of
another connection. -/
def sharedKeyRows : List DemandRow := [idleRow "A\x1fB" "C" 1, idleRow "A" "B\x1fC" 2]

/-- There is all the evidence against the second one, and it is polled: each refresh drops its entry
for the one of the first. -/
theorem sharedKey_polled :
    Ordered (idleRefreshes sharedKeyRows) ∧
    (∃ last, Evidence (newPlan 30000000000 10000000000 2500000000) (idleRefreshes sharedKeyRows)
      "A" "B\x1fC" 2 30000000000 last) ∧
    (planAfter (newPlan 30000000000 10000000000 2500000000)
      (idleRefreshes sharedKeyRows)).shouldPoll "A" "B\x1fC" 2 30000000000 = true :=
  ⟨idleRefreshes_ordered _,
    ⟨_, idleRefreshes_evidence (by simp [sharedKeyRows]) (by simp [sharedKeyRows, idleRow])⟩,
    by decide +kernel⟩

end

end OpcBridge
