import Mathlib.Data.List.Nodup
import OpcBridge.Alarms.Mirror

/-!
# Runs of the mirror

`Mirroring` is the invariant: behind the nodes stand the batch of the UA thread, the pending list and
the copies still to be posted, and the last copy of an alarm among them, or else its node, shows
the alarm. Every admitted step keeps it (`step_mirroring`), and when nothing is left on the way it
says that the nodes show the engine's alarms (`mirror_run`).
-/

namespace OpcBridge.Alarms

open OpcBridge Lib

section
variable [Floats] [JsonLib]

/-- The copies on their way, in the order in which they will be written. -/
def MirrorState.copies (s : MirrorState) : List AlarmState :=
  s.batch ++ (s.pending ++ s.posts.flatMap Posting.states)

/-- What the node of an alarm shows once the copies on their way are written. -/
def MirrorState.willShow (s : MirrorState) (id : String) : Option Shown :=
  ((lastOf id s.copies).map AlarmState.shown).or ((s.nodes id).map AlarmNode.shown)

structure Mirroring (s : MirrorState) : Prop where
  engine : Named s.engine
  named : ∀ a ∈ s.copies, a.alarmId ≠ ""
  batch : (s.batch.map AlarmState.alarmId).Nodup
  shows : s.enabled = true → s.loading = 0 → ∀ id a, s.engine.states id = some a →
    s.willShow id = some a.shown

/-! ## Lists of copies -/

section
omit [JsonLib]

/-- Two lists with the same copies of an alarm have the same last one. -/
theorem lastOf_congr {id : String} {l l' : List AlarmState}
    (h : (l.filter fun s => s.alarmId == id) = l'.filter fun s => s.alarmId == id) :
    lastOf id l = lastOf id l' := by
  unfold lastOf
  rw [h]

theorem filter_eq_nil_of_notMem {id : String} {l : List AlarmState}
    (h : id ∉ l.map AlarmState.alarmId) : (l.filter fun s => s.alarmId == id) = [] := by
  refine List.filter_eq_nil_iff.2 fun a ha hid => h ?_
  exact List.mem_map.2 ⟨a, ha, beq_iff_eq.1 hid⟩

/-- Copies of other alarms may be moved over the copies of a list. -/
theorem lastOf_move (id : String) {l l' : List AlarmState} (before after : List AlarmState)
    (h : ∀ a ∈ l, a.alarmId ∉ l'.map AlarmState.alarmId) :
    lastOf id (before ++ (l ++ (l' ++ after))) = lastOf id (before ++ (l' ++ (l ++ after))) := by
  refine lastOf_congr ?_
  simp only [List.filter_append]
  by_cases hid : id ∈ l'.map AlarmState.alarmId
  · have hl : id ∉ l.map AlarmState.alarmId := by
      intro hmem
      obtain ⟨a, ha, rfl⟩ := List.mem_map.1 hmem
      exact h a ha hid
    rw [filter_eq_nil_of_notMem hl]
    rfl
  · rw [filter_eq_nil_of_notMem hid]
    rfl

/-- A part may be dropped if every alarm in it stands in the part after it. -/
theorem lastOf_drop {id : String} {l l' : List AlarmState}
    (h : ∀ a ∈ l, a.alarmId ∈ l'.map AlarmState.alarmId) : lastOf id (l ++ l') = lastOf id l' := by
  rw [lastOf_append]
  cases hl' : lastOf id l' with
  | some a => rfl
  | none =>
    rw [Option.none_or, lastOf_eq_none]
    intro hmem
    obtain ⟨a, ha, rfl⟩ := List.mem_map.1 hmem
    exact lastOf_eq_none.1 hl' (h a ha)

theorem lastOf_upsertAlarm {pending : List AlarmState} {a : AlarmState} (h : TrimSafe pending a)
    (id : String) (before after : List AlarmState) :
    lastOf id (before ++ (upsertAlarm pending a ++ after)) =
      lastOf id (before ++ (pending ++ [a] ++ after)) := by
  unfold upsertAlarm
  dsimp only
  split
  · rename_i hlen
    have hlong : 9999 < pending.length := by
      rw [List.length_append, List.length_singleton] at hlen
      omega
    have htake : (pending ++ [a]).take 5000 = pending.take 5000 :=
      List.take_append_of_le_length (by omega)
    have hdrop : ∀ id, lastOf id ((pending ++ [a]).drop 5000) = lastOf id (pending ++ [a]) := by
      intro id
      conv => rhs; rw [← List.take_append_drop 5000 (pending ++ [a])]
      refine (lastOf_drop ?_).symm
      rw [htake]
      exact h hlong
    simp only [lastOf_append, Option.or_assoc] at hdrop ⊢
    rw [hdrop]
    simp only [Option.or_assoc]
  · rfl

theorem mem_upsertAlarm {pending : List AlarmState} {a b : AlarmState}
    (h : b ∈ upsertAlarm pending a) : b ∈ pending ∨ b = a := by
  have hmem : b ∈ pending ++ [a] := by
    unfold upsertAlarm at h
    dsimp only at h
    split at h
    · exact List.mem_of_mem_drop h
    · exact h
  simpa using hmem

theorem mem_setLatest {latest : List AlarmState} {s a : AlarmState} (h : a ∈ setLatest latest s) :
    a ∈ latest ∨ a = s := by
  obtain h | h := List.mem_append.1 h
  · exact .inl (List.mem_filter.1 h).1
  · exact .inr (List.mem_singleton.1 h)

theorem setLatest_nodup {latest : List AlarmState} (h : (latest.map AlarmState.alarmId).Nodup)
    (s : AlarmState) : ((setLatest latest s).map AlarmState.alarmId).Nodup := by
  unfold setLatest
  rw [List.map_append, List.map_singleton, List.nodup_append]
  refine ⟨h.sublist (List.filter_sublist.map _), by simp, ?_⟩
  intro x hx y hy
  obtain ⟨a, ha, rfl⟩ := List.mem_map.1 hx
  rw [List.mem_singleton.1 hy]
  exact bne_iff_ne.1 (List.mem_filter.1 ha).2

theorem lastOf_setLatest (latest : List AlarmState) (s : AlarmState) (id : String) :
    lastOf id (setLatest latest s) = (lastOf id [s]).or (lastOf id latest) := by
  unfold setLatest
  rw [lastOf_append]
  by_cases hid : s.alarmId = id
  · subst hid
    rw [lastOf_self, Option.some_or, Option.some_or]
  · rw [lastOf_other hid, Option.none_or, Option.none_or]
    refine lastOf_congr ?_
    rw [List.filter_filter]
    refine List.filter_congr fun a _ => ?_
    by_cases ha : a.alarmId = id
    · subst ha
      simpa using Ne.symm hid
    · have hb : (a.alarmId == id) = false := by simpa using ha
      rw [hb, Bool.false_and]

/-- The batch holds one copy of each alarm, its last. -/
theorem coalesce_spec (batch : List AlarmState) :
    ((coalesce batch).map AlarmState.alarmId).Nodup ∧
      (∀ a ∈ coalesce batch, a ∈ batch) ∧ ∀ id, lastOf id (coalesce batch) = lastOf id batch := by
  unfold coalesce
  induction batch using List.reverseRecOn with
  | nil => exact ⟨List.nodup_nil, fun a ha => (by cases ha), fun _ => rfl⟩
  | append_singleton batch s ih =>
    obtain ⟨h1, h2, h3⟩ := ih
    rw [List.foldl_append, List.foldl_cons, List.foldl_nil]
    refine ⟨setLatest_nodup h1 s, fun a ha => ?_, fun id => ?_⟩
    · obtain ha | rfl := mem_setLatest ha
      · exact List.mem_append_left _ (h2 a ha)
      · simp
    · rw [lastOf_setLatest, h3, lastOf_append]

end

/-! ## What a step keeps -/

section
variable {s : MirrorState}

/-- The copies of an operation are the last ones of the alarms it changed. -/
theorem Mirroring.op (h : Mirroring s) {op : AlarmOp} (hop : op.loads = false) :
    Mirroring (s.step (.op op)) := by
  have hstep : s.step (.op op) = { s with
      engine := s.engine.step op
      posts := s.posts ++ Posting.ofChanged (s.engine.changedBy (s.engine.touches op)) } := by
    simp only [MirrorState.step, hop, Bool.false_eq_true, if_false]
  have hcopies : (s.step (.op op)).copies =
      s.copies ++ s.engine.changedBy (s.engine.touches op) := by
    have hof : ∀ l : List AlarmState, (Posting.ofChanged l).flatMap Posting.states = l := by
      intro l
      cases l with
      | nil => rfl
      | cons a l => simp [Posting.ofChanged, Posting.states]
    rw [hstep]
    simp [MirrorState.copies, hof]
  refine ⟨?_, fun a ha => ?_, ?_, fun hen hload id a hs => ?_⟩
  · rw [hstep]
    exact step_named h.engine op
  · rw [hcopies] at ha
    obtain ha | ha := List.mem_append.1 ha
    · exact h.named a ha
    · intro hid
      have hsome := changedBy_alarmId h.engine.keyed ha
      rw [hid, h.engine.named] at hsome
      cases hsome
  · rw [hstep]
    exact h.batch
  · have hnodes : (s.step (.op op)).nodes = s.nodes := by rw [hstep]
    rw [hstep] at hen hload hs
    change (s.engine.step op).states id = some a at hs
    have hlast := changedBy_last h.engine.keyed (s.engine.touches op) id
    rw [← step_touchThrough s.engine hop, hs] at hlast
    unfold MirrorState.willShow
    rw [hcopies, hnodes, lastOf_append]
    cases hc : lastOf id (s.engine.changedBy (s.engine.touches op)) with
    | some b =>
      rw [hc] at hlast
      simpa using hlast
    | none =>
      rw [hc] at hlast
      simp only [Option.map_none, Option.none_or, Option.map_some] at hlast
      obtain ⟨a₀, ha₀, hshown⟩ := Option.map_eq_some_iff.1 hlast
      rw [Option.none_or, ← hshown]
      exact h.shows hen hload id a₀ ha₀

omit [JsonLib] in
/-- After a swap of the tables nothing is asked of the nodes until the copy is taken. -/
theorem Mirroring.swap (h : Mirroring s) {e : AlarmEngine} (he : Named e) (b : Bool) :
    Mirroring { s with engine := e, enabled := b, loading := s.loading + 1 } :=
  ⟨he, h.named, h.batch, fun _ hload => absurd hload (Nat.succ_ne_zero _)⟩

theorem Mirroring.collect (h : Mirroring s) : Mirroring (s.step .collect) := by
  have hcases : s.step .collect = s ∨ ∃ n, s.step .collect =
      { s with loading := n, posts := s.posts ++ [.sync s.engine.allStates] } := by
    simp only [MirrorState.step]
    split
    · exact .inl rfl
    · rename_i n _
      exact .inr ⟨n, rfl⟩
  obtain heq | ⟨n, heq⟩ := hcases
  · rwa [heq]
  · have hcopies : (s.step .collect).copies = s.copies ++ s.engine.allStates := by
      rw [heq]
      simp [MirrorState.copies, Posting.states]
    refine ⟨heq ▸ h.engine, fun a ha => ?_, heq ▸ h.batch, fun _ _ id a hs => ?_⟩
    · rw [hcopies] at ha
      obtain ha | ha := List.mem_append.1 ha
      · exact h.named a ha
      · intro hid
        have hstate := (mem_allStates h.engine.keyed).1 ha
        rw [hid, h.engine.named] at hstate
        cases hstate
    · rw [heq] at hs
      unfold MirrorState.willShow
      rw [hcopies, lastOf_append, allStates_last h.engine.keyed, hs]
      rfl

omit [JsonLib] in
/-- A step that leaves the last copies alone. -/
theorem Mirroring.of_last (h : Mirroring s) {s' : MirrorState} (he : s'.engine = s.engine)
    (hen : s'.enabled = s.enabled) (hl : s'.loading = s.loading)
    (hnamed : ∀ a ∈ s'.copies, a ∈ s.copies) (hb : (s'.batch.map AlarmState.alarmId).Nodup)
    (hshow : s.enabled = true → ∀ id, s'.willShow id = s.willShow id) : Mirroring s' := by
  refine ⟨he ▸ h.engine, fun a ha => h.named a (hnamed a ha), hb, fun hen' hl' id a hs => ?_⟩
  rw [hshow (hen ▸ hen')]
  exact h.shows (hen ▸ hen') (hl ▸ hl') id a (he ▸ hs)

/-! ### Posting -/

omit [JsonLib] in
/-- The copies before and after a posting. -/
theorem flatMap_at {posts : List Posting} {i : Nat} {p : Posting} (h : posts[i]? = some p) :
    let before := (posts.take i).flatMap Posting.states
    let after := (posts.drop (i + 1)).flatMap Posting.states
    posts.flatMap Posting.states = before ++ (p.states ++ after) ∧
      (posts.eraseIdx i).flatMap Posting.states = before ++ after ∧
      ∀ q, (posts.set i q).flatMap Posting.states = before ++ (q.states ++ after) := by
  obtain ⟨hlt, hget⟩ := List.getElem?_eq_some_iff.1 h
  intro before after
  refine ⟨?_, ?_, fun q => ?_⟩
  · conv => lhs; rw [← List.take_append_drop i posts, List.drop_eq_getElem_cons hlt, hget]
    rw [List.flatMap_append, List.flatMap_cons]
  · rw [List.eraseIdx_eq_take_drop_succ, List.flatMap_append]
  · rw [List.set_eq_take_append_cons_drop, if_pos hlt, List.flatMap_append, List.flatMap_cons]

omit [JsonLib] in
theorem inOrder_flatMap {i : Nat} {states : List AlarmState} (h : s.InOrder i states) :
    ∀ a ∈ (s.posts.take i).flatMap Posting.states, a.alarmId ∉ states.map AlarmState.alarmId := by
  intro a ha
  obtain ⟨p, hp, ha⟩ := List.mem_flatMap.1 ha
  exact h p hp a ha

omit [JsonLib] in
theorem willShow_of_last {s s' : MirrorState} {id : String} (hn : s'.nodes = s.nodes)
    (h : lastOf id s'.copies = lastOf id s.copies) : s'.willShow id = s.willShow id := by
  unfold MirrorState.willShow
  rw [hn, h]

theorem Mirroring.upsert (h : Mirroring s) {i : Nat} {a : AlarmState} {rest : List AlarmState}
    (hp : s.posts[i]? = some (.upserts (a :: rest))) (horder : s.InOrder i [a])
    (htrim : TrimSafe s.pending a) : Mirroring (s.step (.post i)) := by
  obtain ⟨hall, herase, hset⟩ := flatMap_at hp
  have hstep : s.step (.post i) = { s with
      pending := if s.enabled then upsertAlarm s.pending a else s.pending
      posts := if rest.isEmpty then s.posts.eraseIdx i else s.posts.set i (.upserts rest) } := by
    simp only [MirrorState.step, hp]
  have hposts : (s.step (.post i)).posts.flatMap Posting.states =
      (s.posts.take i).flatMap Posting.states ++
        (rest ++ (s.posts.drop (i + 1)).flatMap Posting.states) := by
    rw [hstep]
    dsimp only
    cases rest with
    | nil => exact herase
    | cons b rest => exact hset _
  have hcopies : (s.step (.post i)).copies = s.batch ++
      ((if s.enabled then upsertAlarm s.pending a else s.pending) ++
        ((s.posts.take i).flatMap Posting.states ++
          (rest ++ (s.posts.drop (i + 1)).flatMap Posting.states))) := by
    unfold MirrorState.copies
    rw [hposts, hstep]
  have hbefore : s.copies = s.batch ++ (s.pending ++
      ((s.posts.take i).flatMap Posting.states ++
        ([a] ++ (rest ++ (s.posts.drop (i + 1)).flatMap Posting.states)))) := by
    unfold MirrorState.copies
    rw [hall]
    rfl
  refine h.of_last (by rw [hstep]) (by rw [hstep]) (by rw [hstep]) (fun b hb => ?_)
    (by rw [hstep]; exact h.batch) fun hen id => willShow_of_last (by rw [hstep]) ?_
  · rw [hcopies] at hb
    rw [hbefore]
    simp only [List.mem_append, List.mem_singleton] at hb ⊢
    obtain hb | hb | hb | hb | hb := hb
    · exact .inl hb
    · split at hb
      · obtain hb | hb := mem_upsertAlarm hb
        · exact .inr (.inl hb)
        · exact .inr (.inr (.inr (.inl hb)))
      · exact .inr (.inl hb)
    · exact .inr (.inr (.inl hb))
    · exact .inr (.inr (.inr (.inr (.inl hb))))
    · exact .inr (.inr (.inr (.inr (.inr hb))))
  · have hmove := lastOf_move id (s.batch ++ s.pending)
      (rest ++ (s.posts.drop (i + 1)).flatMap Posting.states) (inOrder_flatMap horder)
    rw [hcopies, hbefore, if_pos hen, lastOf_upsertAlarm htrim]
    simpa only [List.append_assoc] using hmove.symm

theorem Mirroring.sync (h : Mirroring s) {i : Nat} {states : List AlarmState}
    (hp : s.posts[i]? = some (.sync states)) (horder : s.InOrder i states) :
    Mirroring (s.step (.post i)) := by
  obtain ⟨hall, herase, -⟩ := flatMap_at hp
  have hstep : s.step (.post i) = { s with
      pending := if s.enabled then s.pending ++ states else s.pending
      posts := s.posts.eraseIdx i } := by
    simp only [MirrorState.step, hp]
  have hcopies : (s.step (.post i)).copies = s.batch ++
      ((if s.enabled then s.pending ++ states else s.pending) ++
        ((s.posts.take i).flatMap Posting.states ++
          (s.posts.drop (i + 1)).flatMap Posting.states)) := by
    unfold MirrorState.copies
    rw [hstep, herase]
  have hbefore : s.copies = s.batch ++ (s.pending ++
      ((s.posts.take i).flatMap Posting.states ++
        (states ++ (s.posts.drop (i + 1)).flatMap Posting.states))) := by
    unfold MirrorState.copies
    rw [hall]
    rfl
  refine h.of_last (by rw [hstep]) (by rw [hstep]) (by rw [hstep]) (fun b hb => ?_)
    (by rw [hstep]; exact h.batch) fun hen id => willShow_of_last (by rw [hstep]) ?_
  · rw [hcopies] at hb
    rw [hbefore]
    simp only [List.mem_append] at hb ⊢
    obtain hb | hb | hb | hb := hb
    · exact .inl hb
    · split at hb
      · obtain hb | hb := List.mem_append.1 hb
        · exact .inr (.inl hb)
        · exact .inr (.inr (.inr (.inl hb)))
      · exact .inr (.inl hb)
    · exact .inr (.inr (.inl hb))
    · exact .inr (.inr (.inr (.inr hb)))
  · have hmove := lastOf_move id (s.batch ++ s.pending)
      ((s.posts.drop (i + 1)).flatMap Posting.states) (inOrder_flatMap horder)
    rw [hcopies, hbefore, if_pos hen]
    simpa only [List.append_assoc] using hmove.symm

omit [JsonLib] in
theorem Mirroring.drained [JsonLib] (h : Mirroring s) {i : Nat} (hp : s.posts[i]? = some (.upserts [])) :
    Mirroring (s.step (.post i)) := by
  obtain ⟨hall, herase, -⟩ := flatMap_at hp
  have hstep : s.step (.post i) = { s with posts := s.posts.eraseIdx i } := by
    simp only [MirrorState.step, hp]
  have hcopies : (s.step (.post i)).copies = s.copies := by
    unfold MirrorState.copies
    rw [hstep, herase, hall]
    rfl
  refine h.of_last (by rw [hstep]) (by rw [hstep]) (by rw [hstep]) (fun b hb => ?_)
    (by rw [hstep]; exact h.batch) fun _ id => willShow_of_last (by rw [hstep]) (by rw [hcopies])
  rwa [hcopies] at hb

/-! ### The UA thread -/

theorem Mirroring.take (h : Mirroring s) : Mirroring (s.step .take) := by
  by_cases hready : s.enabled = true ∧ s.batch.isEmpty = true
  · have hstep : s.step .take = { s with pending := [], batch := coalesce s.pending } := by
      simp only [MirrorState.step, hready, and_self, if_true]
    obtain ⟨h1, h2, h3⟩ := coalesce_spec s.pending
    have hempty : s.batch = [] := List.isEmpty_iff.1 hready.2
    refine h.of_last (by rw [hstep]) (by rw [hstep]) (by rw [hstep]) (fun b hb => ?_)
      (by rw [hstep]; exact h1) fun _ id => willShow_of_last (by rw [hstep]) ?_
    · rw [hstep] at hb
      unfold MirrorState.copies at hb ⊢
      rw [hempty]
      simp only [List.nil_append, List.mem_append] at hb ⊢
      exact hb.imp (h2 b) id
    · rw [hstep]
      unfold MirrorState.copies
      rw [hempty]
      simp only [List.nil_append, lastOf_append, h3]
  · have hstep : s.step .take = s := by
      simp only [MirrorState.step, hready, if_false]
    rwa [hstep]

theorem Mirroring.write (h : Mirroring s) (i : Nat) : Mirroring (s.step (.write i)) := by
  cases hi : s.batch[i]? with
  | none =>
    have hstep : s.step (.write i) = s := by
      simp only [MirrorState.step, hi]
    rwa [hstep]
  | some a =>
    have hstep : s.step (.write i) =
        { s with batch := s.batch.eraseIdx i, nodes := writeAlarm s.nodes a } := by
      simp only [MirrorState.step, hi]
    obtain ⟨hlt, hget⟩ := List.getElem?_eq_some_iff.1 hi
    have hsplit : s.batch = s.batch.take i ++ a :: s.batch.drop (i + 1) := by
      conv => lhs; rw [← List.take_append_drop i s.batch, List.drop_eq_getElem_cons hlt, hget]
    have herase : s.batch.eraseIdx i = s.batch.take i ++ s.batch.drop (i + 1) :=
      List.eraseIdx_eq_take_drop_succ ..
    have hmem : ∀ b ∈ s.batch.eraseIdx i, b ∈ s.batch := fun b hb => List.mem_of_mem_eraseIdx hb
    have hnamed : a.alarmId ≠ "" := by
      refine h.named a (List.mem_append_left _ ?_)
      rw [hsplit]
      simp
    -- the batch has no other copy of the alarm
    have hnone : lastOf a.alarmId (s.batch.eraseIdx i) = none := by
      have hnodup := h.batch
      rw [hsplit, List.map_append, List.map_cons] at hnodup
      rw [lastOf_eq_none, herase, List.map_append]
      exact (List.nodup_middle.1 hnodup).notMem
    refine h.of_last (by rw [hstep]) (by rw [hstep]) (by rw [hstep]) (fun b hb => ?_) ?_
      fun _ id => ?_
    · rw [hstep] at hb
      unfold MirrorState.copies at hb ⊢
      rw [List.mem_append] at hb ⊢
      exact hb.imp (hmem b) fun h => h
    · rw [hstep]
      exact h.batch.sublist ((List.eraseIdx_sublist _ _).map _)
    · rw [hstep]
      unfold MirrorState.willShow MirrorState.copies writeAlarm
      dsimp only
      rw [if_neg hnamed, lastOf_append id (s.batch.eraseIdx i), lastOf_append id s.batch]
      by_cases hid : a.alarmId = id
      · subst hid
        have hlast : lastOf a.alarmId s.batch = some a := by
          rw [hsplit, lastOf_append, lastOf_cons, lastOf_self]
          have hafter : lastOf a.alarmId (s.batch.drop (i + 1)) = none := by
            rw [herase, lastOf_append, Option.or_eq_none_iff] at hnone
            exact hnone.1
          rw [hafter]
          rfl
        rw [hnone, hlast, Function.update_self]
        cases lastOf a.alarmId (s.pending ++ s.posts.flatMap Posting.states) with
        | some b => rfl
        | none => rfl
      · have hsame : lastOf id (s.batch.eraseIdx i) = lastOf id s.batch := by
          refine lastOf_congr ?_
          conv => rhs; rw [hsplit]
          rw [herase, List.filter_append, List.filter_append, List.filter_cons,
            if_neg (by simpa using hid)]
        rw [hsame, Function.update_of_ne (Ne.symm hid)]

end

/-! ## Runs -/

omit [JsonLib] in
/-- The oldest posting is in order. -/
theorem admits_post_zero {s : MirrorState} (h : s.pending.length ≤ 9999) : s.Admits (.post 0) := by
  have horder : ∀ states, s.InOrder 0 states := fun states p hp => (by cases hp)
  have htrim : ∀ a, TrimSafe s.pending a := fun a hlong => absurd hlong (by omega)
  simp only [MirrorState.Admits]
  split
  · exact ⟨horder _, htrim _⟩
  · exact horder _
  · trivial

/-- **A step of the mirror.** -/
theorem step_mirroring (s : MirrorState) (e : MirrorEvent) (h : Mirroring s) (hok : s.Admits e) :
    Mirroring (s.step e) := by
  cases e with
  | collect => exact h.collect
  | take => exact h.take
  | write i => exact h.write i
  | op op =>
    cases hop : op.loads with
    | false => exact h.op hop
    | true =>
      simp only [MirrorState.step, hop, if_true]
      exact h.swap (step_named h.engine op) s.enabled
  | restore sinceMs rows =>
    simp only [MirrorState.step]
    split
    · exact h
    · split
      · exact h
      · rename_i engine hengine
        exact h.swap (restore_named h.engine hengine) s.enabled
  | start =>
    simp only [MirrorState.step]
    split
    · exact h
    · exact h.swap h.engine true
  | post i =>
    simp only [MirrorState.Admits] at hok
    cases hp : s.posts[i]? with
    | none =>
      simp only [MirrorState.step, hp]
      exact h
    | some p =>
      rw [hp] at hok
      cases p with
      | sync states => exact h.sync hp hok
      | upserts states =>
        cases states with
        | nil => exact h.drained hp
        | cons a rest => exact h.upsert hp hok.1 hok.2

omit [JsonLib] in
theorem empty_mirroring : Mirroring ({} : MirrorState) :=
  ⟨empty_named, fun a ha => (by cases ha), List.nodup_nil, fun hen => (by cases hen)⟩

/-- **The mirror.** Where every copy is posted in order and no last copy is trimmed, the nodes show
the engine's alarms as soon as nothing is on its way. -/
theorem mirror_run (events : List MirrorEvent)
    (hok : Along MirrorState.step MirrorState.Admits {} events) :
    let s := run MirrorState.step {} events
    s.enabled = true → s.Quiet → s.Mirrored := by
  intro s hen ⟨hload, hposts, hpending, hbatch⟩ id a ha
  have h : Mirroring s := run_invariant step_mirroring empty_mirroring hok
  have hshow := h.shows hen hload id a ha
  unfold MirrorState.willShow MirrorState.copies at hshow
  rw [hposts, hpending, hbatch] at hshow
  exact hshow

end

section
attribute [local instance] intFloats intJson

def tankLevel : AlarmRule where
  id := "TANK_LEVEL"
  connectionId := "PLC1"
  tag := "Level"

/-- One alarm is loaded before the server starts, and its node is written. -/
def startEvents : List MirrorEvent := [
  .op (.load [tankLevel] 0 0), .collect, .post 0, .start, .collect, .post 0, .take, .write 0]

/-- Two clients shelve and unshelve the alarm; the thread of the second posts its copy first. -/
def overtakenEvents : List MirrorEvent := startEvents ++ [
  .op (.shelve "TANK_LEVEL" 500 "" "" 1 1), .op (.unshelve "TANK_LEVEL" "" "" 2 2),
  .post 1, .post 0, .take, .write 0]

/-- The same in order, with a write between the two. -/
def orderedEvents : List MirrorEvent := startEvents ++ [
  .op (.shelve "TANK_LEVEL" 500 "" "" 1 1), .post 0, .take, .write 0,
  .op (.unshelve "TANK_LEVEL" "" "" 2 2), .post 0, .take, .write 0]

theorem mirror_overtaken :
    ¬ ∀ events : List MirrorEvent,
      let s := run MirrorState.step {} events
      s.enabled = true → s.Quiet → s.Mirrored := by
  intro h
  have hshown : ((run MirrorState.step {} overtakenEvents).nodes "TANK_LEVEL").map
      AlarmNode.shown = some ⟨false, false, 500, ""⟩ := by decide +kernel
  have hengine : ((run MirrorState.step {} overtakenEvents).engine.states "TANK_LEVEL").map
      AlarmState.shown = some ⟨false, false, 0, ""⟩ := by decide +kernel
  obtain ⟨a, ha, hshows⟩ := Option.map_eq_some_iff.1 hengine
  have hmirrored := h overtakenEvents (by decide +kernel) ⟨rfl, rfl, rfl, rfl⟩ "TANK_LEVEL" a ha
  rw [hshown, hshows] at hmirrored
  exact absurd hmirrored (by decide)

theorem mirror_ordered :
    (run MirrorState.step {} orderedEvents).Mirrored ∧
      ((run MirrorState.step {} orderedEvents).engine.states "TANK_LEVEL").isSome = true := by
  refine ⟨mirror_run orderedEvents ?_ (by decide +kernel) ⟨rfl, rfl, rfl, rfl⟩, by decide +kernel⟩
  have hpost : ∀ s : MirrorState, s.pending.length ≤ 9999 → s.Admits (.post 0) :=
    fun s h => admits_post_zero h
  exact ⟨trivial, trivial, hpost _ (by decide +kernel), trivial, trivial, hpost _ (by decide +kernel),
    trivial, trivial, trivial, hpost _ (by decide +kernel), trivial, trivial, trivial,
    hpost _ (by decide +kernel), trivial, trivial, trivial⟩

end

end OpcBridge.Alarms
