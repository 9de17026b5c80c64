import OpcBridge.Load.ConfigState

/-!
# Reloading every connection on its own

After a full reload, the connections that own a file before or after a save are reloaded one by one
from one snapshot. Every file goes its own way through the reloads (`contentAfter`). A file that
changed hands has to be given up by its old owner before the new one takes it: the insertion does
not replace an entry that is still there (`targeted_converge_iff`).
-/

namespace OpcBridge

open Lib
open Alarms (Json)

section
variable [Floats]

/-- `applied(s, c)` for each connection `c` of the list. -/
def targetedReloads (state : RuntimeConfigState) (s : ConfigSnapshot) (connections : List String) :
    RuntimeConfigState :=
  connections.foldl (fun state c => state.apply s c) state

/-- The connection owns a file of the snapshot. -/
def Owns (s : ConfigSnapshot) (connection : String) : Prop :=
  ∃ file v, s.files.find file = some v ∧ owner file v = some connection

/-- `o` comes before `o'`. -/
def Before (connections : List String) (o o' : String) : Prop :=
  ∃ pre post, connections = pre ++ o :: post ∧ o' ∈ post

/-- Every file acknowledged before names an owner, and where the snapshot gives it to another
connection, the old owner is reloaded first. -/
def HandedOver (connections : List String) (prev s : ConfigSnapshot) : Prop :=
  ∀ file w, prev.files.find file = some w → ∃ o, owner file w = some o ∧
    ∀ v, s.files.find file = some v → owner file v = some o ∨
      ∃ o', owner file v = some o' ∧ Before connections o o'

/-! ## One file -/

def contentAfter (file : String) (new old : Option Json) (connections : List String) :
    Option Json :=
  connections.foldl (fun old c => appliedContent c file old new) old

theorem belongs_iff {c file : String} {v : Json} :
    belongs c file v = true ↔ owner file v = some c := by
  simp [belongs]

section
variable {file c : String} {new : Option Json} {v w : Json}

/-- A file of another connection stays. -/
theorem appliedContent_other (h : owner file w ≠ some c) :
    appliedContent c file (some w) new = some w := by
  have hb : belongs c file w = false := by
    rw [← Bool.not_eq_true, belongs_iff]
    exact h
  simp [appliedContent, Option.filter, hb]

/-- A file of this connection gives way to what the snapshot has of it. -/
theorem appliedContent_own (h : owner file w = some c) :
    appliedContent c file (some w) new = new.filter (belongs c file) := by
  have hb : belongs c file w = true := belongs_iff.2 h
  simp [appliedContent, Option.filter, hb]

theorem appliedContent_none : appliedContent c file none new = new.filter (belongs c file) := by
  simp [appliedContent]

theorem filter_belongs_own (h : owner file v = some c) :
    (some v).filter (belongs c file) = some v := by
  simp [Option.filter, belongs_iff.2 h]

theorem filter_belongs_other (h : ∀ v, new = some v → owner file v ≠ some c) :
    new.filter (belongs c file) = none := by
  cases new with
  | none => rfl
  | some v =>
    have hb : belongs c file v = false := by
      rw [← Bool.not_eq_true, belongs_iff]
      exact h v rfl
    simp [Option.filter, hb]

theorem appliedContent_self (x : Option Json) : appliedContent c file x x = x := by
  cases x with
  | none => rfl
  | some v => cases hb : belongs c file v <;> simp [appliedContent, Option.filter, hb]

variable {cs pre post : List String}

theorem contentAfter_append (old : Option Json) :
    contentAfter file new old (pre ++ post) =
      contentAfter file new (contentAfter file new old pre) post := List.foldl_append

/-- While its owner is not reloaded, a file stays. -/
theorem contentAfter_kept (h : ∀ c ∈ cs, owner file w ≠ some c) :
    contentAfter file new (some w) cs = some w := by
  induction cs with
  | nil => rfl
  | cons c cs ih =>
    unfold contentAfter
    rw [List.foldl_cons, appliedContent_other (h c (by simp))]
    exact ih fun c hc => h c (List.mem_cons_of_mem _ hc)

/-- While the owner of the new content is not reloaded, a file that is gone stays so. -/
theorem contentAfter_none (h : ∀ c ∈ cs, ∀ v, new = some v → owner file v ≠ some c) :
    contentAfter file new none cs = none := by
  induction cs with
  | nil => rfl
  | cons c cs ih =>
    unfold contentAfter
    rw [List.foldl_cons, appliedContent_none, filter_belongs_other (h c (by simp))]
    exact ih fun c hc => h c (List.mem_cons_of_mem _ hc)

theorem contentAfter_new (x : Option Json) : contentAfter file x x cs = x := by
  induction cs with
  | nil => rfl
  | cons c cs ih =>
    unfold contentAfter
    rw [List.foldl_cons, appliedContent_self]
    exact ih

/-- A file that is gone comes back with its new owner. -/
theorem contentAfter_insert (hv : owner file v = some c) :
    contentAfter file (some v) none (c :: cs) = some v := by
  unfold contentAfter
  rw [List.foldl_cons, appliedContent_none, filter_belongs_own hv]
  exact contentAfter_new (some v)

theorem find_targetedReloads {state : RuntimeConfigState} {s : ConfigSnapshot}
    (hs : s.error = "") (hcs : "" ∉ cs) (file : String) :
    (targetedReloads state s cs).applied.find file =
      contentAfter file (s.files.find file) (state.applied.find file) cs := by
  induction cs generalizing state with
  | nil => rfl
  | cons c cs ih =>
    rw [List.mem_cons, not_or] at hcs
    unfold targetedReloads contentAfter
    rw [List.foldl_cons, List.foldl_cons, ← find_applied hs (Ne.symm hcs.1)]
    exact ih hcs.2

end

omit [Floats] in
/-- Two connections of a list, in one order or the other. -/
theorem before_or_before {cs : List String} {o o' : String} (ho : o ∈ cs) (ho' : o' ∈ cs)
    (hne : o ≠ o') : Before cs o o' ∨ Before cs o' o := by
  obtain ⟨pre, post, rfl⟩ := List.append_of_mem ho
  rw [List.mem_append, List.mem_cons] at ho'
  rcases ho' with ho' | rfl | ho'
  · obtain ⟨pre', mid, rfl⟩ := List.append_of_mem ho'
    exact .inr ⟨pre', mid ++ o :: post, by simp, by simp⟩
  · exact absurd rfl hne
  · exact .inl ⟨pre, post, rfl, ho'⟩

omit [Floats] in
theorem Before.asymm {cs : List String} {o o' : String} (hn : cs.Nodup) (h : Before cs o o') :
    ¬ Before cs o' o := by
  obtain ⟨pre, post, rfl, hm⟩ := h
  rintro ⟨pre', post', heq, hm'⟩
  rw [List.nodup_append, List.nodup_cons] at hn
  rcases List.append_eq_append_iff.1 heq with ⟨mid, rfl, h2⟩ | ⟨mid, rfl, h2⟩
  · cases mid with
    | nil =>
      simp only [List.nil_append, List.cons.injEq] at h2
      obtain ⟨rfl, rfl⟩ := h2
      exact hn.2.1.1 hm
    | cons x mid =>
      simp only [List.cons_append, List.cons.injEq] at h2
      obtain ⟨rfl, rfl⟩ := h2
      exact hn.2.1.1 (by simp [hm'])
  · cases mid with
    | nil =>
      simp only [List.nil_append, List.cons.injEq] at h2
      obtain ⟨rfl, rfl⟩ := h2
      exact hn.2.1.1 hm
    | cons x mid =>
      simp only [List.cons_append, List.cons.injEq] at h2
      obtain ⟨rfl, rfl⟩ := h2
      exact hn.2.2 o' (by simp) o' (by simp [hm]) rfl

/-- A file of the old owner that the snapshot does not have, or has with another owner that is
reloaded earlier, is gone in the end. -/
theorem contentAfter_erased {file o : String} {new : Option Json} {w : Json}
    {pre post : List String} (hn : (pre ++ o :: post).Nodup) (hw : owner file w = some o)
    (hnew : ∀ v, new = some v → owner file v ≠ some o ∧ ∀ c ∈ post, owner file v ≠ some c) :
    contentAfter file new (some w) (pre ++ o :: post) = none := by
  have hpre : ∀ c ∈ pre, owner file w ≠ some c := by
    rintro c hc heq
    rw [hw, Option.some.injEq] at heq
    subst heq
    exact (List.nodup_append.1 hn).2.2 _ hc _ (by simp) rfl
  rw [contentAfter_append, contentAfter_kept hpre]
  show contentAfter file new (appliedContent o file (some w) new) post = none
  rw [appliedContent_own hw, filter_belongs_other fun v hv => (hnew v hv).1]
  exact contentAfter_none fun c hc v hv => (hnew v hv).2 c hc

/-- A file of one owner, and a file that is handed over in the right order, get the new content. -/
theorem contentAfter_handed {file : String} {v w : Json} {o o' : String} {cs : List String}
    (hn : cs.Nodup) (hw : owner file w = some o) (hv : owner file v = some o') (ho : o ∈ cs)
    (h : o' = o ∨ Before cs o o') : contentAfter file (some v) (some w) cs = some v := by
  have hkept : ∀ {pre post : List String}, (pre ++ o :: post).Nodup →
      contentAfter file (some v) (some w) pre = some w := by
    intro pre post hn
    refine contentAfter_kept fun c hc heq => ?_
    rw [hw, Option.some.injEq] at heq
    subst heq
    exact (List.nodup_append.1 hn).2.2 _ hc _ (by simp) rfl
  rcases h with rfl | ⟨pre, post, rfl, hm⟩
  · obtain ⟨pre, post, rfl⟩ := List.append_of_mem ho
    rw [contentAfter_append, hkept hn]
    show contentAfter file (some v) (appliedContent o' file (some w) (some v)) post = some v
    rw [appliedContent_own hw, filter_belongs_own hv]
    exact contentAfter_new (some v)
  · rw [contentAfter_append, hkept hn]
    show contentAfter file (some v) (appliedContent o file (some w) (some v)) post = some v
    have hne : o' ≠ o := by
      rintro rfl
      exact (List.nodup_cons.1 (List.nodup_append.1 hn).2.1).1 hm
    rw [appliedContent_own hw, filter_belongs_other]
    · obtain ⟨mid, rest, rfl⟩ := List.append_of_mem hm
      have hmid : ∀ c ∈ mid, ∀ u, some v = some u → owner file u ≠ some c := by
        rintro c hc u hu heq
        rw [Option.some.injEq] at hu
        subst hu
        rw [hv, Option.some.injEq] at heq
        subst heq
        have hpost := (List.nodup_cons.1 (List.nodup_append.1 hn).2.1).2
        exact (List.nodup_append.1 hpost).2.2 _ hc _ (by simp) rfl
      rw [contentAfter_append, contentAfter_none hmid]
      exact contentAfter_insert hv
    · rintro u hu heq
      rw [Option.some.injEq] at hu
      subst hu
      rw [hv, Option.some.injEq] at heq
      exact hne heq

/-! ## All files -/

/-- Every value of the snapshot equals itself: JSON text has no number that does not. -/
def SelfEqual (s : ConfigSnapshot) : Prop :=
  ∀ file v, s.files.find file = some v → jsonEq v v = true

/-- The connections that own a file of either snapshot, each once. -/
structure OwnersOf (prev s : ConfigSnapshot) (connections : List String) : Prop where
  nodup : connections.Nodup
  mem : ∀ c, c ∈ connections ↔ Owns prev c ∨ Owns s c

variable {prev s : ConfigSnapshot} {cs : List String}

/-- A reload of everything among the reloads is as good as a full one. -/
theorem targetedReloads_full {state : RuntimeConfigState} (hs : s.error = "") (hc : "" ∈ cs) :
    (targetedReloads state s cs).applied = s.files ∧
      (targetedReloads state s cs).initialized = true := by
  have hkeep : ∀ (cs : List String) (state : RuntimeConfigState), state.applied = s.files →
      state.initialized = true → (targetedReloads state s cs).applied = s.files ∧
        (targetedReloads state s cs).initialized = true := by
    intro cs
    induction cs with
    | nil => exact fun state ha hi => ⟨ha, hi⟩
    | cons c cs ih =>
      intro state ha hi
      refine ih (state.apply s c) ?_ (apply_initialized hi)
      by_cases hempty : c = ""
      · subst hempty
        rw [apply_full hs]
      · apply SortedMap.ext_find
        intro file
        rw [find_applied hs hempty, ha, appliedContent_self]
  obtain ⟨pre, post, rfl⟩ := List.append_of_mem hc
  unfold targetedReloads
  rw [List.foldl_append, List.foldl_cons, apply_full hs]
  exact hkeep post _ rfl rfl

theorem targetedReloads_initialized {state : RuntimeConfigState} (h : state.initialized = true) :
    (targetedReloads state s cs).initialized = true := by
  induction cs generalizing state with
  | nil => exact h
  | cons c cs ih => exact ih (apply_initialized h)

/-- Where every file is handed over in the right order, every file gets its new content. -/
theorem targetedReloads_handed {state : RuntimeConfigState} (hp : state.applied = prev.files)
    (hs : s.error = "") (howned : ∀ file v, s.files.find file = some v → ∃ c, owner file v = some c)
    (ho : OwnersOf prev s cs) (hcs : "" ∉ cs) (hh : HandedOver cs prev s) :
    (targetedReloads state s cs).applied = s.files := by
  apply SortedMap.ext_find
  intro file
  rw [find_targetedReloads hs hcs, hp]
  cases hw : prev.files.find file with
  | none =>
    cases hv : s.files.find file with
    | none => exact contentAfter_new none
    | some v =>
      obtain ⟨c, hc⟩ := howned file v hv
      have hmem : c ∈ cs := (ho.mem c).2 (.inr ⟨file, v, hv, hc⟩)
      obtain ⟨pre, post, rfl⟩ := List.append_of_mem hmem
      rw [contentAfter_append, contentAfter_none]
      · exact contentAfter_insert hc
      · rintro d hd u hu heq
        rw [Option.some.injEq] at hu
        subst hu
        rw [hc, Option.some.injEq] at heq
        subst heq
        exact (List.nodup_append.1 ho.nodup).2.2 _ hd _ (by simp) rfl
  | some w =>
    obtain ⟨o, how, hnew⟩ := hh file w hw
    have hmem : o ∈ cs := (ho.mem o).2 (.inl ⟨file, w, hw, how⟩)
    cases hv : s.files.find file with
    | none =>
      obtain ⟨pre, post, rfl⟩ := List.append_of_mem hmem
      exact contentAfter_erased ho.nodup how (by simp)
    | some v =>
      obtain hov | ⟨o', hov, hb⟩ := hnew v hv
      · exact contentAfter_handed ho.nodup how hov hmem (.inl rfl)
      · exact contentAfter_handed ho.nodup how hov hmem (.inr hb)

/-- A file that is not handed over in the right order ends up with another content. -/
theorem handedOver_of_eq {state : RuntimeConfigState} (hp : state.applied = prev.files)
    (hs : s.error = "") (howned : ∀ file v, s.files.find file = some v → ∃ c, owner file v = some c)
    (ho : OwnersOf prev s cs) (hcs : "" ∉ cs)
    (heq : s.files.eqBy jsonEq (targetedReloads state s cs).applied = true) :
    HandedOver cs prev s := by
  intro file w hw
  obtain ⟨hsome, hnone⟩ := SortedMap.find_of_eqBy heq file
  rw [find_targetedReloads hs hcs, hp, hw] at hsome hnone
  cases how : owner file w with
  | none =>
    -- nobody gives the file up
    rw [contentAfter_kept (by simp [how])] at hsome hnone
    cases hv : s.files.find file with
    | none => cases hnone hv
    | some v =>
      obtain ⟨c, hc⟩ := howned file v hv
      obtain ⟨u, hu, hvu⟩ := hsome v hv
      rw [Option.some.injEq] at hu
      subst hu
      rw [owner_congr hvu, how] at hc
      cases hc
  | some o =>
    refine ⟨o, rfl, fun v hv => ?_⟩
    obtain ⟨o', ho'⟩ := howned file v hv
    by_cases hne : o = o'
    · exact .inl (ho'.trans (congrArg some hne.symm))
    · refine .inr ⟨o', ho', ?_⟩
      have hmem : o ∈ cs := (ho.mem o).2 (.inl ⟨file, w, hw, how⟩)
      have hmem' : o' ∈ cs := (ho.mem o').2 (.inr ⟨file, v, hv, ho'⟩)
      refine (before_or_before hmem hmem' hne).resolve_right fun hb => ?_
      -- the new owner came first, and the file is gone
      obtain ⟨u, hu, -⟩ := hsome v hv
      obtain ⟨pre, post, rfl⟩ := List.append_of_mem hmem
      rw [hv, contentAfter_erased ho.nodup how] at hu
      · cases hu
      · rintro x hx
        rw [Option.some.injEq] at hx
        subst hx
        refine ⟨?_, fun c hc heq' => ?_⟩
        · rw [ho']
          exact fun h => hne (Option.some.inj h).symm
        · rw [ho', Option.some.injEq] at heq'
          subst heq'
          exact hb.asymm ho.nodup ⟨pre, post, rfl, hc⟩

/-- **When targeted reloads converge**: exactly if one of them is a full reload, or every file
acknowledged before has an owner, which is reloaded before the file's new owner. -/
theorem targeted_converge_iff (state : RuntimeConfigState) (prev s : ConfigSnapshot)
    (hprev : prev.error = "") (hs : s.error = "") (hself : SelfEqual s)
    (howned : ∀ file v, s.files.find file = some v → ∃ c, owner file v = some c)
    (cs : List String) (ho : OwnersOf prev s cs) :
    ((targetedReloads (state.apply prev "") s cs).pending s = false ↔
      "" ∈ cs ∨ HandedOver cs prev s) ∧
    ("" ∈ cs ∨ HandedOver cs prev s →
      targetedReloads (state.apply prev "") s cs = (state.apply prev "").apply s "") := by
  rw [apply_full hprev, apply_full hs]
  have hinit : (targetedReloads { applied := prev.files, initialized := true } s cs).initialized =
      true := targetedReloads_initialized rfl
  have hfull : "" ∈ cs ∨ HandedOver cs prev s →
      (targetedReloads { applied := prev.files, initialized := true } s cs).applied = s.files := by
    intro h
    by_cases hc : "" ∈ cs
    · exact (targetedReloads_full hs hc).1
    · exact targetedReloads_handed rfl hs howned ho hc (h.resolve_left hc)
  refine ⟨⟨fun h => ?_, fun h => ?_⟩, fun h => ?_⟩
  · by_cases hc : "" ∈ cs
    · exact .inl hc
    · exact .inr (handedOver_of_eq rfl hs howned ho hc (pending_eq_false.1 h).2.2)
  · rw [pending_eq_false, hfull h]
    exact ⟨hinit, hs, SortedMap.eqBy_self hself⟩
  · have ha := hfull h
    generalize targetedReloads { applied := prev.files, initialized := true } s cs = result at *
    cases result
    cases ha
    cases hinit
    rfl

end

/-! ## A file that changes hands -/

section
attribute [local instance] intFloats

/-- A snapshot of a tag file that belongs to a connection. -/
def tagFileOf (connection : String) : ConfigSnapshot where
  files := SortedMap.ofList [("tags/X.json", .object [("connection_id", .string connection)])]

theorem find_tagFileOf {connection file : String} {v : Json} :
    (tagFileOf connection).files.find file = some v ↔
      file = "tags/X.json" ∧ v = .object [("connection_id", .string connection)] := by
  unfold tagFileOf
  dsimp only
  rw [SortedMap.find_ofList, lastValue_cons, lastValue_nil, Option.none_or]
  split
  · rename_i h
    rw [← h]
    simp [eq_comm]
  · rename_i h
    simp only [reduceCtorEq, false_iff, not_and]
    exact fun hf => absurd hf.symm h

theorem owner_tagFileOf {connection : String} :
    owner "tags/X.json" (.object [("connection_id", .string connection)]) = some connection := by
  rw [owner_eq_some, if_neg (by decide)]
  simp [Json.find]

theorem owns_tagFileOf {connection c : String} : Owns (tagFileOf connection) c ↔ c = connection := by
  constructor
  · rintro ⟨file, v, hv, hc⟩
    obtain ⟨rfl, rfl⟩ := find_tagFileOf.1 hv
    rw [owner_tagFileOf, Option.some.injEq] at hc
    exact hc.symm
  · rintro rfl
    exact ⟨_, _, find_tagFileOf.2 ⟨rfl, rfl⟩, owner_tagFileOf⟩

theorem tagFileOf_selfEqual (connection : String) : SelfEqual (tagFileOf connection) := by
  intro file v hv
  obtain ⟨rfl, rfl⟩ := find_tagFileOf.1 hv
  simp [jsonEq, jsonEqFields]

theorem tagFileOf_owned (connection file : String) (v : Json)
    (hv : (tagFileOf connection).files.find file = some v) : ∃ c, owner file v = some c := by
  obtain ⟨rfl, rfl⟩ := find_tagFileOf.1 hv
  exact ⟨connection, owner_tagFileOf⟩

theorem tagFile_owners {cs : List String} (hn : cs.Nodup) (h : ∀ c, c ∈ cs ↔ c = "A" ∨ c = "B") :
    OwnersOf (tagFileOf "A") (tagFileOf "B") cs :=
  ⟨hn, fun c => by rw [owns_tagFileOf, owns_tagFileOf, h]⟩

/-- The old owner, then the new one. -/
theorem old_owner_first :
    (targetedReloads (({} : RuntimeConfigState).apply (tagFileOf "A") "") (tagFileOf "B")
      ["A", "B"]).pending (tagFileOf "B") = false := by
  refine (targeted_converge_iff {} (tagFileOf "A") (tagFileOf "B") rfl rfl (tagFileOf_selfEqual _)
    (tagFileOf_owned _) ["A", "B"] (tagFile_owners (by decide) (by simp))).1.2 (.inr ?_)
  intro file w hw
  obtain ⟨rfl, rfl⟩ := find_tagFileOf.1 hw
  refine ⟨"A", owner_tagFileOf, fun v hv => .inr ⟨"B", ?_, [], ["B"], rfl, by simp⟩⟩
  obtain ⟨-, rfl⟩ := find_tagFileOf.1 hv
  exact owner_tagFileOf

/-- The new owner first: its file is not taken over, and then given up. -/
theorem new_owner_first_pending :
    OwnersOf (tagFileOf "A") (tagFileOf "B") ["B", "A"] ∧
    (∀ file v, (tagFileOf "B").files.find file = some v → ∃ c, owner file v = some c) ∧
    (targetedReloads (({} : RuntimeConfigState).apply (tagFileOf "A") "") (tagFileOf "B")
      ["B", "A"]).pending (tagFileOf "B") = true :=
  ⟨tagFile_owners (by decide) (by simp [or_comm]), tagFileOf_owned _, by decide +kernel⟩

end

end OpcBridge
