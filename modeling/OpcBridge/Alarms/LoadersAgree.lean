import OpcBridge.Alarms.Loaders
import Mathlib.Data.List.Forall2
import Mathlib.Data.List.Nodup

/-!
# The two loaders on one document

`load_rules_from_file` and `fetch_rules_from_opcbridge` translate a document with the same text, but
for the name of an entry of `alarms`: only the file loader falls back to the description. Both append
an id to the tag index for each entry, where the tables keep the last entry of an id.
`rule_loaders_agree_iff` says for which documents the two agree and the index is exact.
-/

namespace OpcBridge.Alarms

open OpcBridge Json

section
variable [Floats]

/-! ## The tag index -/

def AlarmRule.tagKey (r : AlarmRule) : String := makeTagKey r.connectionId r.tag

/-- The rule is not left out. -/
def AlarmRule.complete (r : AlarmRule) : Bool :=
  decide (¬(r.id = "" ∨ r.connectionId = "" ∨ r.tag = ""))

/-- An id is listed once under the key that its rule watches, and nowhere else. -/
def AlarmEngine.Indexed (e : AlarmEngine) : Prop :=
  ∀ id key, (e.rulesByTagKey key).count id =
    if (e.rules id).any fun r => r.tagKey == key then 1 else 0

theorem foldl_loadRule_index (rules : List AlarmRule) (e : AlarmEngine) (key : String) :
    (rules.foldl AlarmEngine.loadRule e).rulesByTagKey key =
      e.rulesByTagKey key ++
        ((rules.filter AlarmRule.complete).filter fun r => r.tagKey == key).map (·.id) := by
  induction rules generalizing e with
  | nil => simp
  | cons r rules ih =>
    rw [List.foldl_cons, ih]
    unfold AlarmEngine.loadRule
    split
    · rename_i hr
      have hc : r.complete = false := decide_eq_false (not_not.2 hr)
      rw [List.filter_cons_of_neg (by simp [hc])]
    · rename_i hr
      have hc : r.complete = true := decide_eq_true hr
      rw [List.filter_cons_of_pos hc]
      by_cases hk : key = r.tagKey
      · subst hk
        rw [List.filter_cons_of_pos (by simp)]
        simp [AlarmRule.tagKey]
      · rw [List.filter_cons_of_neg (by simpa using Ne.symm hk)]
        show Function.update e.rulesByTagKey r.tagKey _ key ++ _ = _
        rw [Function.update_of_ne hk]

theorem foldl_loadRule_rules (rules : List AlarmRule) (e : AlarmEngine) (id : String) :
    (rules.foldl AlarmEngine.loadRule e).rules id =
      ((rules.filter AlarmRule.complete).reverse.find? fun r => r.id == id).or (e.rules id) := by
  induction rules generalizing e with
  | nil => rfl
  | cons r rules ih =>
    rw [List.foldl_cons, ih]
    unfold AlarmEngine.loadRule
    split
    · rename_i hr
      have hc : r.complete = false := decide_eq_false (not_not.2 hr)
      rw [List.filter_cons_of_neg (by simp [hc])]
    · rename_i hr
      have hc : r.complete = true := decide_eq_true hr
      rw [List.filter_cons_of_pos hc, List.reverse_cons, List.find?_append, Option.or_assoc]
      congr 1
      by_cases hid : id = r.id
      · subst hid
        simp
      · dsimp only
        rw [Function.update_of_ne hid, List.find?_cons_of_neg (by simpa using Ne.symm hid)]
        rfl

section
variable (rules : List AlarmRule) (globalDelayMs : Int)

/-- The number of times an id is listed under a key. -/
theorem count_loadTables (id key : String) :
    ((loadTables rules globalDelayMs).rulesByTagKey key).count id =
      (rules.filter AlarmRule.complete).countP fun r => r.id == id && r.tagKey == key := by
  unfold loadTables
  rw [foldl_loadRule_index, List.nil_append, List.count, List.countP_map, List.countP_filter]
  rfl

theorem loadTables_rules (id : String) :
    (loadTables rules globalDelayMs).rules id =
      (rules.filter AlarmRule.complete).reverse.find? fun r => r.id == id := by
  unfold loadTables
  rw [foldl_loadRule_rules, Option.or_none]

omit rules globalDelayMs in
/-- Where no id is loaded twice, each rule is found under its id. -/
theorem find_reverse {loaded : List AlarmRule} (hnd : (loaded.map (·.id)).Nodup) {r : AlarmRule}
    (hm : r ∈ loaded) : (loaded.reverse.find? fun x => x.id == r.id) = some r := by
  obtain ⟨r', hr'⟩ : ∃ r', (loaded.reverse.find? fun x => x.id == r.id) = some r' := by
    rw [← Option.isSome_iff_exists, List.find?_isSome]
    exact ⟨r, List.mem_reverse.2 hm, by simp⟩
  rw [hr', List.inj_on_of_nodup_map hnd (List.mem_reverse.1 (List.mem_of_find?_eq_some hr')) hm
    (by simpa using List.find?_some hr')]

omit rules globalDelayMs in
/-- The table says which rule each id has. -/
theorem eq_of_find {l l' : List AlarmRule} (hids : l'.map (·.id) = l.map (·.id))
    (hnd : (l.map (·.id)).Nodup)
    (h : ∀ id, (l.reverse.find? fun r => r.id == id) = l'.reverse.find? fun r => r.id == id) :
    l = l' := by
  have hlen : l.length = l'.length := by
    have := congrArg List.length hids
    simpa using this.symm
  refine List.ext_getElem hlen fun i hi hi' => ?_
  have hid : l'[i].id = l[i].id := by
    have := congrArg (·[i]?) hids
    simpa [hi, hi'] using this
  have h1 := find_reverse hnd (List.getElem_mem hi)
  have h2 := find_reverse (hids ▸ hnd) (List.getElem_mem hi')
  rw [hid, ← h, h1, Option.some.injEq] at h2
  exact h2

/-- The index is exact if and only if no id is loaded twice. -/
theorem indexed_iff : (loadTables rules globalDelayMs).Indexed ↔
    ((rules.filter AlarmRule.complete).map (·.id)).Nodup := by
  unfold AlarmEngine.Indexed
  simp only [count_loadTables, loadTables_rules]
  generalize rules.filter AlarmRule.complete = loaded
  constructor
  · intro h
    rw [List.nodup_iff_count_le_one]
    intro id
    rw [List.count, List.countP_map]
    cases hr : loaded.reverse.find? fun r => r.id == id with
    | none =>
      have hnone : loaded.countP ((fun x => x == id) ∘ (·.id)) = 0 := by
        rw [List.countP_eq_zero]
        intro r hm
        exact List.find?_eq_none.1 hr r (List.mem_reverse.2 hm)
      omega
    | some r =>
      -- every entry of the id has the key of the one that is kept
      have hkey : ∀ r' ∈ loaded, r'.id = id → r'.tagKey = r.tagKey := by
        intro r' hm hid
        by_contra hne
        have hzero := h id r'.tagKey
        rw [hr, Option.any_some, if_neg (by simpa using Ne.symm hne), List.countP_eq_zero] at hzero
        exact hzero r' hm (by simp [hid])
      have hone := h id r.tagKey
      rw [hr, Option.any_some, if_pos (by simp)] at hone
      refine le_of_eq (Eq.trans (List.countP_congr fun r' hm => ?_) hone)
      constructor
      · intro hid
        have hid : r'.id = id := by simpa using hid
        simp [hid, hkey r' hm hid]
      · intro hid
        exact (Bool.and_eq_true_iff.1 hid).1
  · intro hnd id key
    cases hr : loaded.reverse.find? fun r => r.id == id with
    | none =>
      rw [Option.any_none, if_neg (by simp), List.countP_eq_zero]
      intro r hm hid
      exact List.find?_eq_none.1 hr r (List.mem_reverse.2 hm) (Bool.and_eq_true_iff.1 hid).1
    | some r =>
      have hm : r ∈ loaded := List.mem_reverse.1 (List.mem_of_find?_eq_some hr)
      have hid : r.id = id := by simpa using List.find?_some hr
      have hcount : loaded.countP (fun r' => r'.id == id && r'.tagKey == key) =
          loaded.countP fun r' => r'.id == id && r.tagKey == key := by
        refine List.countP_congr fun r' hm' => ?_
        have hsame : r'.id = id → r' = r := fun hid' =>
          List.inj_on_of_nodup_map hnd hm' hm (hid'.trans hid.symm)
        by_cases hid' : r'.id = id
        · rw [hsame hid']
        · simp [hid']
      rw [hcount, Option.any_some]
      split
      · rename_i hk
        have hone : loaded.countP (fun r' => r'.id == id && r.tagKey == key) =
            (loaded.map (·.id)).count id := by
          rw [List.count, List.countP_map]
          refine List.countP_congr fun r' _ => ?_
          simp [hk]
        rw [hone]
        exact List.count_eq_one_of_mem hnd (hid ▸ List.mem_map_of_mem hm)
      · rename_i hk
        rw [List.countP_eq_zero]
        intro r' _ hr'
        exact hk (Bool.and_eq_true_iff.1 hr').2

end

/-! ## Fields of an object -/

section
variable [JsonLib]

omit [JsonLib] in
theorem value_of_isObject {α : Type} (get : Json → Except String α) {j : Json}
    (hj : j.isObject = true) (key : String) (dflt : α) :
    value get j key dflt = match j.find key with
      | some v => get v
      | none => .ok dflt := by
  cases j <;> first | rfl | cases hj

omit [JsonLib] in
/-- A string field that could be read. -/
theorem valueString_ok {j : Json} {key dflt s : String} (h : j.valueString key dflt = .ok s) :
    s = if j.contains key then jsonStringOrEmpty j key else dflt := by
  have hj : j.isObject = true := by
    cases j <;> first | rfl | cases h
  unfold valueString at h
  rw [value_of_isObject _ hj] at h
  unfold contains jsonStringOrEmpty
  cases hv : j.find key with
  | none =>
    rw [hv] at h
    exact (Except.ok.inj h).symm
  | some v =>
    rw [hv] at h
    cases v with
    | string s' => exact (Except.ok.inj h).symm
    | _ => cases h

omit [JsonLib] in
theorem jsonStringOrEmpty_of_missing {j : Json} {key : String} (h : j.contains key = false) :
    jsonStringOrEmpty j key = "" := by
  unfold contains at h
  unfold jsonStringOrEmpty
  cases hv : j.find key with
  | none => rfl
  | some v =>
    rw [hv] at h
    cases h

omit [JsonLib] in
theorem valueString_empty_ok {j : Json} {key s : String} (h : j.valueString key "" = .ok s) :
    s = jsonStringOrEmpty j key := by
  rw [valueString_ok h]
  split
  · rfl
  · rename_i hc
    exact (jsonStringOrEmpty_of_missing (by simpa using hc)).symm

/-- Objects that differ in the name only. -/
structure SameButName (j j' : Json) : Prop where
  left : j.isObject = true
  right : j'.isObject = true
  find : ∀ key, key ≠ "name" → j'.find key = j.find key

namespace SameButName

variable {j j' : Json} (h : SameButName j j')
include h

omit [JsonLib] in
theorem value_eq {α : Type} (get : Json → Except String α) (key : String) (hk : key ≠ "name")
    (dflt : α) : value get j' key dflt = value get j key dflt := by
  rw [value_of_isObject get h.left, value_of_isObject get h.right, h.find key hk]

omit [JsonLib] in
theorem text_eq (key : String) (hk : key ≠ "name") :
    jsonStringOrEmpty j' key = jsonStringOrEmpty j key := by
  unfold jsonStringOrEmpty
  rw [h.find key hk]

omit [JsonLib] in
theorem member_eq (key : String) (hk : key ≠ "name") (test : Json → Bool) :
    j'.member key test = j.member key test := by
  unfold member
  rw [h.find key hk]

omit [JsonLib] in
theorem memberItems_eq (key : String) (hk : key ≠ "name") :
    j'.memberItems key = j.memberItems key := by
  unfold memberItems
  rw [h.find key hk]

omit [JsonLib] in
theorem groupOf_eq (root : Json) : groupOf root j' = groupOf root j := by
  unfold groupOf
  rw [h.text_eq _ (by decide)]

omit [JsonLib] in
theorem siteOf_eq (group : Json) : siteOf group j' = siteOf group j := by
  unfold siteOf
  rw [h.text_eq _ (by decide)]

omit [JsonLib] in
theorem siteEnabled_eq (root : Json) :
    resolveAlarmSiteEnabled root j' = resolveAlarmSiteEnabled root j := by
  unfold resolveAlarmSiteEnabled
  rw [h.text_eq "group" (by decide), h.text_eq "site" (by decide),
    h.groupOf_eq root, funext h.siteOf_eq]

omit [JsonLib] in
/-- The scopes of the two are the same but for the last. -/
theorem scopes (root : Json) : ∃ outer, alarmScopes root j = outer ++ [j] ∧
    alarmScopes root j' = outer ++ [j'] := by
  unfold alarmScopes
  rw [h.groupOf_eq root]
  cases groupOf root j with
  | none => exact ⟨[], rfl, rfl⟩
  | some group =>
    refine ⟨group :: (siteOf group j).toList, rfl, ?_⟩
    dsimp only
    rw [h.siteOf_eq group]

theorem audio_eq (root : Json) (configDir : String) :
    resolveAlarmAudio root j' configDir = resolveAlarmAudio root j configDir := by
  have hscope : ∀ out, applyAudioScope out j' = applyAudioScope out j := by
    intro out
    unfold applyAudioScope clampedMember
    rw [h.member_eq "audio_gap_ms" (by decide), h.text_eq "audio_mode" (by decide),
      h.text_eq "audio_file" (by decide), h.memberItems_eq "audio_files" (by decide),
      h.text_eq "speech_text" (by decide),
      h.memberItems_eq "speech_texts" (by decide)]
  obtain ⟨outer, h1, h2⟩ := h.scopes root
  unfold resolveAlarmAudio
  rw [h1, h2]
  simp only [List.foldlM_append, List.foldlM_cons, List.foldlM_nil, hscope]

theorem repeat_eq (root : Json) : resolveAlarmRepeat root j' = resolveAlarmRepeat root j := by
  obtain ⟨outer, h1, h2⟩ := h.scopes root
  unfold resolveAlarmRepeat
  rw [h1, h2]
  simp only [List.foldlM_append, List.foldlM_cons, List.foldlM_nil,
    h.member_eq "repeat_ms" (by decide)]

end SameButName

end

/-! ## One entry -/

/-- What an entry watches. -/
structure WatchEntry where
  id : String
  connectionId : String
  tag : String
deriving DecidableEq

/-- The entry is not left out. -/
def WatchEntry.complete (w : WatchEntry) : Prop := ¬(w.id = "" ∨ w.connectionId = "" ∨ w.tag = "")

instance (w : WatchEntry) : Decidable w.complete := inferInstanceAs (Decidable (¬ _))

/-- An entry of `rules`. -/
def watchOfRule (it : Json) : WatchEntry :=
  let source := (it.member "source" isObject).getD .null
  { id := jsonStringOrEmpty it "id", connectionId := jsonStringOrEmpty source "connection_id"
    tag := jsonStringOrEmpty source "tag" }

/-- An entry of `alarms`. -/
def watchOfAlarm (a : Json) : WatchEntry where
  id := jsonStringOrEmpty a "id"
  connectionId := jsonStringOrEmpty a "connection_id"
  tag := jsonStringOrEmpty a (if a.contains "tag_name" then "tag_name" else "tag")

/-- The name of an entry of `rules`. -/
def nameOfRule (it : Json) : String :=
  jsonStringOrEmpty it (if it.contains "name" then "name" else "id")

/-- The loaders name the entry of `alarms` differently. -/
def Renamed (a : Json) : Prop :=
  a.contains "name" = false ∧ a.contains "description" = true ∧
    jsonStringOrEmpty a "description" ≠ jsonStringOrEmpty a "id"

namespace ParsedRule

def withName (r : ParsedRule) (name : String) : ParsedRule :=
  { r with rule := { r.rule with name := name } }

def watch (r : ParsedRule) : WatchEntry where
  id := r.rule.id
  connectionId := r.rule.connectionId
  tag := r.rule.tag

end ParsedRule

section
variable [JsonLib]

omit [Floats] [JsonLib] in
/-- Two computations with the same first step. -/
theorem ok_of_binds {ε α β : Type} {x x' : Except ε α} {f f' : α → Except ε β} {b b' : β}
    (hx : x' = x) (h : (x >>= f) = .ok b) (h' : (x' >>= f') = .ok b') :
    ∃ a, x = .ok a ∧ f a = .ok b ∧ f' a = .ok b' := by
  subst hx
  cases x' with
  | error e => cases h
  | ok a => exact ⟨a, rfl, h, h'⟩

/-- The connection and the tag of an entry. -/
def sourceOf (it : Json) : Except String (String × String) :=
  match it.member "source" isObject with
  | none => pure ("", "")
  | some source => do
    let connectionId ← source.valueString "connection_id" ""
    let tag ← source.valueString "tag" ""
    return (connectionId, tag)

/-- What the condition of an entry sets. -/
def conditionOf (it : Json) : Except String (AlarmRule → AlarmRule) :=
  match it.member "condition" isObject with
  | none => pure fun rule => rule
  | some condition => do
    let conditionType ← condition.valueString "type" "equals"
    if conditionType ∈ ["equals", "not_equals", "contains", "not_contains"] then
      return fun rule =>
        { rule with conditionType, conditionValue := (condition.find "value").getD .null }
    else if conditionType ∈ ["high", "low"] then
      let threshold ← condition.valueDouble "threshold" (Floats.ofInt 0)
      let hysteresis ← condition.valueDouble "hysteresis" (Floats.ofInt 0)
      return fun rule => { rule with conditionType, threshold, hysteresis }
    else return fun rule => { rule with conditionType }

/-- `readRule` as one sequence of reads. -/
theorem readRule_eq (root : Json) (configDir : String) {it : Json} (hit : it.isObject = true) :
    readRule root configDir it = do
      let id ← it.valueString "id" ""
      let name ← it.valueString "name" id
      let group ← it.valueString "group" ""
      let site ← it.valueString "site" ""
      let enabled ← it.valueBool "enabled" true
      let severity ← it.valueInt "severity" 500
      let delayMs ← it.valueLong "delay_ms" 0
      let source ← sourceOf it
      let condition ← conditionOf it
      let messageOnActive ← it.valueString "message_on_active" ""
      let messageOnReturn ← it.valueString "message_on_return" ""
      let notificationPolicy ← it.valueString "notification_policy" ""
      let audio ← resolveAlarmAudio root it configDir
      let rep ← resolveAlarmRepeat root it
      if id = "" ∨ source.1 = "" ∨ source.2 = "" then return none
      return some {
        rule := { condition {
          id, name, enabled, connectionId := source.1, tag := source.2
          siteEnabled := resolveAlarmSiteEnabled root it
          delayMs := max 0 delayMs } with messageOnActive, messageOnReturn }
        details := { info := { severity, group, site, notificationPolicy }, audio
                     repeatOverride := rep.1, repeatMs := rep.2 } } := by
  unfold readRule sourceOf conditionOf
  rw [hit]
  cases it.member "source" isObject with
  | none =>
    cases it.member "condition" isObject with
    | none => rfl
    | some condition =>
      simp only [pure_bind, bind_assoc]
      iterate 8 refine bind_congr fun _ => ?_
      split_ifs <;> simp only [pure_bind, bind_assoc]
  | some source =>
    cases it.member "condition" isObject with
    | none =>
      simp only [pure_bind, bind_assoc]
      rfl
    | some condition =>
      simp only [pure_bind, bind_assoc]
      iterate 10 refine bind_congr fun _ => ?_
      split_ifs <;> simp only [pure_bind, bind_assoc]

omit [JsonLib] in
theorem sourceOf_ok {it : Json} {source : String × String} (h : sourceOf it = .ok source) :
    source = ((watchOfRule it).connectionId, (watchOfRule it).tag) := by
  unfold sourceOf at h
  unfold watchOfRule
  cases hs : it.member "source" isObject with
  | none =>
    rw [hs] at h
    exact (Except.ok.inj h).symm
  | some source =>
    rw [hs] at h
    obtain ⟨connectionId, hc, h⟩ := ok_of_bind h
    obtain ⟨tag, ht, h⟩ := ok_of_bind h
    rw [← Except.ok.inj h, valueString_empty_ok hc, valueString_empty_ok ht]
    rfl

omit [JsonLib] in
theorem nameOfRule_ok {it : Json} {id name : String} (hid : it.valueString "id" "" = .ok id)
    (hname : it.valueString "name" id = .ok name) : name = nameOfRule it := by
  unfold nameOfRule
  rw [valueString_ok hname]
  split
  · rfl
  · exact valueString_empty_ok hid

omit [JsonLib] in
/-- The condition sets the fields of the condition. -/
theorem conditionOf_keeps {it : Json} {condition : AlarmRule → AlarmRule}
    (h : conditionOf it = .ok condition) (rule : AlarmRule) (name : String) :
    condition { rule with name := name } = { condition rule with name := name } ∧
      (condition rule).id = rule.id ∧ (condition rule).connectionId = rule.connectionId ∧
      (condition rule).tag = rule.tag := by
  unfold conditionOf at h
  cases hc : it.member "condition" isObject with
  | none =>
    rw [hc] at h
    rw [← Except.ok.inj h]
    exact ⟨rfl, rfl, rfl, rfl⟩
  | some c =>
    rw [hc] at h
    obtain ⟨conditionType, -, h⟩ := ok_of_bind h
    split_ifs at h
    · rw [← Except.ok.inj h]
      exact ⟨rfl, rfl, rfl, rfl⟩
    · obtain ⟨threshold, -, h⟩ := ok_of_bind h
      obtain ⟨hysteresis, -, h⟩ := ok_of_bind h
      rw [← Except.ok.inj h]
      exact ⟨rfl, rfl, rfl, rfl⟩
    · rw [← Except.ok.inj h]
      exact ⟨rfl, rfl, rfl, rfl⟩

/-- What `readRule` makes of two objects that differ in the name only. -/
theorem readRule_pair {root j j' : Json} {configDir : String} {o o' : Option ParsedRule}
    (hj : SameButName j j') (h : readRule root configDir j = .ok o)
    (h' : readRule root configDir j' = .ok o') :
    (¬(watchOfRule j).complete ∧ o = none ∧ o' = none) ∨
      (watchOfRule j).complete ∧ ∃ r : ParsedRule, r.watch = watchOfRule j ∧
        o = some (r.withName (nameOfRule j)) ∧ o' = some (r.withName (nameOfRule j')) := by
  have hsourceEq : sourceOf j' = sourceOf j := by
    unfold sourceOf
    rw [hj.member_eq _ (by decide)]
  have hconditionEq : conditionOf j' = conditionOf j := by
    unfold conditionOf
    rw [hj.member_eq _ (by decide)]
  rw [readRule_eq root configDir hj.left] at h
  rw [readRule_eq root configDir hj.right] at h'
  obtain ⟨id, hid, h, h'⟩ := ok_of_binds (hj.value_eq getString "id" (by decide) "") h h'
  obtain ⟨name, hname, h⟩ := ok_of_bind h
  obtain ⟨name', hname', h'⟩ := ok_of_bind h'
  obtain ⟨group, -, h, h'⟩ := ok_of_binds (hj.value_eq getString "group" (by decide) "") h h'
  obtain ⟨site, -, h, h'⟩ := ok_of_binds (hj.value_eq getString "site" (by decide) "") h h'
  obtain ⟨enabled, -, h, h'⟩ :=
    ok_of_binds (hj.value_eq getBool "enabled" (by decide) true) h h'
  obtain ⟨severity, -, h, h'⟩ :=
    ok_of_binds (hj.value_eq getInt "severity" (by decide) 500) h h'
  obtain ⟨delayMs, -, h, h'⟩ :=
    ok_of_binds (hj.value_eq getLong "delay_ms" (by decide) 0) h h'
  obtain ⟨source, hsource, h, h'⟩ := ok_of_binds hsourceEq h h'
  obtain ⟨condition, hcondition, h, h'⟩ := ok_of_binds hconditionEq h h'
  obtain ⟨messageOnActive, -, h, h'⟩ :=
    ok_of_binds (hj.value_eq getString "message_on_active" (by decide) "") h h'
  obtain ⟨messageOnReturn, -, h, h'⟩ :=
    ok_of_binds (hj.value_eq getString "message_on_return" (by decide) "") h h'
  obtain ⟨notificationPolicy, -, h, h'⟩ :=
    ok_of_binds (hj.value_eq getString "notification_policy" (by decide) "") h h'
  obtain ⟨audio, -, h, h'⟩ := ok_of_binds (hj.audio_eq root configDir) h h'
  obtain ⟨rep, -, h, h'⟩ := ok_of_binds (hj.repeat_eq root) h h'
  have hwatch : (⟨id, source.1, source.2⟩ : WatchEntry) = watchOfRule j := by
    rw [valueString_empty_ok hid, sourceOf_ok hsource]
    rfl
  have hid' : j'.valueString "id" "" = .ok id :=
    (hj.value_eq getString _ (by decide) "").trans hid
  have hcomplete : (watchOfRule j).complete ↔ ¬(id = "" ∨ source.1 = "" ∨ source.2 = "") := by
    rw [← hwatch]
    rfl
  rw [nameOfRule_ok hid hname] at h
  rw [nameOfRule_ok hid' hname', hj.siteEnabled_eq root] at h'
  rw [hcomplete]
  split at h
  · rename_i hempty
    rw [if_pos hempty] at h'
    exact .inl ⟨not_not.2 hempty, (Except.ok.inj h).symm, (Except.ok.inj h').symm⟩
  · rename_i hfull
    rw [if_neg hfull] at h'
    -- the rule before it has a name
    let rule : AlarmRule := {
      id, enabled, connectionId := source.1, tag := source.2
      siteEnabled := resolveAlarmSiteEnabled root j
      delayMs := max 0 delayMs }
    have hrule : ∀ n, condition { rule with name := n } = { condition rule with name := n } :=
      fun n => (conditionOf_keeps hcondition rule n).1
    obtain ⟨-, h1, h2, h3⟩ := conditionOf_keeps hcondition rule ""
    refine .inr ⟨hfull, {
      rule := { condition rule with messageOnActive, messageOnReturn }
      details := { info := { severity, group, site, notificationPolicy }, audio
                   repeatOverride := rep.1, repeatMs := rep.2 } }, ?_,
      (Except.ok.inj h).symm.trans (congrArg some ?_),
      (Except.ok.inj h').symm.trans (congrArg some ?_)⟩
    · rw [← hwatch]
      show (⟨(condition rule).id, (condition rule).connectionId, (condition rule).tag⟩ :
        WatchEntry) = _
      rw [h1, h2, h3]
    · rw [hrule (nameOfRule j)]
      rfl
    · rw [hrule (nameOfRule j')]
      rfl

/-! ## An entry of `alarms` -/

omit [JsonLib] in
theorem lookup_copied (a : Json) {key : String} {keys : List String} (hk : key ∉ keys)
    (test : Json → Bool) : (keys.flatMap (copied a · test)).lookup key = none := by
  rw [List.lookup_eq_none_iff]
  rintro ⟨k, v⟩ hm
  obtain ⟨k', hk', hm⟩ := List.mem_flatMap.1 hm
  obtain ⟨v', -, he⟩ := List.mem_map.1 hm
  cases he
  exact bne_iff_ne.2 fun he => hk (he ▸ hk')

/-- The rule object of an entry, whatever names it. -/
theorem ruleOfAlarm_ok {a j : Json} {keys : List String} (h : ruleOfAlarm keys a = .ok j) :
    ∃ id name connectionId tag rest, a.valueString "id" "" = .ok id ∧ valueOrElse a keys = .ok name ∧
      a.valueString "connection_id" "" = .ok connectionId ∧
      valueOrElse a ["tag_name", "tag"] = .ok tag ∧
      j = .object (("id", .string id) :: ("name", .string name) :: rest) ∧
      (∀ keys' j', ruleOfAlarm keys' a = .ok j' → ∃ name', valueOrElse a keys' = .ok name' ∧
        j' = .object (("id", .string id) :: ("name", .string name') :: rest)) ∧
      rest.lookup "source" =
        some (.object [("connection_id", .string connectionId), ("tag", .string tag)]) := by
  unfold ruleOfAlarm at h
  obtain ⟨type, htype, h⟩ := ok_of_bind h
  obtain ⟨id, hid, h⟩ := ok_of_bind h
  obtain ⟨name, hname, h⟩ := ok_of_bind h
  obtain ⟨enabled, henabled, h⟩ := ok_of_bind h
  obtain ⟨severity, hseverity, h⟩ := ok_of_bind h
  obtain ⟨messageOnActive, hactive, h⟩ := ok_of_bind h
  obtain ⟨messageOnReturn, hreturn, h⟩ := ok_of_bind h
  obtain ⟨group, hgroup, h⟩ := ok_of_bind h
  obtain ⟨site, hsite, h⟩ := ok_of_bind h
  obtain ⟨connectionId, hconnection, h⟩ := ok_of_bind h
  obtain ⟨tag, htag, h⟩ := ok_of_bind h
  refine ⟨id, name, connectionId, tag, _, hid, hname, hconnection, htag, (Except.ok.inj h).symm,
    fun keys' j' h' => ?_, ?_⟩
  · unfold ruleOfAlarm at h'
    simp only [htype, hid, henabled, hseverity, hactive, hreturn, hgroup, hsite, hconnection, htag,
      bind, Except.bind] at h'
    cases hname' : valueOrElse a keys' with
    | error e =>
      rw [hname'] at h'
      cases h'
    | ok name' =>
      rw [hname'] at h'
      exact ⟨name', rfl, (Except.ok.inj h').symm⟩
  · have hcopied : "source" ∉ ["repeat_ms", "delay_ms", "audio_file", "speech_text", "audio_mode",
        "audio_gap_ms", "audio_files", "speech_texts"] := by decide
    have hnone := lookup_copied a hcopied fun _ => true
    simp only [List.append_eq, List.lookup_append, List.lookup_cons, hnone]
    rfl

omit [JsonLib] in
/-- What names an entry, and whether the loaders agree on it. -/
theorem valueOrElse_names {a : Json} {id name name' : String} (hid : a.valueString "id" "" = .ok id)
    (h : valueOrElse a ["name", "id"] = .ok name)
    (h' : valueOrElse a ["name", "description", "id"] = .ok name') : name = name' ↔ ¬Renamed a := by
  have hid' : valueOrElse a ["id"] = .ok id := hid
  obtain ⟨x, hx, h⟩ := ok_of_bind h
  obtain ⟨y, hy, h'⟩ := ok_of_bind h'
  obtain ⟨z, hz, hy⟩ := ok_of_bind hy
  cases hid'.symm.trans hx
  cases hid'.symm.trans hz
  rw [valueString_ok h, valueString_ok h', valueString_ok hy]
  unfold Renamed
  rw [← valueString_empty_ok hid]
  by_cases hn : a.contains "name" = true
  · simp [hn]
  · by_cases hd : a.contains "description" = true
    · simp only [hn, hd, if_true, true_and]
      simp [eq_comm]
    · simp [hn, hd]

omit [JsonLib] in
theorem valueOrElse_tag {a : Json} {tag : String} (h : valueOrElse a ["tag_name", "tag"] = .ok tag) :
    tag = (watchOfAlarm a).tag := by
  obtain ⟨x, hx, h⟩ := ok_of_bind h
  have hx' : a.valueString "tag" "" = .ok x := hx
  rw [valueString_ok h]
  unfold watchOfAlarm
  dsimp only
  split
  · rfl
  · exact valueString_empty_ok hx'

/-- The rule objects that the two loaders make of an entry. -/
theorem ruleOfAlarm_pair {a j j' : Json} (h : ruleOfAlarm ["name", "id"] a = .ok j)
    (h' : ruleOfAlarm ["name", "description", "id"] a = .ok j') :
    SameButName j j' ∧ watchOfRule j = watchOfAlarm a ∧
      (nameOfRule j = nameOfRule j' ↔ ¬Renamed a) := by
  obtain ⟨id, name, connectionId, tag, rest, hid, hname, hconnection, htag, rfl, hother, hsource⟩ :=
    ruleOfAlarm_ok h
  obtain ⟨name', hname', rfl⟩ := hother _ _ h'
  refine ⟨⟨rfl, rfl, fun key hk => ?_⟩, ?_, valueOrElse_names hid hname hname'⟩
  · have hk' : (key == "name") = false := beq_eq_false_iff_ne.2 hk
    simp only [find, List.lookup_cons, hk']
  · have hfind : (Json.object (("id", .string id) :: ("name", .string name) :: rest)).member "source"
        isObject = some (.object [("connection_id", .string connectionId), ("tag", .string tag)]) := by
      show (List.lookup "source" _).filter isObject = _
      rw [List.lookup_cons, List.lookup_cons, hsource]
      rfl
    unfold watchOfRule
    rw [hfind]
    show (⟨id, connectionId, tag⟩ : WatchEntry) = _
    rw [valueOrElse_tag htag, valueString_empty_ok hid, valueString_empty_ok hconnection]
    rfl

/-! ## All entries -/

/-- The rules that the two loaders make of the entries: an entry is left out by both, or both make a
rule of it, and the same one unless it is `renamed`. -/
inductive Translated (watch : Json → WatchEntry) (renamed : Json → Prop) :
    List Json → List ParsedRule → List ParsedRule → Prop
  | nil : Translated watch renamed [] [] []
  | skip {a : Json} {items : List Json} {rs rs' : List ParsedRule} :
      ¬(watch a).complete → Translated watch renamed items rs rs' →
      Translated watch renamed (a :: items) rs rs'
  | rule {a : Json} {items : List Json} {rs rs' : List ParsedRule} (r : ParsedRule)
      (name name' : String) :
      (watch a).complete → r.watch = watch a → (name = name' ↔ ¬renamed a) →
      Translated watch renamed items rs rs' →
      Translated watch renamed (a :: items) (r.withName name :: rs) (r.withName name' :: rs')

/-- The documents for which the loaders agree: no entry has the id of another, and no entry of
`alarms` goes by its description. -/
structure DistinctlyNamed (watch : Json → WatchEntry) (renamed : Json → Prop) (items : List Json) :
    Prop where
  distinct : ((items.filter fun a => decide (watch a).complete).map fun a => (watch a).id).Nodup
  named : ∀ a ∈ items, (watch a).complete → ¬renamed a

namespace Translated

variable {watch : Json → WatchEntry} {renamed : Json → Prop} {items : List Json}
  {rs rs' : List ParsedRule}

omit [JsonLib] in
theorem complete (h : Translated watch renamed items rs rs') :
    (rs.map (·.rule)).filter AlarmRule.complete = rs.map (·.rule) ∧
      (rs'.map (·.rule)).filter AlarmRule.complete = rs'.map (·.rule) := by
  induction h with
  | nil => exact ⟨rfl, rfl⟩
  | skip _ _ ih => exact ih
  | rule r name name' hc hw _ _ ih =>
    have hr : ∀ n, (r.withName n).rule.complete = true := fun n =>
      decide_eq_true (hw ▸ hc : r.watch.complete)
    exact ⟨by rw [List.map_cons, List.filter_cons_of_pos (hr name), ih.1],
      by rw [List.map_cons, List.filter_cons_of_pos (hr name'), ih.2]⟩

omit [JsonLib] in
theorem ids (h : Translated watch renamed items rs rs') :
    (rs.map (·.rule)).map (·.id) =
        (items.filter fun a => decide (watch a).complete).map (fun a => (watch a).id) ∧
      (rs'.map (·.rule)).map (·.id) = (rs.map (·.rule)).map (·.id) := by
  induction h with
  | nil => exact ⟨rfl, rfl⟩
  | skip hc _ ih =>
    rw [List.filter_cons_of_neg (by simpa using hc)]
    exact ih
  | @rule a items rs rs' r name name' hc hw _ _ ih =>
    have hid : r.rule.id = (watch a).id := congrArg WatchEntry.id hw
    rw [List.filter_cons_of_pos (by simpa using hc)]
    simp only [List.map_cons]
    exact ⟨List.cons_eq_cons.2 ⟨hid, ih.1⟩, List.cons_eq_cons.2 ⟨rfl, ih.2⟩⟩

omit [JsonLib] in
theorem eq_iff (h : Translated watch renamed items rs rs') :
    (rs.map (·.rule) = rs'.map (·.rule) ↔ ∀ a ∈ items, (watch a).complete → ¬renamed a) ∧
      (rs.map (·.rule) = rs'.map (·.rule) → rs = rs') := by
  induction h with
  | nil => simp
  | skip hc _ ih =>
    refine ⟨?_, ih.2⟩
    rw [ih.1, List.forall_mem_cons]
    simp [hc]
  | @rule a items rs rs' r name name' hc hw hn _ ih =>
    have hname : (r.withName name).rule = (r.withName name').rule ↔ name = name' :=
      ⟨congrArg AlarmRule.name, fun he => by rw [he]⟩
    simp only [List.map_cons, List.cons.injEq, List.forall_mem_cons]
    refine ⟨?_, fun ⟨h1, h2⟩ => ⟨by rw [hname.1 h1], ih.2 h2⟩⟩
    rw [hname, hn, ih.1]
    simp [hc]

end Translated

theorem readRules_cons {root a : Json} {configDir : String} {items : List Json}
    {rs : List ParsedRule} (h : readRules root configDir (a :: items) = .ok rs) :
    ∃ o rest, readRule root configDir a = .ok o ∧ readRules root configDir items = .ok rest ∧
      rs = o.toList ++ rest := by
  unfold readRules at h
  rw [List.filterMapM_cons] at h
  obtain ⟨o, ho, h⟩ := ok_of_bind h
  cases o with
  | none => exact ⟨none, rs, ho, h, rfl⟩
  | some r =>
    obtain ⟨rest, hrest, h⟩ := ok_of_bind h
    exact ⟨some r, rest, ho, hrest, (Except.ok.inj h).symm⟩

/-- One more entry. -/
theorem Translated.cons {watch : Json → WatchEntry} {renamed : Json → Prop} {root a j j' : Json}
    {configDir : String} {items : List Json} {rs rs' : List ParsedRule}
    (h : Translated watch renamed items rs rs') (hj : SameButName j j')
    (hwatch : watchOfRule j = watch a) (hname : nameOfRule j = nameOfRule j' ↔ ¬renamed a)
    {o o' : Option ParsedRule} (ho : readRule root configDir j = .ok o)
    (ho' : readRule root configDir j' = .ok o') :
    Translated watch renamed (a :: items) (o.toList ++ rs) (o'.toList ++ rs') := by
  obtain ⟨hc, rfl, rfl⟩ | ⟨hc, r, hr, rfl, rfl⟩ := readRule_pair hj ho ho'
  · exact .skip (hwatch ▸ hc) h
  · exact .rule r _ _ (hwatch ▸ hc) (hwatch ▸ hr) hname h

theorem translated_rules {root : Json} {configDir : String} {items : List Json}
    {rs rs' : List ParsedRule} (h : readRules root configDir items = .ok rs)
    (h' : readRules root configDir items = .ok rs') :
    Translated watchOfRule (fun _ => False) (items.filter isObject) rs rs' := by
  induction items generalizing rs rs' with
  | nil =>
    cases h
    cases h'
    exact .nil
  | cons a items ih =>
    obtain ⟨o, rest, ho, hrest, rfl⟩ := readRules_cons h
    obtain ⟨o', rest', ho', hrest', rfl⟩ := readRules_cons h'
    by_cases ha : a.isObject = true
    · rw [List.filter_cons_of_pos ha]
      exact (ih hrest hrest').cons ⟨ha, ha, fun _ _ => rfl⟩ rfl (by simp) ho ho'
    · rw [List.filter_cons_of_neg ha]
      have hnone : readRule root configDir a = .ok none := by
        unfold readRule
        rw [if_pos (by simpa using ha)]
        rfl
      cases hnone.symm.trans ho
      cases hnone.symm.trans ho'
      exact ih hrest hrest'

theorem translated_alarms {root : Json} {configDir : String} {alarms items items' : List Json}
    {rs rs' : List ParsedRule} (hi : alarms.mapM (ruleOfAlarm ["name", "id"]) = .ok items)
    (hi' : alarms.mapM (ruleOfAlarm ["name", "description", "id"]) = .ok items')
    (h : readRules root configDir items = .ok rs)
    (h' : readRules root configDir items' = .ok rs') :
    Translated watchOfAlarm Renamed alarms rs rs' := by
  induction alarms generalizing items items' rs rs' with
  | nil =>
    cases hi
    cases hi'
    cases h
    cases h'
    exact .nil
  | cons a alarms ih =>
    rw [List.mapM_cons] at hi hi'
    obtain ⟨j, hj, hi⟩ := ok_of_bind hi
    obtain ⟨js, hjs, hi⟩ := ok_of_bind hi
    obtain ⟨j', hj', hi'⟩ := ok_of_bind hi'
    obtain ⟨js', hjs', hi'⟩ := ok_of_bind hi'
    cases hi
    cases hi'
    obtain ⟨o, rest, ho, hrest, rfl⟩ := readRules_cons h
    obtain ⟨o', rest', ho', hrest', rfl⟩ := readRules_cons h'
    obtain ⟨hsame, hwatch, hname⟩ := ruleOfAlarm_pair hj hj'
    exact (ih hjs hjs' hrest hrest').cons hsame hwatch hname ho ho'

/-! ## The property and its condition -/

/-- What the loaders are expected to leave. -/
structure LoadersAgree (fetched loaded : AlarmServer) : Prop where
  rules : fetched.engine.rules = loaded.engine.rules
  details : fetched.details = loaded.details
  states : fetched.engine.states = loaded.engine.states
  index : fetched.engine.rulesByTagKey = loaded.engine.rulesByTagKey
  fetchedIndexed : fetched.engine.Indexed
  loadedIndexed : loaded.engine.Indexed

/-- No two entries that are not left out have the same id, and the loaders name each alike. -/
def LoadersSafe (root : Json) : Prop :=
  match root.memberItems "rules", root.memberItems "alarms" with
  | some (item :: items), _ =>
    DistinctlyNamed watchOfRule (fun _ => False) ((item :: items).filter isObject)
  | _, some alarms => DistinctlyNamed watchOfAlarm Renamed (alarms.filter isObject)
  | _, none => True

/-- The rules that the two loaders read from a document. -/
theorem translated_document {root : Json} {configDir : String} {items : Option (List Json)}
    {items' : List Json} {rs rs' : List ParsedRule}
    (hi : ruleItems ["name", "id"] root = .ok items)
    (hi' : ruleItems ["name", "description", "id"] root = .ok (some items'))
    (h : readRules root configDir (items.getD []) = .ok rs)
    (h' : readRules root configDir items' = .ok rs') :
    ∃ watch renamed entries, Translated watch renamed entries rs rs' ∧
      (LoadersSafe root ↔ DistinctlyNamed watch renamed entries) := by
  unfold ruleItems at hi hi'
  unfold LoadersSafe
  rcases hr : root.memberItems "rules" with _ | _ | ⟨item, rest⟩
  · cases ha : root.memberItems "alarms" with
    | none =>
      rw [hr, ha] at hi'
      cases hi'
    | some alarms =>
      rw [hr, ha] at hi hi'
      obtain ⟨js, hjs, hi⟩ := ok_of_bind hi
      obtain ⟨js', hjs', hi'⟩ := ok_of_bind hi'
      cases hi
      cases hi'
      exact ⟨_, _, _, translated_alarms hjs hjs' h h', Iff.rfl⟩
  · cases ha : root.memberItems "alarms" with
    | none =>
      rw [hr, ha] at hi hi'
      cases hi
      cases hi'
      exact ⟨watchOfRule, fun _ => False, [], translated_rules h h',
        iff_of_true trivial ⟨List.nodup_nil, fun a ha' => by cases ha'⟩⟩
    | some alarms =>
      rw [hr, ha] at hi hi'
      obtain ⟨js, hjs, hi⟩ := ok_of_bind hi
      obtain ⟨js', hjs', hi'⟩ := ok_of_bind hi'
      cases hi
      cases hi'
      exact ⟨_, _, _, translated_alarms hjs hjs' h h', Iff.rfl⟩
  · rw [hr] at hi hi'
    cases hi
    cases hi'
    exact ⟨_, _, _, translated_rules h h', Iff.rfl⟩

omit [JsonLib] in
theorem loadersAgree_iff_of_translated {fetched loaded : AlarmServer} {rs rs' : List ParsedRule}
    {delay : Int} {watch : Json → WatchEntry} {renamed : Json → Prop} {entries : List Json}
    (ht : Translated watch renamed entries rs rs')
    (hf : fetched.engine.rules = (loadTables (rs.map (·.rule)) delay).rules ∧
      fetched.engine.states = (loadTables (rs.map (·.rule)) delay).states ∧
      fetched.engine.rulesByTagKey = (loadTables (rs.map (·.rule)) delay).rulesByTagKey ∧
      fetched.details = detailsOf rs)
    (hl : loaded.engine.rules = (loadTables (rs'.map (·.rule)) delay).rules ∧
      loaded.engine.states = (loadTables (rs'.map (·.rule)) delay).states ∧
      loaded.engine.rulesByTagKey = (loadTables (rs'.map (·.rule)) delay).rulesByTagKey ∧
      loaded.details = detailsOf rs') :
    LoadersAgree fetched loaded ↔ DistinctlyNamed watch renamed entries := by
  have hindexed : ∀ {e : AlarmEngine} {l : List AlarmRule},
      e.rules = (loadTables l delay).rules → e.rulesByTagKey = (loadTables l delay).rulesByTagKey →
      (e.Indexed ↔ ((l.filter AlarmRule.complete).map (·.id)).Nodup) := by
    intro e l h1 h2
    rw [← indexed_iff l delay]
    unfold AlarmEngine.Indexed
    rw [h1, h2]
  obtain ⟨f1, f2, f3, f4⟩ := hf
  obtain ⟨l1, l2, l3, l4⟩ := hl
  constructor
  · intro h
    have hnd := (hindexed f1 f3).1 h.fetchedIndexed
    rw [ht.complete.1, ht.ids.1] at hnd
    refine ⟨hnd, ht.eq_iff.1.1 ?_⟩
    -- the tables hold every rule under its id
    refine eq_of_find ht.ids.2 (ht.ids.1 ▸ hnd) fun id => ?_
    have hid := congrFun ((f1.symm.trans h.rules).trans l1) id
    rw [loadTables_rules, loadTables_rules, ht.complete.1, ht.complete.2] at hid
    exact hid
  · intro h
    have heq := ht.eq_iff.2 (ht.eq_iff.1.2 h.named)
    subst heq
    have hnd := h.distinct
    rw [← ht.ids.1] at hnd
    have hnd' : (((rs.map (·.rule)).filter AlarmRule.complete).map (·.id)).Nodup := by
      rw [ht.complete.1]
      exact hnd
    exact ⟨f1.trans l1.symm, f4.trans l4.symm, f2.trans l2.symm, f3.trans l3.symm,
      (hindexed f1 f3).2 hnd', (hindexed l1 l3).2 hnd'⟩

/-- A file that was loaded. -/
theorem loadRulesFromFile_ok {s : AlarmServer} {path : String} {root : Json}
    (h : (s.loadRulesFromFile path (.ok root)).1 = .ok ()) :
    ∃ delay items rs, root.valueLong "alarm_delay_ms" 0 = .ok delay ∧
      ruleItems ["name", "description", "id"] root = .ok (some items) ∧
      readRules root (dirnameOf path) items = .ok rs ∧
      (s.loadRulesFromFile path (.ok root)).2.engine =
        s.engine.loadRulesFromFile (rs.map (·.rule)) (max 0 delay) ∧
      (s.loadRulesFromFile path (.ok root)).2.details = detailsOf rs := by
  unfold AlarmServer.loadRulesFromFile at h ⊢
  dsimp only at h ⊢
  cases hfile : fileConfiguration root with
  | error what =>
    rw [hfile] at h
    cases h
  | ok x =>
    obtain ⟨delay', items, cfg⟩ := x
    rw [hfile] at h
    dsimp only at h ⊢
    unfold fileConfiguration at hfile
    split at hfile
    · cases hfile
    · obtain ⟨delay, hdelay, hfile⟩ := ok_of_bind hfile
      obtain ⟨o, ho, hfile⟩ := ok_of_bind hfile
      cases o with
      | none => cases hfile
      | some items' =>
        obtain ⟨cfg', -, hfile⟩ := ok_of_bind hfile
        cases hfile
        cases hc : (s.manager.configure cfg).1 with
        | error what =>
          rw [hc] at h
          cases h
        | ok u =>
          rw [hc] at h
          cases hrs : readRules root (dirnameOf path) items with
          | error what =>
            rw [hrs] at h
            cases h
          | ok rs => exact ⟨delay, items, rs, hdelay, ho, hrs, rfl, rfl⟩

/-- A document that was fetched, from a server that has loaded nothing. -/
theorem fetchRules_ok {s : AlarmServer} (hmtime : s.lastConfigMtimeMs = -1)
    (hhash : s.lastConfigHash = "") {configDir : String} {status : Int} {body root : Json}
    (hbody : body.find "json" = some root)
    (hroot : (root.contains "rules" || root.contains "alarms") = true)
    (h : (s.fetchRules configDir (.response status (some body))).1 = .ok ()) :
    ∃ delay items rs, root.valueLong "alarm_delay_ms" 0 = .ok delay ∧
      ruleItems ["name", "id"] root = .ok items ∧
      readRules root configDir (items.getD []) = .ok rs ∧
      (s.fetchRules configDir (.response status (some body))).2.engine =
        s.engine.reload (rs.map (·.rule)) (max 0 delay) ∧
      (s.fetchRules configDir (.response status (some body))).2.details = detailsOf rs := by
  have hunwrap : unwrapRoot root = root := by
    unfold unwrapRoot
    cases root.member "json" isObject with
    | none => rfl
    | some inner =>
      dsimp only
      rw [if_pos hroot]
  have hobj : body.isObject = true := by
    cases body <;> first | rfl | cases hbody
  have hfetched : ∀ x, s.fetchedRoot (.response status (some body)) = .ok x →
      ∃ mtime, x = some (mtime, root) := by
    intro x hx
    unfold AlarmServer.fetchedRoot at hx
    dsimp only at hx
    split at hx
    · cases hx
    · obtain ⟨ok, -, hx⟩ := ok_of_bind hx
      cases ok with
      | false =>
        obtain ⟨err, -, hx⟩ := ok_of_bind hx
        cases hx
      | true =>
        rw [if_neg (by decide)] at hx
        have hlast : ∀ mtime : Int, (match body.find "json" with
            | none => throw (.refused "Missing json field in /config/alarms response")
            | some root =>
              if s.lastConfigMtimeMs ≠ -1 ∧ mtime ≠ -1 ∧ mtime = s.lastConfigMtimeMs then pure none
              else if (!root.isObject) = true then throw (.refused "alarms.json must be an object")
              else pure (some (mtime, unwrapRoot root)) :
              Except FetchFailure (Option (Int × Json))) = .ok x →
            x = some (mtime, root) := by
          intro mtime hx
          rw [hbody] at hx
          dsimp only at hx
          rw [if_neg (fun hc => hc.1 hmtime)] at hx
          split at hx
          · cases hx
          · rw [hunwrap] at hx
            exact (Except.ok.inj hx).symm
        cases hm : body.member "mtime_ms" isNumberInteger with
        | none =>
          rw [hm] at hx
          obtain ⟨mtime, -, hx⟩ := ok_of_bind hx
          exact ⟨mtime, hlast mtime hx⟩
        | some v =>
          rw [hm] at hx
          obtain ⟨mtime, -, hx⟩ := ok_of_bind hx
          exact ⟨mtime, hlast mtime hx⟩
  unfold AlarmServer.fetchRules at h ⊢
  cases hx : s.fetchedRoot (.response status (some body)) with
  | error e =>
    rw [hx] at h
    cases h
  | ok x =>
    obtain ⟨mtime, rfl⟩ := hfetched x hx
    rw [hx] at h
    dsimp only at h ⊢
    have hchanged : ∀ o, ({ s with manager := s.manager.setConfigDir configDir } :
        AlarmServer).changedConfiguration root = .ok o → ∃ cfg, o = some cfg := by
      intro o ho
      unfold AlarmServer.changedConfiguration at ho
      rw [if_neg fun hc => hc.1 hhash] at ho
      split at ho
      · cases ho
      · split at ho
        · cases ho
        · exact ⟨_, (Except.ok.inj ho).symm⟩
    cases hcfg : ({ s with manager := s.manager.setConfigDir configDir } :
        AlarmServer).changedConfiguration root with
    | error e =>
      rw [hcfg] at h
      cases h
    | ok o =>
      obtain ⟨cfg, rfl⟩ := hchanged o hcfg
      rw [hcfg] at h
      dsimp only at h ⊢
      cases hc : ((s.manager.setConfigDir configDir).configure cfg).1 with
      | error what =>
        rw [hc] at h
        cases h
      | ok u =>
        rw [hc] at h
        dsimp only at h ⊢
        cases hrs : fetchedRules root configDir with
        | error what =>
          rw [hrs] at h
          cases h
        | ok y =>
          obtain ⟨delay', rs⟩ := y
          unfold fetchedRules at hrs
          obtain ⟨delay, hdelay, hrs⟩ := ok_of_bind hrs
          obtain ⟨items, hitems, hrs⟩ := ok_of_bind hrs
          obtain ⟨rs', hread, hrs⟩ := ok_of_bind hrs
          cases hrs
          exact ⟨delay, items, rs, hdelay, hitems, hread, rfl, rfl⟩

/-- **The loaders.** On a document that both accept, from a server that has loaded nothing, the two
leave the same rules, states and index, and the index is exact, if and only if no two entries have
the same id and no entry of `alarms` goes by its description. -/
theorem rule_loaders_agree_iff (s : AlarmServer) (hempty : ∀ id, s.engine.states id = none)
    (hmtime : s.lastConfigMtimeMs = -1) (hhash : s.lastConfigHash = "") (configDir path : String)
    (hdir : dirnameOf path = configDir) (status : Int) (body root : Json)
    (hbody : body.find "json" = some root)
    (hfetch : (s.fetchRules configDir (.response status (some body))).1 = .ok ())
    (hload : (s.loadRulesFromFile path (.ok root)).1 = .ok ()) :
    LoadersAgree (s.fetchRules configDir (.response status (some body))).2
      (s.loadRulesFromFile path (.ok root)).2 ↔ LoadersSafe root := by
  subst hdir
  obtain ⟨delay, items', rs', hdelay, hitems', hread', hengine', hdetails'⟩ :=
    loadRulesFromFile_ok hload
  have hroot : (root.contains "rules" || root.contains "alarms") = true := by
    unfold ruleItems memberItems at hitems'
    unfold contains
    cases hr : root.find "rules" with
    | some v => rfl
    | none =>
      cases ha : root.find "alarms" with
      | some v => rfl
      | none =>
        rw [hr, ha] at hitems'
        cases hitems'
  obtain ⟨delay', items, rs, hdelay', hitems, hread, hengine, hdetails⟩ :=
    fetchRules_ok hmtime hhash hbody hroot hfetch
  cases hdelay.symm.trans hdelay'
  obtain ⟨watch, renamed, entries, htranslated, hsafe⟩ :=
    translated_document hitems hitems' hread hread'
  rw [hsafe]
  refine @loadersAgree_iff_of_translated _ _ _ _ _ (max 0 delay) _ _ _ htranslated ?_ ?_
  · rw [hengine]
    refine ⟨rfl, ?_, rfl, hdetails⟩
    funext id
    rw [reload_state]
    simp [hempty]
  · rw [hengine']
    exact ⟨rfl, rfl, rfl, hdetails'⟩

end

end

/-! ## Two documents -/

section
attribute [local instance] intFloats intJson

/-- An entry of `alarms`. -/
def alarmEntry (fields : List (String × Json)) : Json :=
  .object ([("id", .string "TANK"), ("connection_id", .string "PLC1"), ("type", .string "high"),
    ("threshold", .int 80)] ++ fields)

/-- The alarm has a description and no name. -/
def describedDocument : Json := .object [("alarms", .array [alarmEntry
  [("tag_name", .string "Level"), ("description", .string "Tank level high")]])]

/-- The alarm stands there twice, with two tags. -/
def repeatedDocument : Json := .object [("alarms", .array [
  alarmEntry [("tag_name", .string "Level")], alarmEntry [("tag_name", .string "Weight")]])]

def freshServer : AlarmServer where
  manager := { configDir := "config" }

def fetched (root : Json) : Except FetchFailure Unit × AlarmServer :=
  freshServer.fetchRules "config" (.response 200 (some (.object [("ok", .bool true), ("json", root)])))

def loaded (root : Json) : Except String Unit × AlarmServer :=
  freshServer.loadRulesFromFile "config/alarms.json" (.ok root)

/-- The file loader names the described alarm by its description, the other by its id; a repeated id
stays listed under the tag that its rule no longer watches. -/
theorem rule_loaders_disagree :
    ((fetched describedDocument).1 = .ok () ∧ (loaded describedDocument).1 = .ok () ∧
      (fetched describedDocument).2.engine.rules ≠ (loaded describedDocument).2.engine.rules) ∧
    ((fetched repeatedDocument).1 = .ok () ∧ (loaded repeatedDocument).1 = .ok () ∧
      ¬(fetched repeatedDocument).2.engine.Indexed ∧
      ¬(loaded repeatedDocument).2.engine.Indexed) := by
  have hlisted : ∀ e : AlarmEngine, e.rulesByTagKey "PLC1:Level" = ["TANK"] →
      (e.rules "TANK").map (·.tagKey) = some "PLC1:Weight" → ¬e.Indexed := by
    intro e hkey hrule h
    have hcount := h "TANK" "PLC1:Level"
    rw [hkey] at hcount
    cases hr : e.rules "TANK" with
    | none =>
      rw [hr] at hrule
      cases hrule
    | some r =>
      rw [hr, Option.map_some, Option.some.injEq] at hrule
      rw [hr, Option.any_some, hrule, if_neg (by decide)] at hcount
      cases hcount
  refine ⟨⟨by rfl, by rfl, fun h => ?_⟩, by rfl, by rfl, hlisted _ (by rfl) (by rfl),
    hlisted _ (by rfl) (by rfl)⟩
  have hname := congrArg (fun rules : String → Option AlarmRule => (rules "TANK").map (·.name)) h
  have hfetched : ((fetched describedDocument).2.engine.rules "TANK").map (·.name) =
      some "TANK" := by rfl
  have hloaded : ((loaded describedDocument).2.engine.rules "TANK").map (·.name) =
      some "Tank level high" := by rfl
  have hne := (hfetched.symm.trans hname).trans hloaded
  exact absurd (Option.some.inj hne) (by decide)

theorem described_agree_iff :
    LoadersAgree (fetched describedDocument).2 (loaded describedDocument).2 ↔
      LoadersSafe describedDocument :=
  rule_loaders_agree_iff freshServer (fun _ => rfl) rfl rfl "config" "config/alarms.json" (by rfl) 200
    (.object [("ok", .bool true), ("json", describedDocument)]) describedDocument rfl (by rfl)
    (by rfl)

end

end OpcBridge.Alarms
