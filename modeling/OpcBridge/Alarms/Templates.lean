import OpcBridge.Lib.Templates

/-!
# Texts of a notification

`render_email_template` and `format_arg` of `opcbridge-alarms/src/main.cpp`. Both replace one
placeholder after another in the growing text, and each loop ends. The result is the template with
all placeholders replaced at once, value texts left as they are, exactly when no placeholder arises
from the values put in before its turn (`texts_simultaneous_iff`).
-/

namespace OpcBridge.Alarms

open Lib.Templates

/-! ## The loop -/

/-- Where `sub` starts. -/
def findSub (sub : List Char) : List Char → Option Nat
  | [] => if sub = [] then some 0 else none
  | c :: cs => if sub.isPrefixOf (c :: cs) then some 0 else (findSub sub cs).map (· + 1)

/-- `s.find(sub, pos)` -/
def findFrom (s sub : List Char) (pos : Nat) : Option Nat :=
  if pos ≤ s.length then (findSub sub (s.drop pos)).map (pos + ·) else none

theorem findSub_eq_some {sub s : List Char} {n : Nat} (h : findSub sub s = some n) :
    ∃ a b, s = a ++ (sub ++ b) ∧ a.length = n := by
  induction s generalizing n with
  | nil =>
    rw [findSub] at h
    split at h
    · rename_i hsub
      exact ⟨[], [], by rw [hsub]; rfl, Option.some.inj h⟩
    · cases h
  | cons c cs ih =>
    rw [findSub] at h
    split at h
    · rename_i hstarts
      obtain ⟨b, hb⟩ := List.isPrefixOf_iff_prefix.1 hstarts
      exact ⟨[], b, hb.symm, Option.some.inj h⟩
    · obtain ⟨k, hk, rfl⟩ := Option.map_eq_some_iff.1 h
      obtain ⟨a, b, rfl, rfl⟩ := ih hk
      exact ⟨c :: a, b, rfl, rfl⟩

theorem findFrom_bounds {s sub : List Char} {pos i : Nat} (h : findFrom s sub pos = some i) :
    pos ≤ i ∧ i + sub.length ≤ s.length := by
  unfold findFrom at h
  split at h
  · rename_i hpos
    obtain ⟨n, hn, rfl⟩ := Option.map_eq_some_iff.1 h
    obtain ⟨a, b, hab, rfl⟩ := findSub_eq_some hn
    have hlength := congrArg List.length hab
    rw [List.length_drop, List.length_append, List.length_append] at hlength
    omega
  · cases h

/-- The loop at `pos`: the search goes on after the text that was put in. -/
def replaceAllFrom (s sub to_ : List Char) (hsub : sub ≠ []) (pos : Nat) : List Char :=
  match _hfind : findFrom s sub pos with
  | none => s
  | some i =>
    replaceAllFrom (s.take i ++ to_ ++ s.drop (i + sub.length)) sub to_ hsub (i + to_.length)
termination_by s.length - pos
decreasing_by
  have hbounds := findFrom_bounds _hfind
  have hpos : 0 < sub.length := List.length_pos_iff.2 hsub
  simp only [List.length_append, List.length_take, List.length_drop]
  omega

/-- `replace_all_inplace` -/
def replaceAllInplace (s sub to_ : String) : String :=
  if h : sub.toList = [] then s else String.ofList (replaceAllFrom s.toList sub.toList to_.toList h 0)

/-! ## The texts -/

/-- The fields of an alarm that a text can name. -/
structure AlarmText where
  alarmId : String
  name : String
  group : String
  site : String
  severity : Int32
  connectionId : String
  tag : String
  message : String
  audioFile : String
  audioPath : String

/-- The name, or the id of an alarm without one. -/
def AlarmText.title (alarm : AlarmText) : String :=
  if alarm.name = "" then alarm.alarmId else alarm.name

def renderEmailTemplate (templ : String) (alarm : AlarmText) (eventType : String) : String :=
  let templ := replaceAllInplace templ "{event}" eventType
  let templ := replaceAllInplace templ "{alarm_name}" alarm.title
  let templ := replaceAllInplace templ "{alarm_id}" alarm.alarmId
  let templ := replaceAllInplace templ "{severity}" (toString alarm.severity)
  let templ := replaceAllInplace templ "{group}" alarm.group
  let templ := replaceAllInplace templ "{site}" alarm.site
  let templ := replaceAllInplace templ "{connection_id}" alarm.connectionId
  let templ := replaceAllInplace templ "{tag}" alarm.tag
  let templ := replaceAllInplace templ "{message}" alarm.message
  templ

def formatArg (value : String) (alarm : AlarmText) : String :=
  let value := replaceAllInplace value "{alarm_id}" alarm.alarmId
  let value := replaceAllInplace value "{name}" alarm.name
  let value := replaceAllInplace value "{group}" alarm.group
  let value := replaceAllInplace value "{site}" alarm.site
  let value := replaceAllInplace value "{message}" alarm.message
  let value := replaceAllInplace value "{connection_id}" alarm.connectionId
  let value := replaceAllInplace value "{tag}" alarm.tag
  let value := replaceAllInplace value "{severity}" (toString alarm.severity)
  let value := replaceAllInplace value "{audio_file}" alarm.audioFile
  let value := replaceAllInplace value "{audio_path}" alarm.audioPath
  value

/-! ## The loop fills in one field -/

/-- The search finds the first occurrence. -/
theorem occurrences_take {f : Field} {s : List Char} {n : Nat} (h : findSub f.key s = some n) :
    occurrences f.key (s.take n) = 0 := by
  induction s generalizing n with
  | nil => rw [List.take_nil, occurrences]
  | cons c cs ih =>
    rw [findSub] at h
    split at h
    · obtain rfl := Option.some.inj h
      rfl
    · rename_i hstarts
      obtain ⟨k, hk, rfl⟩ := Option.map_eq_some_iff.1 h
      have hshort : ¬ f.key.isPrefixOf (c :: cs.take k) = true := by
        intro hkey
        apply hstarts
        rw [List.isPrefixOf_iff_prefix] at hkey ⊢
        exact hkey.trans (List.cons_prefix_cons.2 ⟨rfl, List.take_prefix _ _⟩)
      rw [List.take_succ_cons, occurrences, if_neg hshort, ih hk]

theorem occurrences_of_findSub_none {f : Field} {s : List Char} (h : findSub f.key s = none) :
    occurrences f.key s = 0 := by
  induction s with
  | nil => rfl
  | cons c cs ih =>
    rw [findSub] at h
    split at h
    · cases h
    · rename_i hstarts
      rw [occurrences, if_neg hstarts, ih (Option.map_eq_none_iff.1 h)]

/-- The loop replaces every occurrence after `pos`, from left to right. -/
theorem replaceAllFrom_eq (f : Field) (hsub : f.key ≠ []) (s : List Char) (pos : Nat)
    (hpos : pos ≤ s.length) :
    replaceAllFrom s f.key f.value hsub pos = s.take pos ++ replaceAll f (s.drop pos) := by
  induction s, pos using replaceAllFrom.induct f.key f.value hsub with
  | case1 s pos hnone =>
    have hsub_none : findSub f.key (s.drop pos) = none := by
      rw [findFrom, if_pos hpos] at hnone
      exact Option.map_eq_none_iff.1 hnone
    rw [replaceAllFrom]
    split
    · rw [replaceAll_absent (occurrences_of_findSub_none hsub_none), List.take_append_drop]
    · rename_i hsome
      rw [hnone] at hsome
      cases hsome
  | case2 s pos i hsome ih =>
    have hfind := hsome
    rw [findFrom, if_pos hpos] at hfind
    obtain ⟨n, hn, rfl⟩ := Option.map_eq_some_iff.1 hfind
    obtain ⟨a, b, hab, rfl⟩ := findSub_eq_some hn
    have hfirst := occurrences_take hn
    rw [hab, List.take_left] at hfirst
    obtain ⟨front, rfl, rfl⟩ : ∃ front, front.length = pos ∧ s = front ++ (a ++ (f.key ++ b)) :=
      ⟨s.take pos, List.length_take_of_le hpos, by rw [← hab, List.take_append_drop]⟩
    have hbefore : (front ++ (a ++ (f.key ++ b))).take (front.length + a.length) = front ++ a := by
      rw [← List.append_assoc, ← List.length_append, List.take_left]
    have hbehind : (front ++ (a ++ (f.key ++ b))).drop (front.length + a.length + f.key.length) =
        b := by
      rw [← List.append_assoc, ← List.append_assoc, ← List.length_append, ← List.length_append,
        List.drop_left]
    have hnext : (front ++ a ++ f.value).length = front.length + a.length + f.value.length := by
      rw [List.length_append, List.length_append]
    rw [hbefore, hbehind, ← hnext, List.take_left, List.drop_left] at ih
    rw [replaceAllFrom]
    split
    · rename_i hnone
      rw [hnone] at hsome
      cases hsome
    · rename_i j hj
      obtain rfl : j = front.length + a.length := Option.some.inj (hj.symm.trans hsome)
      rw [hbefore, hbehind, ← hnext, ih (by simp), List.take_left, List.drop_left,
        replaceAll_append, replaceAll_absent hfirst]
      simp only [List.append_assoc]

/-! ## All calls -/

/-- The field of a placeholder. -/
abbrev placeOf (word value : String) (h : ∀ c ∈ word.toList, c ≠ '{' ∧ c ≠ '}' := by decide) :
    Field :=
  ⟨word.toList, value.toList, h⟩

/-- The fields of an e-mail text in the order of the calls. -/
def emailFields (alarm : AlarmText) (eventType : String) : List Field :=
  [placeOf "event" eventType, placeOf "alarm_name" alarm.title, placeOf "alarm_id" alarm.alarmId,
    placeOf "severity" (toString alarm.severity), placeOf "group" alarm.group,
    placeOf "site" alarm.site, placeOf "connection_id" alarm.connectionId,
    placeOf "tag" alarm.tag, placeOf "message" alarm.message]

/-- The fields of a command's argument in the order of the calls. -/
def argFields (alarm : AlarmText) : List Field :=
  [placeOf "alarm_id" alarm.alarmId, placeOf "name" alarm.name, placeOf "group" alarm.group,
    placeOf "site" alarm.site, placeOf "message" alarm.message,
    placeOf "connection_id" alarm.connectionId, placeOf "tag" alarm.tag,
    placeOf "severity" (toString alarm.severity), placeOf "audio_file" alarm.audioFile,
    placeOf "audio_path" alarm.audioPath]

theorem emailFields_nodup (alarm : AlarmText) (eventType : String) :
    ((emailFields alarm eventType).map Field.key).Nodup := by
  have hkeys : (emailFields alarm eventType).map Field.key =
      ["{event}".toList, "{alarm_name}".toList, "{alarm_id}".toList, "{severity}".toList,
        "{group}".toList, "{site}".toList, "{connection_id}".toList, "{tag}".toList,
        "{message}".toList] := rfl
  rw [hkeys]
  decide

theorem argFields_nodup (alarm : AlarmText) : ((argFields alarm).map Field.key).Nodup := by
  have hkeys : (argFields alarm).map Field.key =
      ["{alarm_id}".toList, "{name}".toList, "{group}".toList, "{site}".toList,
        "{message}".toList, "{connection_id}".toList, "{tag}".toList, "{severity}".toList,
        "{audio_file}".toList, "{audio_path}".toList] := rfl
  rw [hkeys]
  decide

/-- A call with a placeholder. -/
theorem replaceAllInplace_place (key word : String) {value : String} {t : List Char}
    (h : ∀ c ∈ word.toList, c ≠ '{' ∧ c ≠ '}' := by decide)
    (hkey : key.toList = '{' :: (word.toList ++ ['}']) := by decide) :
    replaceAllInplace (String.ofList t) key value =
      String.ofList (replaceAll (placeOf word value h) t) := by
  have hne : key.toList ≠ [] := by
    rw [hkey]
    exact List.cons_ne_nil _ _
  have hloop := replaceAllFrom_eq (placeOf word value h) (List.cons_ne_nil _ _) t 0 (Nat.zero_le _)
  rw [List.take_zero, List.drop_zero, List.nil_append] at hloop
  rw [replaceAllInplace, dif_neg hne, ← hloop]
  simp only [String.toList_ofList, hkey]
  rfl

theorem renderEmailTemplate_eq (templ : String) (alarm : AlarmText) (eventType : String) :
    renderEmailTemplate templ alarm eventType =
      String.ofList (expand (emailFields alarm eventType) templ.toList) := by
  obtain ⟨t, rfl⟩ : ∃ t, templ = String.ofList t := ⟨templ.toList, String.ofList_toList.symm⟩
  rw [String.toList_ofList]
  unfold renderEmailTemplate
  dsimp only
  rw [replaceAllInplace_place "{event}" "event",
    replaceAllInplace_place "{alarm_name}" "alarm_name",
    replaceAllInplace_place "{alarm_id}" "alarm_id",
    replaceAllInplace_place "{severity}" "severity", replaceAllInplace_place "{group}" "group",
    replaceAllInplace_place "{site}" "site",
    replaceAllInplace_place "{connection_id}" "connection_id",
    replaceAllInplace_place "{tag}" "tag", replaceAllInplace_place "{message}" "message"]
  rfl

theorem formatArg_eq (value : String) (alarm : AlarmText) :
    formatArg value alarm = String.ofList (expand (argFields alarm) value.toList) := by
  obtain ⟨t, rfl⟩ : ∃ t, value = String.ofList t := ⟨value.toList, String.ofList_toList.symm⟩
  rw [String.toList_ofList]
  unfold formatArg
  dsimp only
  rw [replaceAllInplace_place "{alarm_id}" "alarm_id", replaceAllInplace_place "{name}" "name",
    replaceAllInplace_place "{group}" "group", replaceAllInplace_place "{site}" "site",
    replaceAllInplace_place "{message}" "message",
    replaceAllInplace_place "{connection_id}" "connection_id",
    replaceAllInplace_place "{tag}" "tag", replaceAllInplace_place "{severity}" "severity",
    replaceAllInplace_place "{audio_file}" "audio_file",
    replaceAllInplace_place "{audio_path}" "audio_path"]
  rfl

/-! ## All at once -/

/-- Filling in is simultaneous: the result is the template with all values put in at once, and so
is every text on the way with the values so far. -/
def FillsAtOnce (fs : List Field) (templ out : String) : Prop :=
  out = String.ofList (simultaneous fs templ.toList) ∧ NeverExpands fs templ.toList

/-- Every placeholder counts as often as in the template when its turn comes. -/
theorem texts_simultaneous_iff (templ : String) (alarm : AlarmText) (eventType : String) :
    (FillsAtOnce (emailFields alarm eventType) templ (renderEmailTemplate templ alarm eventType) ↔
        PlacesKept (emailFields alarm eventType) templ.toList) ∧
      (FillsAtOnce (argFields alarm) templ (formatArg templ alarm) ↔
        PlacesKept (argFields alarm) templ.toList) := by
  have hiff : ∀ {fs : List Field} {out : String}, (fs.map Field.key).Nodup →
      out = String.ofList (expand fs templ.toList) →
      (FillsAtOnce fs templ out ↔ PlacesKept fs templ.toList) := by
    rintro fs out hkeys rfl
    rw [← expand_iff hkeys]
    exact ⟨fun h => h.2, fun h => ⟨congrArg String.ofList h.expand_eq, h⟩⟩
  exact ⟨hiff (emailFields_nodup alarm eventType) (renderEmailTemplate_eq templ alarm eventType),
    hiff (argFields_nodup alarm) (formatArg_eq templ alarm)⟩

/-- The alarm of the example below: its name holds a placeholder. -/
def namedMessage : AlarmText :=
  { alarmId := "a1", name := "{message}", group := "", site := "", severity := 500,
    connectionId := "plc", tag := "T", message := "on fire", audioFile := "", audioPath := "" }

/-- A name is expanded, and an empty site makes up a placeholder. -/
theorem value_expanded :
    (renderEmailTemplate "{alarm_name}" namedMessage "active" = "on fire" ∧
        simultaneous (emailFields namedMessage "active") "{alarm_name}".toList =
          "{message}".toList) ∧
      (formatArg "{ta{site}g}" namedMessage = "T" ∧
        simultaneous (argFields namedMessage) "{ta{site}g}".toList = "{tag}".toList) := by
  refine ⟨⟨?_, by decide +kernel⟩, ?_, by decide +kernel⟩
  · rw [renderEmailTemplate_eq]
    decide +kernel
  · rw [formatArg_eq]
    decide +kernel

end OpcBridge.Alarms
