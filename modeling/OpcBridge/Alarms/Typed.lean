import OpcBridge.Alarms.Configure

/-!
# Documents that can be configured

`configure` throws at the first field of the wrong type. `configure_ok_iff` says for which documents
it does not: the fields of the object sections have the types of their tables, and each item of the
array sections can be read. The tables that it starts from do not matter.
-/

namespace OpcBridge.Alarms

open OpcBridge Json

/-! ## Steps that throw -/

/-- The step succeeds exactly if `P`, whatever the tables are. -/
def Accepts {α : Type} (m : Conf α) (P : Prop) : Prop :=
  ∀ c, (∃ a, (m.run.run c).1 = .ok a) ↔ P

section
variable {α β : Type} {P Q : Prop}

theorem accepts_pure (a : α) : Accepts (pure a : Conf α) True := fun _ => iff_of_true ⟨a, rfl⟩ trivial

theorem accepts_modify (f : NotificationConfig → NotificationConfig) :
    Accepts (modify f : Conf Unit) True := fun _ => iff_of_true ⟨(), rfl⟩ trivial

theorem accepts_lift (x : Except String α) : Accepts (liftM x : Conf α) (∃ a, x = .ok a) :=
  fun _ => Iff.rfl

theorem accepts_bind {m : Conf α} {f : α → Conf β} (hm : Accepts m P) (hf : ∀ a, Accepts (f a) Q) :
    Accepts (m >>= f) (P ∧ Q) := by
  intro c
  rw [ExceptT.run_bind, StateT.run_bind]
  have hmc := hm c
  rcases hrun : m.run.run c with ⟨e | a, c'⟩
  · rw [hrun] at hmc
    have hP : ¬ P := fun h => by
      obtain ⟨a, ha⟩ := hmc.2 h
      cases ha
    exact iff_of_false (fun ⟨b, hb⟩ => by cases hb) fun h => hP h.1
  · rw [hrun] at hmc
    have hP : P := hmc.1 ⟨a, rfl⟩
    exact (hf a c').trans (and_iff_right hP).symm

theorem accepts_congr {m : Conf α} (h : Accepts m P) (hPQ : P ↔ Q) : Accepts m Q :=
  fun c => (h c).trans hPQ

theorem accepts_then {m : Conf Unit} {f : Unit → Conf β} (hm : Accepts m P) (hf : Accepts (f ()) Q) :
    Accepts (m >>= f) (P ∧ Q) := accepts_bind hm fun _ => hf

/-- A change of the tables cannot fail. -/
theorem accepts_modify_then {g : NotificationConfig → NotificationConfig} {f : Unit → Conf β}
    (hf : Accepts (f ()) Q) : Accepts ((modify g : Conf Unit) >>= f) Q :=
  accepts_congr (accepts_then (accepts_modify g) hf) (and_iff_right trivial)

/-- An item is read, and then only the tables change. -/
theorem accepts_read {x : Except String α} {f : α → Conf β} (hf : ∀ a, Accepts (f a) True) :
    Accepts ((liftM x : Conf α) >>= f) (∃ a, x = .ok a) :=
  accepts_congr (accepts_bind (accepts_lift x) hf) (and_iff_left trivial)

theorem accepts_ite {c : Prop} [Decidable c] {m : Conf Unit} (hm : Accepts m P) :
    Accepts (if c then m else pure ()) (c → P) := by
  by_cases hc : c
  · rw [if_pos hc]
    exact accepts_congr hm ⟨fun h _ => h, fun h => h hc⟩
  · rw [if_neg hc]
    exact accepts_congr (accepts_pure ()) (iff_of_true trivial fun h => absurd h hc)

theorem accepts_when (c : Prop) [Decidable c] (g : NotificationConfig → NotificationConfig) :
    Accepts (if c then modify g else pure ()) True :=
  accepts_congr (accepts_ite (accepts_modify g)) (iff_of_true (fun _ => trivial) trivial)

theorem accepts_forM {xs : List α} {add : α → Conf Unit} {P : α → Prop}
    (h : ∀ x, Accepts (add x) (P x)) : Accepts (xs.forM add) (∀ x ∈ xs, P x) := by
  induction xs with
  | nil => exact accepts_congr (accepts_pure ()) (iff_of_true trivial fun x hx => by cases hx)
  | cons x xs ih =>
    show Accepts (add x >>= fun _ => xs.forM add) _
    exact accepts_congr (accepts_bind (h x) fun _ => ih) List.forall_mem_cons.symm

end

variable [Floats] [JsonLib]

/-! ## Typed fields -/

inductive FieldType
  | string
  | boolean
  /-- A boolean counts as a number. -/
  | integer

def FieldType.has : FieldType → Json → Bool
  | .string, v => v.isString
  | .boolean, v => v.isBoolean
  | .integer, v => v.isNumber || v.isBoolean

/-- The fields that are there have their types. -/
def Typed (j : Json) (fields : List (String × FieldType)) : Prop :=
  ∀ x ∈ fields, ∀ v, j.find x.1 = some v → x.2.has v = true

omit [JsonLib] in
theorem typed_nil (j : Json) : Typed j [] := fun _ hx => by cases hx

omit [JsonLib] in
theorem typed_cons {j : Json} {key : String} {type : FieldType} {fields : List (String × FieldType)} :
    Typed j ((key, type) :: fields) ↔ (∀ v, j.find key = some v → type.has v = true) ∧ Typed j fields :=
  List.forall_mem_cons

omit [JsonLib] in
theorem value_ok_iff {α : Type} {get : Json → Except String α} {type : FieldType}
    (hget : ∀ v, (∃ a, get v = .ok a) ↔ type.has v = true) {j : Json} (hj : j.isObject = true)
    (key : String) (default : α) :
    (∃ a, value get j key default = .ok a) ↔ ∀ v, j.find key = some v → type.has v = true := by
  cases j with
  | object fields =>
    unfold value
    dsimp only
    split
    · rename_i v hv
      rw [hget, hv]
      exact ⟨fun h w hw => Option.some.inj hw ▸ h, fun h => h v rfl⟩
    · rename_i hnone
      rw [hnone]
      exact iff_of_true ⟨_, rfl⟩ fun v hv => by cases hv
  | _ => cases hj

omit [JsonLib] in
theorem getString_ok (v : Json) : (∃ a, v.getString = .ok a) ↔ FieldType.string.has v = true := by
  cases v with
  | string s => exact iff_of_true ⟨s, rfl⟩ rfl
  | _ => exact iff_of_false (fun ⟨a, h⟩ => by cases h) fun h => by cases h

omit [JsonLib] in
theorem getBool_ok (v : Json) : (∃ a, v.getBool = .ok a) ↔ FieldType.boolean.has v = true := by
  cases v with
  | bool b => exact iff_of_true ⟨b, rfl⟩ rfl
  | _ => exact iff_of_false (fun ⟨a, h⟩ => by cases h) fun h => by cases h

theorem getInt_ok (v : Json) : (∃ a, v.getInt = .ok a) ↔ FieldType.integer.has v = true := by
  cases v with
  | bool b => exact iff_of_true ⟨_, rfl⟩ rfl
  | int n => exact iff_of_true ⟨_, rfl⟩ rfl
  | uint n => exact iff_of_true ⟨_, rfl⟩ rfl
  | float x => exact iff_of_true ⟨_, rfl⟩ rfl
  | _ => exact iff_of_false (fun ⟨a, h⟩ => by cases h) fun h => by cases h

section
variable {j : Json} (hj : j.isObject = true) {fields : List (String × FieldType)}
include hj

omit [JsonLib] in
theorem accepts_string {key default : String} {f : String → Conf Unit}
    (hf : ∀ a, Accepts (f a) (Typed j fields)) :
    Accepts ((liftM (j.valueString key default) : Conf String) >>= f)
      (Typed j ((key, .string) :: fields)) :=
  accepts_congr (accepts_bind (accepts_lift _) hf)
    ((and_congr_left' (value_ok_iff getString_ok hj key default)).trans typed_cons.symm)

omit [JsonLib] in
theorem accepts_boolean {key : String} {default : Bool} {f : Bool → Conf Unit}
    (hf : ∀ a, Accepts (f a) (Typed j fields)) :
    Accepts ((liftM (j.valueBool key default) : Conf Bool) >>= f)
      (Typed j ((key, .boolean) :: fields)) :=
  accepts_congr (accepts_bind (accepts_lift _) hf)
    ((and_congr_left' (value_ok_iff getBool_ok hj key default)).trans typed_cons.symm)

theorem accepts_integer {key : String} {default : Int} {f : Int → Conf Unit}
    (hf : ∀ a, Accepts (f a) (Typed j fields)) :
    Accepts ((liftM (j.valueInt key default) : Conf Int) >>= f)
      (Typed j ((key, .integer) :: fields)) :=
  accepts_congr (accepts_bind (accepts_lift _) hf)
    ((and_congr_left' (value_ok_iff getInt_ok hj key default)).trans typed_cons.symm)

end

omit [JsonLib] in
theorem accepts_last {j : Json} (g : NotificationConfig → NotificationConfig) :
    Accepts (modify g : Conf Unit) (Typed j []) :=
  accepts_congr (accepts_modify g) (iff_of_true trivial (typed_nil j))

/-! ## The object sections -/

def voiceModemFields : List (String × FieldType) := [("enabled", .boolean), ("device", .string),
  ("baud", .integer), ("voice_init", .boolean), ("voice_line", .integer), ("dial_seconds", .integer),
  ("audio_delay_seconds", .integer), ("audio_gap_ms", .integer), ("command_timeout_ms", .integer),
  ("tts_engine", .string)]

def sipFields : List (String × FieldType) := [("enabled", .boolean), ("server", .string),
  ("ext", .string), ("pass", .string), ("transport", .string), ("net_if", .string),
  ("duration_sec", .integer), ("ack_prompt_tts", .boolean), ("use_pjsua2", .boolean),
  ("test_to", .string), ("test_audio_file", .string), ("test_tts_text", .string),
  ("ack_confirm_audio_file", .string), ("ack_confirm_tts_text", .string),
  ("ack_confirm_max_ms", .integer)]

def smtpFields : List (String × FieldType) := [("enabled", .boolean), ("host", .string),
  ("port", .integer), ("security", .string), ("username", .string), ("password", .string),
  ("from_address", .string), ("from_name", .string), ("test_to", .string), ("timeout_sec", .integer)]

variable {j : Json}

theorem configureVoiceModem_accepts (hj : j.isObject = true) :
    Accepts (configureVoiceModem j) (Typed j voiceModemFields) := by
  refine accepts_boolean hj fun _ => accepts_modify_then ?_
  refine accepts_string hj fun _ => accepts_modify_then ?_
  refine accepts_integer hj fun _ => accepts_modify_then ?_
  refine accepts_boolean hj fun _ => accepts_modify_then ?_
  refine accepts_integer hj fun _ => accepts_modify_then ?_
  refine accepts_integer hj fun _ => accepts_modify_then ?_
  refine accepts_integer hj fun _ => accepts_modify_then ?_
  refine accepts_integer hj fun _ => accepts_modify_then ?_
  refine accepts_integer hj fun _ => accepts_modify_then ?_
  exact accepts_string hj fun _ => accepts_last _

theorem configureSip_accepts (hj : j.isObject = true) :
    Accepts (configureSip j) (Typed j sipFields) := by
  refine accepts_boolean hj fun _ => accepts_modify_then ?_
  refine accepts_string hj fun _ => accepts_modify_then ?_
  refine accepts_string hj fun _ => accepts_modify_then ?_
  refine accepts_string hj fun _ => accepts_modify_then ?_
  refine accepts_string hj fun _ => accepts_modify_then ?_
  refine accepts_string hj fun _ => accepts_modify_then ?_
  refine accepts_integer hj fun _ => accepts_modify_then ?_
  refine accepts_boolean hj fun _ => accepts_modify_then ?_
  refine accepts_boolean hj fun _ => accepts_modify_then ?_
  refine accepts_string hj fun _ => accepts_modify_then ?_
  refine accepts_string hj fun _ => accepts_modify_then ?_
  refine accepts_string hj fun _ => accepts_modify_then ?_
  refine accepts_string hj fun _ => accepts_modify_then ?_
  refine accepts_string hj fun _ => accepts_modify_then ?_
  exact accepts_integer hj fun _ => accepts_last _

theorem configureSmtp_accepts (hj : j.isObject = true) :
    Accepts (configureSmtp j) (Typed j smtpFields) := by
  refine accepts_boolean hj fun _ => accepts_modify_then ?_
  refine accepts_string hj fun _ => accepts_modify_then ?_
  refine accepts_integer hj fun _ => accepts_modify_then ?_
  refine accepts_string hj fun _ => accepts_modify_then ?_
  refine accepts_string hj fun _ => accepts_modify_then ?_
  refine accepts_string hj fun _ => accepts_modify_then ?_
  refine accepts_string hj fun _ => accepts_modify_then ?_
  refine accepts_string hj fun _ => accepts_modify_then ?_
  refine accepts_string hj fun _ => accepts_modify_then ?_
  exact accepts_integer hj fun _ => accepts_last _

omit [JsonLib] in
theorem configureAudio_accepts (configDir : String) (hj : j.isObject = true) :
    Accepts (configureAudio configDir j) (Typed j [("output_device", .string)]) := by
  refine accepts_string hj fun _ => accepts_modify_then ?_
  exact accepts_last _

/-- The `tts` object, or else the speed in the `voice_modem` object. -/
def TtsTyped (cfg : Json) : Prop :=
  match cfg.member "tts" isObject, cfg.member "voice_modem" isObject with
  | some t, _ => Typed t [("speed_wpm", .integer), ("voice", .string)]
  | none, some vm => Typed vm [("tts_speed_wpm", .integer)]
  | none, none => True

omit [JsonLib] in
theorem member_isObject {cfg : Json} {key : String} (h : cfg.member key isObject = some j) :
    j.isObject = true := by
  unfold member at h
  exact (Option.filter_eq_some_iff.1 h).2

theorem configureTts_accepts (cfg : Json) : Accepts (configureTts cfg) (TtsTyped cfg) := by
  refine accepts_modify_then ?_
  unfold TtsTyped
  cases htts : cfg.member "tts" isObject with
  | some t =>
    have hj := member_isObject htts
    refine accepts_integer hj fun _ => accepts_modify_then ?_
    exact accepts_string hj fun _ => accepts_last _
  | none =>
    cases hvm : cfg.member "voice_modem" isObject with
    | some vm => exact accepts_integer (member_isObject hvm) fun _ => accepts_last _
    | none => exact accepts_pure ()

/-! ## The array sections -/

/-- The items that are objects can be read. -/
def Readable {α : Type} (cfg : Json) (key : String) (read : Json → Except String α) : Prop :=
  ∀ item ∈ (cfg.memberItems key).getD [], item.isObject = true → ∃ a, read item = .ok a

omit [JsonLib] in
theorem forItems_accepts {α : Type} {add : Json → Conf Unit} (read : Json → Except String α)
    {use : α → Conf Unit} (cfg : Json) (key : String)
    (hadd : ∀ item, add item = if item.isObject then liftM (read item) >>= use else pure ())
    (huse : ∀ a, Accepts (use a) True) : Accepts (forItems cfg key add) (Readable cfg key read) := by
  refine accepts_forM fun item => ?_
  rw [hadd]
  exact accepts_ite (accepts_read huse)

omit [JsonLib] in
theorem forObject_accepts {configure : Json → Conf Unit} {P : Json → Prop} (cfg : Json) (key : String)
    (h : ∀ j, j.isObject = true → Accepts (configure j) (P j)) :
    Accepts (forObject cfg key configure) (∀ j, cfg.member key isObject = some j → P j) := by
  unfold forObject
  cases hmember : cfg.member key isObject with
  | none => exact accepts_congr (accepts_pure ()) (iff_of_true trivial fun j hj => by cases hj)
  | some j =>
    refine accepts_congr (h j (member_isObject hmember)) ⟨fun hp j' hj' => ?_, fun hp => hp j rfl⟩
    rw [← Option.some.inj hj']
    exact hp

/-- Every field that `configure` reads has the type that it asks for. -/
structure Configurable (cfg : Json) : Prop where
  schedules : Readable cfg "schedules" readSchedule
  voiceModem : ∀ vm, cfg.member "voice_modem" isObject = some vm → Typed vm voiceModemFields
  tts : TtsTyped cfg
  sip : ∀ s, cfg.member "sip" isObject = some s → Typed s sipFields
  audio : ∀ a, cfg.member "audio" isObject = some a → Typed a [("output_device", .string)]
  smtp : ∀ s, cfg.member "smtp" isObject = some s → Typed s smtpFields
  contacts : Readable cfg "contacts" readContact
  contactGroups : Readable cfg "contact_groups" readContactGroup
  policies : Readable cfg "policies" readPolicy
  assignments : Readable cfg "assignments" readAssignment
  alarmGroups : Readable cfg "alarm_groups" readAlarmGroup
  routes : Readable cfg "routes" readRoute

/-- **`configure` throws exactly for documents with a field of the wrong type.** -/
theorem configure_ok_iff (m : NotificationManager) {cfg : Json} (hcfg : cfg.isObject = true) :
    (m.configure cfg).1 = .ok () ↔ Configurable cfg := by
  have haccepts : Accepts (configureTables m.configDir cfg) (Configurable cfg) := by
    refine accepts_modify_then ?_
    rw [if_pos hcfg]
    refine accepts_congr (accepts_then
      (forItems_accepts readSchedule cfg _ (fun _ => rfl) fun _ => accepts_when _ _) <|
      accepts_modify_then <| accepts_then
      (forObject_accepts cfg _ fun _ => configureVoiceModem_accepts) <| accepts_then
      (configureTts_accepts cfg) <| accepts_modify_then <| accepts_then
      (forObject_accepts cfg _ fun _ => configureSip_accepts) <| accepts_then
      (forObject_accepts cfg _ fun _ => configureAudio_accepts m.configDir) <|
      accepts_modify_then <| accepts_then
      (forObject_accepts cfg _ fun _ => configureSmtp_accepts) <| accepts_then
      (forItems_accepts readContact cfg _ (fun _ => rfl) fun _ => accepts_when _ _) <| accepts_then
      (forItems_accepts readContactGroup cfg _ (fun _ => rfl) fun _ => accepts_when _ _) <| accepts_then
      (forItems_accepts readPolicy cfg _ (fun _ => rfl) fun _ => accepts_when _ _) <| accepts_then
      (forItems_accepts readAssignment cfg _ (fun _ => rfl) fun _ => accepts_when _ _) <| accepts_then
      (forItems_accepts readAlarmGroup cfg _ (fun _ => rfl) fun _ => accepts_when _ _)
      (forItems_accepts readRoute cfg _ (fun _ => rfl) fun _ => accepts_when _ _)) ?_
    exact ⟨fun ⟨h1, h2, h3, h4, h5, h6, h7, h8, h9, h10, h11, h12⟩ =>
        ⟨h1, h2, h3, h4, h5, h6, h7, h8, h9, h10, h11, h12⟩,
      fun h => ⟨h.schedules, h.voiceModem, h.tts, h.sip, h.audio, h.smtp, h.contacts,
        h.contactGroups, h.policies, h.assignments, h.alarmGroups, h.routes⟩⟩
  have h := haccepts m.config
  refine ⟨fun hok => h.1 ⟨(), hok⟩, fun hc => ?_⟩
  obtain ⟨a, ha⟩ := h.2 hc
  exact ha

end OpcBridge.Alarms
