import OpcBridge.Alarms.Configured

/-!
# Policies after the normalisation

A policy without steps goes through `notification_config_from_root` into a new object, field by field,
and `configure` reads that object; the policy can also be configured as it is. `PolicyFields` lists
what `configure` reads from an object, `NormalisedPolicy` what the new object has under each of these
keys. `policy_kept_iff` says for which policies the two ways end with the same `Policy`.
-/

namespace OpcBridge.Alarms

open OpcBridge Lib Json

section
variable [Floats] [JsonLib]

/-! ## What `configure` reads -/

/-- The repeat settings: the `repeat` object goes before the fields of the policy. -/
def configuredRepeat (item : Json) : Except String RepeatFields := do
  let repeatMs ← item.valueLong "repeat_ms" 0
  let initialDelayMs ← item.valueLong "repeat_initial_delay_ms" 0
  let maxRepeats ← item.valueInt "max_repeats" 0
  let until_ ← item.valueString "until" "acked_or_returned"
  match item.member "repeat" isObject with
  | none => return { repeatMs, initialDelayMs, maxRepeats, until_ }
  | some rep =>
    let enabled ← rep.valueBool "enabled" false
    let repeatMs ←
      if enabled then do
        let interval ← rep.valueLong "interval_ms" 60000
        pure (max 1 interval)
      else pure 0
    let initialDelayMs ← rep.valueLong "initial_delay_ms" 0
    let maxRepeats ← rep.valueLong "max_repeats" 0
    let until_ ← rep.valueString "stop_on" until_
    return { repeatMs := repeatMs, initialDelayMs := max 0 initialDelayMs,
             maxRepeats := clamp 0 1000000 (Int32.ofInt maxRepeats).toInt, until_ := until_ }

def policyEventsOf (item : Json) : List String :=
  (((item.memberItems "on").or (item.memberItems "triggers")).map stringItems).getD ["active"]

def ackEnabledOf (item : Json) : Bool :=
  match item.find "ack_enabled" with
  | some (.bool b) => b
  | _ => true

def defaultTargets (contacts contactGroups : List String) : List PolicyTarget :=
  contacts.map (fun id => { type := "contact", id, method := "cell" }) ++
    contactGroups.map fun id => { type := "group", id, method := "cell" }

/-- The policy that `configure` makes of an object. -/
structure PolicyFields (item : Json) (r : Policy) : Prop where
  id : item.valueString "id" "" = .ok r.id
  name : item.valueString "name" r.id = .ok r.name
  outputType : ∃ type output, item.valueString "type" "phone" = .ok type ∧
    item.valueString "output_type" type = .ok output ∧
    r.outputType = if output = "voice" then "phone" else output
  callBackend : ∃ backend, item.valueString "call_backend" "auto" = .ok backend ∧
    r.callBackend = if backend ∈ ["auto", "sip", "voice_modem"] then backend else "auto"
  enabled : item.valueBool "enabled" true = .ok r.enabled
  minSeverity : item.valueInt "min_severity" 0 = .ok r.minSeverity
  repetition : configuredRepeat item =
    .ok ⟨r.repeatMs, r.repeatInitialDelayMs, r.maxRepeats, r.until_⟩
  scheduleId : item.valueString "schedule_id" "always" = .ok r.scheduleId
  audioDelaySeconds : clampedMember item "audio_delay_seconds" 0 120 (-1) = .ok r.audioDelaySeconds
  audioGapMs : clampedMember item "audio_gap_ms" 0 5000 (-1) = .ok r.audioGapMs
  contacts : r.contacts = stringItems (itemsOf item "contacts")
  contactGroups : r.contactGroups = stringItems (itemsOf item "contact_groups")
  targets : ∃ targets, (itemsOf item "targets").mapM readPolicyTarget = .ok targets ∧
    r.targets = if targets.flatten.isEmpty then defaultTargets r.contacts r.contactGroups
      else targets.flatten
  on : r.on = policyEventsOf item
  ackEnabled : r.ackEnabled = ackEnabledOf item
  ackDtmf : ∃ keys, readAckDtmf item ["1"] = .ok keys ∧ r.ackDtmf = if r.ackEnabled then keys else []
  ackWaitSec : ∃ sec, clampedMember item "ack_wait_sec" 0 120 8 = .ok sec ∧
    r.ackWaitSec = if r.ackEnabled then sec else 0
  ringTimeoutSec : clampedMember item "ring_timeout_sec" 5 600 15 = .ok r.ringTimeoutSec
  emailSubjectTemplate : item.valueString "email_subject_template" "" = .ok r.emailSubjectTemplate
  emailActiveBodyTemplate :
    item.valueString "email_active_body_template" "" = .ok r.emailActiveBodyTemplate
  emailClearBodyTemplate :
    item.valueString "email_clear_body_template" "" = .ok r.emailClearBodyTemplate

omit [JsonLib] in
theorem ackEnabled_ok {item : Json} {f : Bool → Except String Policy} {r : Policy}
    (h : (match item.member "ack_enabled" isBoolean with
      | none => pure true >>= f
      | some v => v.getBool >>= f) = Except.ok r) : f (ackEnabledOf item) = .ok r := by
  unfold member at h
  unfold ackEnabledOf
  cases hfind : item.find "ack_enabled" with
  | none =>
    rw [hfind] at h
    exact h
  | some v =>
    rw [hfind] at h
    cases v <;> exact h

/-- `readRepeat` changes the repeat settings to the configured ones. -/
theorem readRepeat_ok {item : Json} {p₀ p : Policy} (h : readRepeat item p₀ = .ok p)
    (hrepeatMs : item.valueLong "repeat_ms" 0 = .ok p₀.repeatMs)
    (hinitial : item.valueLong "repeat_initial_delay_ms" 0 = .ok p₀.repeatInitialDelayMs)
    (hmax : item.valueInt "max_repeats" 0 = .ok p₀.maxRepeats)
    (huntil : item.valueString "until" "acked_or_returned" = .ok p₀.until_) :
    configuredRepeat item = .ok ⟨p.repeatMs, p.repeatInitialDelayMs, p.maxRepeats, p.until_⟩ ∧
      p = { p₀ with
        repeatMs := p.repeatMs, repeatInitialDelayMs := p.repeatInitialDelayMs
        maxRepeats := p.maxRepeats, until_ := p.until_ } := by
  unfold configuredRepeat
  rw [hrepeatMs, hinitial, hmax, huntil]
  unfold readRepeat at h
  cases hm : item.member "repeat" isObject with
  | none =>
    rw [hm] at h
    obtain rfl := Except.ok.inj h
    exact ⟨rfl, rfl⟩
  | some rep =>
    rw [hm] at h
    obtain ⟨enabled, henabled, h⟩ := ok_of_bind h
    dsimp only [bind, Except.bind]
    rw [henabled]
    cases enabled with
    | false =>
      obtain ⟨repeatMs, hms, h⟩ := ok_of_bind h
      obtain rfl := Except.ok.inj hms
      obtain ⟨delay, hdelay, h⟩ := ok_of_bind h
      obtain ⟨count, hcount, h⟩ := ok_of_bind h
      obtain ⟨stop, hstop, h⟩ := ok_of_bind h
      obtain rfl := Except.ok.inj h
      rw [hdelay, hcount, hstop]
      exact ⟨rfl, rfl⟩
    | true =>
      obtain ⟨interval, hinterval, h⟩ := ok_of_bind h
      rw [hinterval]
      obtain ⟨repeatMs, hms, h⟩ := ok_of_bind h
      obtain rfl := Except.ok.inj hms
      obtain ⟨delay, hdelay, h⟩ := ok_of_bind h
      obtain ⟨count, hcount, h⟩ := ok_of_bind h
      obtain ⟨stop, hstop, h⟩ := ok_of_bind h
      obtain rfl := Except.ok.inj h
      rw [hdelay, hcount, hstop]
      exact ⟨rfl, rfl⟩

theorem readPolicy_ok {item : Json} {r : Policy} (h : readPolicy item = .ok r) : PolicyFields item r := by
  unfold readPolicy at h
  obtain ⟨id, hid, h⟩ := ok_of_bind h
  obtain ⟨name, hname, h⟩ := ok_of_bind h
  obtain ⟨type, htype, h⟩ := ok_of_bind h
  obtain ⟨output, houtput, h⟩ := ok_of_bind h
  obtain ⟨backend, hbackend, h⟩ := ok_of_bind h
  obtain ⟨enabled, henabled, h⟩ := ok_of_bind h
  obtain ⟨minSeverity, hseverity, h⟩ := ok_of_bind h
  obtain ⟨repeatMs, hrepeatMs, h⟩ := ok_of_bind h
  obtain ⟨initialDelayMs, hinitial, h⟩ := ok_of_bind h
  obtain ⟨maxRepeats, hmax, h⟩ := ok_of_bind h
  obtain ⟨until_, huntil, h⟩ := ok_of_bind h
  obtain ⟨p, hp, h⟩ := ok_of_bind h
  obtain ⟨scheduleId, hschedule, h⟩ := ok_of_bind h
  obtain ⟨audioDelay, haudioDelay, h⟩ := ok_of_bind h
  obtain ⟨audioGap, haudioGap, h⟩ := ok_of_bind h
  obtain ⟨targets, htargets, h⟩ := ok_of_bind h
  replace h := ackEnabled_ok h
  obtain ⟨ackDtmf, hackDtmf, h⟩ := ok_of_bind h
  obtain ⟨ackWait, hackWait, h⟩ := ok_of_bind h
  obtain ⟨ringTimeout, hring, h⟩ := ok_of_bind h
  obtain ⟨subject, hsubject, h⟩ := ok_of_bind h
  obtain ⟨active, hactive, h⟩ := ok_of_bind h
  obtain ⟨clear, hclear, h⟩ := ok_of_bind h
  obtain rfl := Except.ok.inj h
  obtain ⟨hrep, hkept⟩ := readRepeat_ok hp hrepeatMs hinitial hmax huntil
  have hpid : id = p.id := by rw [hkept]
  have hpname : name = p.name := by rw [hkept]
  have hpenabled : enabled = p.enabled := by rw [hkept]
  have hpseverity : minSeverity = p.minSeverity := by rw [hkept]
  subst hpid hpname hpenabled hpseverity
  exact {
    id := hid
    name := hname
    outputType := ⟨type, output, htype, houtput, by rw [hkept]⟩
    callBackend := ⟨backend, hbackend, by rw [hkept]⟩
    enabled := henabled
    minSeverity := hseverity
    repetition := hrep
    scheduleId := hschedule
    audioDelaySeconds := haudioDelay
    audioGapMs := haudioGap
    contacts := rfl
    contactGroups := rfl
    targets := ⟨targets, htargets, rfl⟩
    on := rfl
    ackEnabled := rfl
    ackDtmf := ⟨ackDtmf, hackDtmf, rfl⟩
    ackWaitSec := ⟨ackWait, hackWait, rfl⟩
    ringTimeoutSec := hring
    emailSubjectTemplate := hsubject
    emailActiveBodyTemplate := hactive
    emailClearBodyTemplate := hclear }

/-! ## What the new object has -/

omit [JsonLib] in
theorem lookup_ite (c : Prop) [Decidable c] (key k : String) (v : Json) :
    (if c then [(key, v)] else []).lookup k = if c ∧ k = key then some v else none := by
  by_cases hc : c
  · rw [if_pos hc]
    by_cases hk : k = key
    · simp [hc, hk]
    · have hne : (k == key) = false := beq_eq_false_iff_ne.2 hk
      simp [List.lookup_cons, hne, hk]
  · simp [hc]

/-- The object that a policy without steps becomes. -/
structure NormalisedPolicy (p q : Json) (policyId : String) (enabled : Bool) (triggers : List String)
    (rep : RepeatFields) (scheduleId : String) : Prop where
  isObject : q.isObject = true
  id : q.find "id" = some (.string policyId)
  name : ∃ name, p.valueString "name" policyId = .ok name ∧ q.find "name" = some (.string name)
  enabled : q.find "enabled" = some (.bool enabled)
  minSeverity : ∃ n, p.valueInt "min_severity" 0 = .ok n ∧ q.find "min_severity" = some (.int n)
  on : q.find "on" = some (jsonStrings triggers)
  scheduleId : q.find "schedule_id" = some (.string scheduleId)
  outputType : ∃ type output, p.valueString "type" "phone" = .ok type ∧
    p.valueString "output_type" type = .ok output ∧
    q.find "output_type" = some (.string (if output = "voice" then "phone" else output))
  arrays : ∀ key ∈ ["contacts", "contact_groups", "targets"], q.find key = p.member key isArray
  texts : ∀ key ∈ ["call_backend", "email_subject_template", "email_active_body_template",
    "email_clear_body_template"], q.find key = p.member key isString
  integers : ∀ key ∈ ["ack_wait_sec", "ring_timeout_sec", "audio_delay_seconds", "audio_gap_ms"],
    q.find key = p.member key isNumberInteger
  ackDtmf : q.find "ack_dtmf" = p.find "ack_dtmf"
  repeatMs : q.find "repeat_ms" = if 0 < rep.repeatMs then some (.int rep.repeatMs) else none
  initialDelayMs : q.find "repeat_initial_delay_ms" =
    if 0 < rep.initialDelayMs then some (.int rep.initialDelayMs) else none
  maxRepeats : q.find "max_repeats" = if 0 < rep.maxRepeats then some (.int rep.maxRepeats) else none
  until_ : q.find "until" = some (.string rep.until_)
  absent : ∀ key ∈ ["type", "triggers", "repeat", "ack_enabled"], q.find key = none

theorem simplePolicy_ok {p q : Json} {policyId : String} {enabled : Bool} {triggers : List String}
    {rep : RepeatFields} {scheduleId : String}
    (h : simplePolicy p policyId enabled triggers rep scheduleId = .ok q) :
    NormalisedPolicy p q policyId enabled triggers rep scheduleId := by
  unfold simplePolicy at h
  obtain ⟨name, hname, h⟩ := ok_of_bind h
  obtain ⟨minSeverity, hseverity, h⟩ := ok_of_bind h
  obtain ⟨type, htype, h⟩ := ok_of_bind h
  obtain ⟨output, houtput, h⟩ := ok_of_bind h
  replace h := Except.ok.inj h
  have hcopy : p.member "ack_dtmf" (fun _ => true) = p.find "ack_dtmf" := by
    unfold member
    cases p.find "ack_dtmf" <;> rfl
  have hfind := fun key => congrArg (fun j => find j key) h
  simp only [find_object, List.lookup_append, lookup_flatMap_copied, lookup_copied_self, lookup_ite]
    at hfind
  refine ⟨by rw [← h]; rfl, ?_, ⟨name, hname, ?_⟩, ?_, ⟨minSeverity, hseverity, ?_⟩, ?_, ?_,
    ⟨type, output, htype, houtput, ?_⟩, ?_, ?_, ?_, ?_, ?_, ?_, ?_, ?_, ?_⟩
  · rw [← hfind]
    simp [List.lookup_cons]
  · rw [← hfind]
    simp [List.lookup_cons]
  · rw [← hfind]
    simp [List.lookup_cons]
  · rw [← hfind]
    simp [List.lookup_cons]
  · rw [← hfind]
    simp [List.lookup_cons]
  · rw [← hfind]
    simp [List.lookup_cons]
  · rw [← hfind]
    simp [List.lookup_cons]
  · intro key hkey
    simp only [List.mem_cons, List.not_mem_nil, or_false] at hkey
    rcases hkey with rfl | rfl | rfl <;> · rw [← hfind]; simp [List.lookup_cons]
  · intro key hkey
    simp only [List.mem_cons, List.not_mem_nil, or_false] at hkey
    rcases hkey with rfl | rfl | rfl | rfl <;> · rw [← hfind]; simp [List.lookup_cons]
  · intro key hkey
    simp only [List.mem_cons, List.not_mem_nil, or_false] at hkey
    rcases hkey with rfl | rfl | rfl | rfl <;> · rw [← hfind]; simp [List.lookup_cons]
  · rw [← hfind, ← hcopy]
    simp [List.lookup_cons]
  · rw [← hfind]
    simp [List.lookup_cons]
  · rw [← hfind]
    simp [List.lookup_cons]
  · rw [← hfind]
    simp [List.lookup_cons]
  · rw [← hfind]
    simp [List.lookup_cons]
  · intro key hkey
    simp only [List.mem_cons, List.not_mem_nil, or_false] at hkey
    rcases hkey with rfl | rfl | rfl | rfl <;> · rw [← hfind]; simp [List.lookup_cons]

/-! ## The repeat settings -/

omit [Floats] [JsonLib] in
theorem clamp_range (n : Int) : 0 ≤ clamp 0 1000000 n ∧ clamp 0 1000000 n ≤ 1000000 := by
  unfold clamp
  omega

omit [Floats] [JsonLib] in
theorem int32_of_range {n : Int} (hlow : -2147483648 ≤ n) (hhigh : n ≤ 2147483647) :
    (Int32.ofInt n).toInt = n := Int32.toInt_ofInt_of_le (by omega) (by omega)

/-- A number of the policy as the normalisation takes it. -/
theorem number_ok {p : Json} {key : String} {n k : Int} (hn : p.valueLong key 0 = .ok n)
    (hk : (match p.member key isNumber with
      | some v => (do
        let n ← v.getLong
        return max 0 n)
      | none => pure 0) = Except.ok k) :
    0 ≤ k ∧ (n = k ↔ p.find key ≠ some (.bool true) ∧ 0 ≤ n) := by
  have hvalue := value_ok hn
  unfold valueOr at hvalue
  unfold member at hk
  cases hfind : p.find key with
  | none =>
    rw [hfind] at hk hvalue
    obtain rfl : (0 : Int) = k := Except.ok.inj hk
    obtain rfl : n = 0 := hvalue
    exact ⟨le_refl 0, iff_of_true rfl ⟨by simp, le_refl 0⟩⟩
  | some v =>
    have hget : v.getLong = .ok n := get_of_value_ok hn hfind
    rw [hfind] at hk
    cases v with
    | bool b =>
      obtain rfl : (0 : Int) = k := Except.ok.inj hk
      obtain rfl : (if b then 1 else 0) = n := Except.ok.inj hget
      cases b <;> simp
    | int m =>
      obtain rfl : m = n := Except.ok.inj hget
      obtain rfl : max 0 m = k := Except.ok.inj hk
      simp
    | uint m =>
      obtain rfl : _ = n := Except.ok.inj hget
      obtain rfl : max 0 _ = k := Except.ok.inj hk
      simp
    | float x =>
      obtain rfl : _ = n := Except.ok.inj hget
      obtain rfl : max 0 _ = k := Except.ok.inj hk
      simp
    | _ => cases hget

/-- `max_repeats` is an integer that the limits leave alone, or it says nothing. -/
def CountKept (p : Json) : Prop :=
  if (p.member "max_repeats" isNumberInteger).isSome then
    0 ≤ valueOr getInt p "max_repeats" 0 ∧ valueOr getInt p "max_repeats" 0 ≤ 1000000
  else valueOr getInt p "max_repeats" 0 = 0

/-- `max_repeats` as the normalisation takes it, before the limits. -/
def CountRead (p : Json) (k : Int) : Prop :=
  match p.member "max_repeats" isNumberInteger with
  | some v => v.getInt = .ok k
  | none => k = 0

theorem count_ok {p : Json} {n k : Int} (hn : p.valueInt "max_repeats" 0 = .ok n)
    (hk : CountRead p k) : n = maxRepeatsIn k ↔ CountKept p := by
  unfold CountKept
  rw [← value_ok hn]
  unfold CountRead member at hk
  unfold member
  cases hfind : p.find "max_repeats" with
  | none =>
    rw [hfind] at hk
    obtain rfl : k = 0 := hk
    exact Iff.rfl
  | some v =>
    have hget : v.getInt = .ok n := get_of_value_ok hn hfind
    rw [hfind] at hk
    have hinteger : ∀ m, (Except.ok n : Except String Int) = .ok m →
        (n = maxRepeatsIn m ↔ 0 ≤ n ∧ n ≤ 1000000) := fun m hm => by
      obtain rfl := Except.ok.inj hm
      unfold maxRepeatsIn
      omega
    cases v with
    | int m => exact hinteger k (hget.symm.trans hk)
    | uint m => exact hinteger k (hget.symm.trans hk)
    | _ =>
      obtain rfl : k = 0 := hk
      exact Iff.rfl

def UntilRead (p : Json) (s : String) : Prop :=
  match p.member "until" isString with
  | some v => v.getString = .ok s
  | none => s = "acked_or_returned"

omit [JsonLib] in
theorem until_ok {p : Json} {s s' : String} (h : p.valueString "until" "acked_or_returned" = .ok s)
    (h' : UntilRead p s') : s = s' := by
  unfold UntilRead member at h'
  cases hfind : p.find "until" with
  | none =>
    rw [hfind] at h'
    rw [(h' : s' = _), value_ok h, valueOr, hfind]
  | some v =>
    have hget := get_of_value_ok h hfind
    rw [hfind] at h'
    cases v with
    | string text => exact Except.ok.inj (hget.symm.trans h')
    | _ => cases hget

omit [JsonLib] in
/-- The default of the stop condition is the field `until` for `configure`, and a constant for the
normalisation. -/
theorem stop_iff {p obj : Json} {s u u' : String}
    (hs : p.valueString "until" "acked_or_returned" = .ok s)
    (hu : obj.valueString "stop_on" s = .ok u)
    (hu' : obj.valueString "stop_on" "acked_or_returned" = .ok u') :
    u = u' ↔ (obj.find "stop_on" = none →
      p.find "until" = none ∨ p.find "until" = some (.string "acked_or_returned")) := by
  cases hfind : obj.find "stop_on" with
  | some v =>
    refine iff_of_true ?_ fun h => by cases h
    exact Except.ok.inj ((get_of_value_ok hu hfind).symm.trans (get_of_value_ok hu' hfind))
  | none =>
    rw [value_ok hu, value_ok hu', valueOr, valueOr, hfind]
    show s = _ ↔ _
    cases huntil : p.find "until" with
    | none =>
      rw [value_ok hs, valueOr, huntil]
      exact iff_of_true rfl fun _ => .inl rfl
    | some v =>
      have hget := get_of_value_ok hs huntil
      cases v with
      | string text =>
        obtain rfl : text = s := Except.ok.inj hget
        simp
      | _ => cases hget

/-- The repeat settings are taken as they are. -/
def RepeatKept (p : Json) : Prop :=
  match p.member "repeat" isObject with
  | some rep => rep.find "stop_on" = none →
      p.find "until" = none ∨ p.find "until" = some (.string "acked_or_returned")
  | none => (∀ key ∈ ["repeat_ms", "repeat_initial_delay_ms"],
      p.find key ≠ some (.bool true) ∧ 0 ≤ valueOr getLong p key 0) ∧ CountKept p

/-- After the interval, a `repeat` object is read in the same way but for the stop condition. -/
theorem repeatObject_iff {p obj : Json} {s : String} {ms : Int} {a rep : RepeatFields}
    (hs : p.valueString "until" "acked_or_returned" = .ok s) (hms : 0 ≤ ms)
    (ha : (do
      let initialDelayMs ← obj.valueLong "initial_delay_ms" 0
      let maxRepeats ← obj.valueLong "max_repeats" 0
      let until_ ← obj.valueString "stop_on" s
      return { repeatMs := ms, initialDelayMs := max 0 initialDelayMs,
               maxRepeats := clamp 0 1000000 (Int32.ofInt maxRepeats).toInt,
               until_ := until_ }) = Except.ok a)
    (hrep : (do
      let initialDelayMs ← obj.valueLong "initial_delay_ms" 0
      let maxRepeats ← obj.valueLong "max_repeats" 0
      let until_ ← obj.valueString "stop_on" "acked_or_returned"
      return { repeatMs := ms, initialDelayMs := max 0 initialDelayMs,
               maxRepeats := maxRepeatsIn (Int32.ofInt maxRepeats).toInt,
               until_ := until_ }) = Except.ok rep) :
    (0 ≤ rep.repeatMs ∧ 0 ≤ rep.initialDelayMs ∧ 0 ≤ rep.maxRepeats ∧ rep.maxRepeats ≤ 1000000) ∧
      (a = rep ↔ (obj.find "stop_on" = none →
        p.find "until" = none ∨ p.find "until" = some (.string "acked_or_returned"))) := by
  obtain ⟨delay, hdelay, ha⟩ := ok_of_bind ha
  obtain ⟨delay', hdelay', hrep⟩ := ok_of_bind hrep
  obtain rfl := Except.ok.inj (hdelay.symm.trans hdelay')
  obtain ⟨count, hcount, ha⟩ := ok_of_bind ha
  obtain ⟨count', hcount', hrep⟩ := ok_of_bind hrep
  obtain rfl := Except.ok.inj (hcount.symm.trans hcount')
  obtain ⟨u, hu, ha⟩ := ok_of_bind ha
  obtain ⟨u', hu', hrep⟩ := ok_of_bind hrep
  obtain rfl := Except.ok.inj ha
  obtain rfl := Except.ok.inj hrep
  refine ⟨⟨hms, le_max_left 0 delay, clamp_range _⟩, ?_⟩
  rw [← stop_iff hs hu hu', RepeatFields.mk.injEq]
  exact ⟨fun h => h.2.2.2, fun h => ⟨rfl, rfl, rfl, h⟩⟩

theorem repeatFields_ok {p : Json} {a rep : RepeatFields} (ha : configuredRepeat p = .ok a)
    (hrep : repeatFields p = .ok rep) :
    (0 ≤ rep.repeatMs ∧ 0 ≤ rep.initialDelayMs ∧ 0 ≤ rep.maxRepeats ∧ rep.maxRepeats ≤ 1000000) ∧
      (a = rep ↔ RepeatKept p) := by
  unfold configuredRepeat at ha
  unfold repeatFields at hrep
  obtain ⟨n₁, hn₁, ha⟩ := ok_of_bind ha
  obtain ⟨n₂, hn₂, ha⟩ := ok_of_bind ha
  obtain ⟨n₃, hn₃, ha⟩ := ok_of_bind ha
  obtain ⟨s, hs, ha⟩ := ok_of_bind ha
  unfold RepeatKept
  cases hm : p.member "repeat" isObject with
  | none =>
    rw [hm] at ha hrep
    obtain rfl := Except.ok.inj ha
    dsimp only at hrep
    obtain ⟨k₁, hk₁, hrep⟩ := ok_of_bind hrep
    obtain ⟨k₂, hk₂, hrep⟩ := ok_of_bind hrep
    have hrest : ∃ k₃ s', CountRead p k₃ ∧ UntilRead p s' ∧ rep = ⟨k₁, k₂, maxRepeatsIn k₃, s'⟩ := by
      unfold CountRead UntilRead
      cases hmax : p.member "max_repeats" isNumberInteger <;>
        cases huntil : p.member "until" isString
      all_goals
        rw [hmax] at hrep
        obtain ⟨k₃, hk₃, hrep⟩ := ok_of_bind hrep
        rw [huntil] at hrep
        obtain ⟨s', hs', hrep⟩ := ok_of_bind hrep
        exact ⟨k₃, s', by first | exact hk₃ | exact (Except.ok.inj hk₃).symm,
          by first | exact hs' | exact (Except.ok.inj hs').symm, (Except.ok.inj hrep).symm⟩
    obtain ⟨k₃, s', hk₃, hs', rfl⟩ := hrest
    obtain ⟨hlow₁, hiff₁⟩ := number_ok hn₁ hk₁
    obtain ⟨hlow₂, hiff₂⟩ := number_ok hn₂ hk₂
    have hiff₃ := count_ok hn₃ hk₃
    obtain rfl := until_ok hs hs'
    rw [value_ok hn₁] at hiff₁ ⊢
    rw [value_ok hn₂] at hiff₂ ⊢
    refine ⟨⟨hlow₁, hlow₂, (clamp_range k₃).1, (clamp_range k₃).2⟩, ?_⟩
    rw [RepeatFields.mk.injEq, hiff₁, hiff₂, hiff₃]
    simp only [List.forall_mem_cons, List.not_mem_nil, false_implies, implies_true, and_true]
    exact (and_assoc).symm
  | some obj =>
    rw [hm] at ha hrep
    obtain ⟨enabled, henabled, ha⟩ := ok_of_bind ha
    obtain ⟨enabled', henabled', hrep⟩ := ok_of_bind hrep
    obtain rfl := Except.ok.inj (henabled.symm.trans henabled')
    -- the same reads on both sides up to the stop condition
    cases enabled with
    | false =>
      obtain ⟨ms, hms, ha⟩ := ok_of_bind ha
      obtain ⟨ms', hms', hrep⟩ := ok_of_bind hrep
      obtain rfl := Except.ok.inj hms
      obtain rfl := Except.ok.inj hms'
      exact repeatObject_iff hs (le_refl 0) ha hrep
    | true =>
      obtain ⟨interval, hinterval, ha⟩ := ok_of_bind ha
      obtain ⟨interval', hinterval', hrep⟩ := ok_of_bind hrep
      obtain rfl := Except.ok.inj (hinterval.symm.trans hinterval')
      obtain ⟨ms, hms, ha⟩ := ok_of_bind ha
      obtain ⟨ms', hms', hrep⟩ := ok_of_bind hrep
      obtain rfl := Except.ok.inj hms
      obtain rfl := Except.ok.inj hms'
      exact repeatObject_iff hs (by omega) ha hrep

omit [JsonLib] in
/-- A positive integer that was put into an object, or the default 0. -/
theorem positive_field {q : Json} {key : String} {n : Int} {get : Json → Except String Int}
    (hq : q.isObject = true) (hfind : q.find key = if 0 < n then some (.int n) else none) (hn : 0 ≤ n)
    (hget : get (.int n) = .ok n) : value get q key 0 = .ok n := by
  rw [value_of_isObject get hq, hfind]
  by_cases hpos : 0 < n
  · rw [if_pos hpos]
    exact hget
  · rw [if_neg hpos]
    obtain rfl : n = 0 := by omega
    rfl

section
variable {p q : Json} {policyId : String} {enabled : Bool} {triggers : List String}
  {rep : RepeatFields} {scheduleId : String}
  (hn : NormalisedPolicy p q policyId enabled triggers rep scheduleId)
include hn

theorem NormalisedPolicy.find_value {α : Type} {get : Json → Except String α} {key : String} {v : Json}
    (hfind : q.find key = some v) (default : α) : value get q key default = get v := by
  rw [value_of_isObject get hn.isObject, hfind]

theorem NormalisedPolicy.find_string {key text : String} (hfind : q.find key = some (.string text))
    (default : String) : q.valueString key default = .ok text := hn.find_value hfind default

/-- The repeat settings come back. -/
theorem NormalisedPolicy.configuredRepeat_eq
    (hrange : 0 ≤ rep.repeatMs ∧ 0 ≤ rep.initialDelayMs ∧ 0 ≤ rep.maxRepeats ∧
      rep.maxRepeats ≤ 1000000) : configuredRepeat q = .ok rep := by
  obtain ⟨hms, hdelay, hlow, hhigh⟩ := hrange
  have hint : getInt (.int rep.maxRepeats) = .ok rep.maxRepeats :=
    congrArg Except.ok (int32_of_range (by omega) (by omega))
  have hrepeat : q.member "repeat" Json.isObject = none := by
    unfold member
    rw [hn.absent "repeat" (by simp)]
    rfl
  have h₁ : q.valueLong "repeat_ms" 0 = .ok rep.repeatMs :=
    positive_field hn.isObject hn.repeatMs hms rfl
  have h₂ : q.valueLong "repeat_initial_delay_ms" 0 = .ok rep.initialDelayMs :=
    positive_field hn.isObject hn.initialDelayMs hdelay rfl
  have h₃ : q.valueInt "max_repeats" 0 = .ok rep.maxRepeats :=
    positive_field hn.isObject hn.maxRepeats hlow hint
  have h₄ : q.valueString "until" "acked_or_returned" = .ok rep.until_ := hn.find_string hn.until_ _
  unfold configuredRepeat
  rw [h₁, h₂, h₃, h₄, hrepeat]
  rfl

/-- A text that could be read is copied. -/
theorem NormalisedPolicy.text_eq {key default s s' : String}
    (hkey : key ∈ ["call_backend", "email_subject_template", "email_active_body_template",
      "email_clear_body_template"]) (h : p.valueString key default = .ok s)
    (h' : q.valueString key default = .ok s') : s = s' := by
  have hfind : q.find key = p.find key := by
    rw [hn.texts key hkey]
    unfold member
    cases hv : p.find key with
    | none => rfl
    | some v =>
      have hget := get_of_value_ok h hv
      cases v with
      | string text => rfl
      | _ => cases hget
  rw [value_ok h, value_ok h', valueOr_congr getString hfind]

theorem NormalisedPolicy.clampedMember_eq {key : String} {low high default : Int}
    (hkey : key ∈ ["ack_wait_sec", "ring_timeout_sec", "audio_delay_seconds", "audio_gap_ms"]) :
    clampedMember q key low high default = clampedMember p key low high default := by
  have hmember : q.member key isNumberInteger = p.member key isNumberInteger := by
    unfold member at *
    rw [hn.integers key hkey, member, Option.filter_filter]
    simp
  unfold clampedMember
  rw [hmember]

theorem NormalisedPolicy.items_eq {key : String}
    (hkey : key ∈ ["contacts", "contact_groups", "targets"]) : itemsOf q key = itemsOf p key := by
  unfold itemsOf memberItems
  rw [hn.arrays key hkey]
  unfold member
  cases p.find key with
  | none => rfl
  | some v => cases v <;> rfl

end

/-! ## Policies -/

/-- The events of a policy are those under `on`, or else under `triggers`; the normalisation asks the
other way round, and takes an empty list for a missing one. -/
def EventsKept (p : Json) : Prop :=
  match p.memberItems "on", p.memberItems "triggers" with
  | none, none => True
  | none, some triggers => triggers ≠ []
  | some on, some (trigger :: triggers) => stringItems on = stringItems (trigger :: triggers)
  | some on, _ => on ≠ []

omit [JsonLib] in
theorem events_iff (p : Json) : policyEventsOf p = triggersOf p ["triggers", "on"] ↔ EventsKept p := by
  unfold policyEventsOf EventsKept triggersOf triggersOf triggersOf
  cases p.memberItems "on" with
  | none =>
    cases p.memberItems "triggers" with
    | none => exact iff_of_true rfl trivial
    | some triggers => cases triggers <;> simp [stringItems]
  | some on =>
    cases p.memberItems "triggers" with
    | none => cases on <;> simp [stringItems]
    | some triggers =>
      cases triggers with
      | nil => cases on <;> simp [stringItems]
      | cons t ts => simp

/-- The policies that come out of the normalisation as they are. -/
structure PolicyKept (p : Json) : Prop where
  /-- Without one of these keys a policy is dropped. -/
  shape : ["output_type", "on", "contact_groups", "contacts"].any p.contains = true
  /-- `ack_enabled` is not copied. -/
  ackEnabled : p.find "ack_enabled" ≠ some (.bool false)
  scheduleId : p.find "schedule_id" ≠ some (.string "")
  events : EventsKept p
  repetition : RepeatKept p

omit [Floats] [JsonLib] in
/-- The fields that the normalisation never changes. -/
theorem policy_ext {r r' : Policy} (hid : r.id = r'.id) (hname : r.name = r'.name)
    (houtput : r.outputType = r'.outputType) (hbackend : r.callBackend = r'.callBackend)
    (henabled : r.enabled = r'.enabled) (hseverity : r.minSeverity = r'.minSeverity)
    (htargets : r.targets = r'.targets) (hcontacts : r.contacts = r'.contacts)
    (hgroups : r.contactGroups = r'.contactGroups) (hdelay : r.audioDelaySeconds = r'.audioDelaySeconds)
    (hgap : r.audioGapMs = r'.audioGapMs) (hring : r.ringTimeoutSec = r'.ringTimeoutSec)
    (hsubject : r.emailSubjectTemplate = r'.emailSubjectTemplate)
    (hactive : r.emailActiveBodyTemplate = r'.emailActiveBodyTemplate)
    (hclear : r.emailClearBodyTemplate = r'.emailClearBodyTemplate) :
    r = r' ↔ r.on = r'.on ∧ r.scheduleId = r'.scheduleId ∧
      (r.ackEnabled = r'.ackEnabled ∧ r.ackDtmf = r'.ackDtmf ∧ r.ackWaitSec = r'.ackWaitSec) ∧
      (⟨r.repeatMs, r.repeatInitialDelayMs, r.maxRepeats, r.until_⟩ : RepeatFields) =
        ⟨r'.repeatMs, r'.repeatInitialDelayMs, r'.maxRepeats, r'.until_⟩ := by
  cases r
  cases r'
  simp only [Policy.mk.injEq, RepeatFields.mk.injEq] at *
  tauto

theorem getInt_range (hint : ∀ x, -2147483648 ≤ JsonLib.truncate x ∧ JsonLib.truncate x ≤ 2147483647)
    {v : Json} {n : Int} (h : v.getInt = .ok n) : -2147483648 ≤ n ∧ n ≤ 2147483647 := by
  have hword : ∀ w : Int32, -2147483648 ≤ w.toInt ∧ w.toInt ≤ 2147483647 := fun w =>
    ⟨w.le_toInt, by have hlt := w.toInt_lt; omega⟩
  cases v with
  | bool b =>
    obtain rfl : (if b then 1 else 0) = n := Except.ok.inj h
    cases b <;> decide
  | int m =>
    obtain rfl : (Int32.ofInt m).toInt = n := Except.ok.inj h
    exact hword _
  | uint m =>
    obtain rfl : (Int32.ofNat m).toInt = n := Except.ok.inj h
    exact hword _
  | float x =>
    obtain rfl : JsonLib.truncate x = n := Except.ok.inj h
    exact hint x
  | _ => cases h

theorem policy_eq_iff {p q : Json} {r r' : Policy} {rep : RepeatFields} {scheduleId : String}
    (hint : ∀ x, -2147483648 ≤ JsonLib.truncate x ∧ JsonLib.truncate x ≤ 2147483647)
    (hp : PolicyFields p r) (hq : PolicyFields q r') (hrep : repeatFields p = .ok rep)
    (hschedule : p.valueString "schedule_id" "" = .ok scheduleId)
    (hn : NormalisedPolicy p q r.id r.enabled (triggersOf p ["triggers", "on"]) rep
      (if scheduleId = "" then "always" else scheduleId)) :
    r = r' ↔ p.find "ack_enabled" ≠ some (.bool false) ∧ p.find "schedule_id" ≠ some (.string "") ∧
      EventsKept p ∧ RepeatKept p := by
  obtain ⟨hrange, hrepeat⟩ := repeatFields_ok hp.repetition hrep
  have hid : r.id = r'.id := Except.ok.inj ((hn.find_string hn.id "").symm.trans hq.id)
  have hname : r.name = r'.name := by
    obtain ⟨name, hpname, hqname⟩ := hn.name
    obtain rfl := Except.ok.inj (hp.name.symm.trans hpname)
    exact Except.ok.inj ((hn.find_string hqname _).symm.trans hq.name)
  have houtput : r.outputType = r'.outputType := by
    obtain ⟨type, output, htype, hout, heq⟩ := hp.outputType
    obtain ⟨type₁, output₁, htype₁, hout₁, hfind⟩ := hn.outputType
    obtain ⟨type₂, output₂, htype₂, hout₂, heq₂⟩ := hq.outputType
    obtain rfl := Except.ok.inj (htype.symm.trans htype₁)
    obtain rfl := Except.ok.inj (hout.symm.trans hout₁)
    have hout₃ : q.valueString "output_type" type₂ =
        .ok (if output = "voice" then "phone" else output) := hn.find_string hfind type₂
    obtain rfl := Except.ok.inj (hout₃.symm.trans hout₂)
    rw [heq, heq₂]
    by_cases hvoice : output = "voice"
    · rw [if_pos hvoice]
      rfl
    · rw [if_neg hvoice, if_neg hvoice]
  have hbackend : r.callBackend = r'.callBackend := by
    obtain ⟨backend, h, heq⟩ := hp.callBackend
    obtain ⟨backend', h', heq'⟩ := hq.callBackend
    obtain rfl := hn.text_eq (by simp) h h'
    rw [heq, heq']
  have henabled : r.enabled = r'.enabled :=
    Except.ok.inj ((hn.find_value hn.enabled true).symm.trans hq.enabled)
  have hseverity : r.minSeverity = r'.minSeverity := by
    obtain ⟨n, hpn, hqn⟩ := hn.minSeverity
    obtain rfl := Except.ok.inj (hp.minSeverity.symm.trans hpn)
    have hrange' : -2147483648 ≤ r.minSeverity ∧ r.minSeverity ≤ 2147483647 := by
      cases hfind : p.find "min_severity" with
      | none =>
        rw [value_ok hpn, valueOr, hfind]
        show (-2147483648 : Int) ≤ 0 ∧ (0 : Int) ≤ 2147483647
        omega
      | some v => exact getInt_range hint (get_of_value_ok hpn hfind)
    have hread : q.valueInt "min_severity" 0 = getInt (.int r.minSeverity) := hn.find_value hqn 0
    rw [← Except.ok.inj (hread.symm.trans hq.minSeverity), int32_of_range hrange'.1 hrange'.2]
  have hcontacts : r.contacts = r'.contacts := by
    rw [hp.contacts, hq.contacts, hn.items_eq (by simp)]
  have hgroups : r.contactGroups = r'.contactGroups := by
    rw [hp.contactGroups, hq.contactGroups, hn.items_eq (by simp)]
  have htargets : r.targets = r'.targets := by
    obtain ⟨targets, h, heq⟩ := hp.targets
    obtain ⟨targets', h', heq'⟩ := hq.targets
    rw [hn.items_eq (by simp)] at h'
    obtain rfl := Except.ok.inj (h.symm.trans h')
    rw [heq, heq', hcontacts, hgroups]
  have hdelay : r.audioDelaySeconds = r'.audioDelaySeconds := by
    have h := hq.audioDelaySeconds
    rw [hn.clampedMember_eq (by simp)] at h
    exact Except.ok.inj (hp.audioDelaySeconds.symm.trans h)
  have hgap : r.audioGapMs = r'.audioGapMs := by
    have h := hq.audioGapMs
    rw [hn.clampedMember_eq (by simp)] at h
    exact Except.ok.inj (hp.audioGapMs.symm.trans h)
  have hring : r.ringTimeoutSec = r'.ringTimeoutSec := by
    have h := hq.ringTimeoutSec
    rw [hn.clampedMember_eq (by simp)] at h
    exact Except.ok.inj (hp.ringTimeoutSec.symm.trans h)
  rw [policy_ext hid hname houtput hbackend henabled hseverity htargets hcontacts hgroups hdelay hgap
    hring (hn.text_eq (by simp) hp.emailSubjectTemplate hq.emailSubjectTemplate)
    (hn.text_eq (by simp) hp.emailActiveBodyTemplate hq.emailActiveBodyTemplate)
    (hn.text_eq (by simp) hp.emailClearBodyTemplate hq.emailClearBodyTemplate)]
  have hon : r.on = r'.on ↔ EventsKept p := by
    have hq' : policyEventsOf q = triggersOf p ["triggers", "on"] := by
      unfold policyEventsOf memberItems
      rw [hn.on]
      unfold jsonStrings stringItems
      dsimp only
      rw [Option.some_or, Option.map_some, List.filterMap_map]
      exact List.filterMap_some
    rw [hp.on, hq.on, hq', events_iff]
  have hsched : r.scheduleId = r'.scheduleId ↔ p.find "schedule_id" ≠ some (.string "") := by
    rw [← Except.ok.inj ((hn.find_string hn.scheduleId _).symm.trans hq.scheduleId)]
    cases hfind : p.find "schedule_id" with
    | none =>
      rw [value_ok hp.scheduleId, value_ok hschedule, valueOr, valueOr, hfind]
      exact iff_of_true rfl fun h => by cases h
    | some v =>
      have h₁ := get_of_value_ok hp.scheduleId hfind
      have h₂ := get_of_value_ok hschedule hfind
      obtain rfl := Except.ok.inj (h₁.symm.trans h₂)
      cases v with
      | string text =>
        obtain rfl : text = r.scheduleId := Except.ok.inj h₁
        by_cases hempty : r.scheduleId = ""
        · simp [hempty]
        · simp [hempty]
      | _ => cases h₁
  have hack : (r.ackEnabled = r'.ackEnabled ∧ r.ackDtmf = r'.ackDtmf ∧ r.ackWaitSec = r'.ackWaitSec) ↔
      p.find "ack_enabled" ≠ some (.bool false) := by
    have hq' : ackEnabledOf q = true := by
      unfold ackEnabledOf
      rw [hn.absent "ack_enabled" (by simp)]
    have hp' : ackEnabledOf p = true ↔ p.find "ack_enabled" ≠ some (.bool false) := by
      unfold ackEnabledOf
      split
      · rename_i b hb
        rw [hb]
        cases b <;> simp
      · rename_i hnot
        exact iff_of_true rfl (hnot false)
    rw [hp.ackEnabled, hq.ackEnabled, hq', ← hp']
    refine and_iff_left_of_imp fun hon => ?_
    obtain ⟨keys, h, heq⟩ := hp.ackDtmf
    obtain ⟨keys', h', heq'⟩ := hq.ackDtmf
    obtain ⟨sec, hs, heqs⟩ := hp.ackWaitSec
    obtain ⟨sec', hs', heqs'⟩ := hq.ackWaitSec
    have hdtmf : readAckDtmf q ["1"] = readAckDtmf p ["1"] := by
      unfold readAckDtmf
      rw [hn.ackDtmf]
    rw [hdtmf] at h'
    rw [hn.clampedMember_eq (by simp)] at hs'
    obtain rfl := Except.ok.inj (h.symm.trans h')
    obtain rfl := Except.ok.inj (hs.symm.trans hs')
    rw [heq, heq', heqs, heqs', hp.ackEnabled, hq.ackEnabled, hq', hon]
    exact ⟨rfl, rfl⟩
  have hrepeats : (⟨r.repeatMs, r.repeatInitialDelayMs, r.maxRepeats, r.until_⟩ : RepeatFields) =
      ⟨r'.repeatMs, r'.repeatInitialDelayMs, r'.maxRepeats, r'.until_⟩ ↔ RepeatKept p := by
    rw [← hrepeat, ← Except.ok.inj ((hn.configuredRepeat_eq hrange).symm.trans hq.repetition)]
  rw [hon, hsched, hack, hrepeats]
  tauto

/-! ## Documents -/

def policyIdText (p : Json) : String := jsonStringOrEmpty p "id"

/-- A policy becomes at most one object, under its id. -/
theorem addPolicy_ok {targetById routeById : String → Option Json} {tables tables' : PolicyTables}
    {p : Json} (h : addPolicy targetById routeById tables p = .ok tables') :
    ∃ new, tables'.policies = tables.policies ++ new ∧ ∀ e ∈ new, policyIdText e = policyIdText p := by
  unfold addPolicy at h
  split at h
  · obtain rfl := Except.ok.inj h
    exact ⟨[], (List.append_nil _).symm, fun e he => by cases he⟩
  obtain ⟨policyId, hid, h⟩ := ok_of_bind h
  split at h
  · obtain rfl := Except.ok.inj h
    exact ⟨[], (List.append_nil _).symm, fun e he => by cases he⟩
  obtain ⟨enabled, henabled, h⟩ := ok_of_bind h
  obtain ⟨rep, hrep, h⟩ := ok_of_bind h
  obtain ⟨scheduleId, hschedule, h⟩ := ok_of_bind h
  have htext : policyIdText p = policyId := (valueString_empty_ok hid).symm
  dsimp only at h
  split at h
  · obtain ⟨policy, hpolicy, h⟩ := ok_of_bind h
    obtain rfl := Except.ok.inj h
    refine ⟨[policy], rfl, fun e he => ?_⟩
    obtain rfl := List.mem_singleton.1 he
    rw [htext]
    unfold policyIdText jsonStringOrEmpty
    rw [(simplePolicy_ok hpolicy).id]
  · obtain ⟨name, hname, h⟩ := ok_of_bind h
    obtain rfl := Except.ok.inj h
    exact ⟨[], (List.append_nil _).symm, fun e he => by cases he⟩
  · obtain ⟨name, hname, h⟩ := ok_of_bind h
    obtain ⟨after, hafter, h⟩ := ok_of_bind h
    obtain rfl := Except.ok.inj h
    refine ⟨_, rfl, fun e he => ?_⟩
    split at he
    · obtain rfl := List.mem_singleton.1 he
      exact htext.symm
    · cases he

theorem foldlM_addPolicy_ok {targetById routeById : String → Option Json} {l : List Json}
    {tables tables' : PolicyTables}
    (h : l.foldlM (addPolicy targetById routeById) tables = .ok tables') :
    ∃ new, tables'.policies = tables.policies ++ new ∧
      ∀ e ∈ new, ∃ p ∈ l, policyIdText e = policyIdText p := by
  induction l generalizing tables with
  | nil =>
    obtain rfl := Except.ok.inj h
    exact ⟨[], (List.append_nil _).symm, fun e he => by cases he⟩
  | cons p l ih =>
    rw [List.foldlM_cons] at h
    obtain ⟨tables₁, h₁, h⟩ := ok_of_bind h
    obtain ⟨new₁, heq₁, hnew₁⟩ := addPolicy_ok h₁
    obtain ⟨new, heq, hnew⟩ := ih h
    refine ⟨new₁ ++ new, by rw [heq, heq₁, List.append_assoc], fun e he => ?_⟩
    rcases List.mem_append.1 he with he | he
    · exact ⟨p, List.mem_cons_self, hnew₁ e he⟩
    · obtain ⟨p', hp', hid⟩ := hnew e he
      exact ⟨p', List.mem_cons_of_mem _ hp', hid⟩

/-- A policy without steps is normalised, or dropped if it has none of the keys. -/
theorem addPolicy_simple {targetById routeById : String → Option Json} {tables tables' : PolicyTables}
    {p : Json} (hid : policyIdText p ≠ "") (hsteps : p.memberItems "steps" = none)
    (h : addPolicy targetById routeById tables p = .ok tables') :
    ∃ enabled rep scheduleId, p.valueBool "enabled" true = .ok enabled ∧ repeatFields p = .ok rep ∧
      p.valueString "schedule_id" "" = .ok scheduleId ∧
      if ["output_type", "on", "contact_groups", "contacts"].any p.contains then
        ∃ q, tables'.policies = tables.policies ++ [q] ∧
          NormalisedPolicy p q (policyIdText p) enabled (triggersOf p ["triggers", "on"]) rep
            (if scheduleId = "" then "always" else scheduleId)
      else tables'.policies = tables.policies := by
  unfold addPolicy at h
  have hobj : p.isObject = true := isObject_of_find (find_of_text hid)
  rw [hobj, hsteps] at h
  obtain ⟨policyId, hpid, h⟩ := ok_of_bind h
  obtain rfl : policyId = policyIdText p := valueString_empty_ok hpid
  rw [if_neg hid] at h
  obtain ⟨enabled, henabled, h⟩ := ok_of_bind h
  obtain ⟨rep, hrep, h⟩ := ok_of_bind h
  obtain ⟨scheduleId, hschedule, h⟩ := ok_of_bind h
  refine ⟨enabled, rep, scheduleId, henabled, hrep, hschedule, ?_⟩
  dsimp only at h
  cases hshape : ["output_type", "on", "contact_groups", "contacts"].any p.contains with
  | true =>
    rw [hshape] at h
    obtain ⟨q, hq, h⟩ := ok_of_bind h
    obtain rfl := Except.ok.inj h
    exact ⟨q, rfl, simplePolicy_ok hq⟩
  | false =>
    rw [hshape] at h
    obtain ⟨name, hname, h⟩ := ok_of_bind h
    obtain rfl := Except.ok.inj h
    rfl

/-- The table has nothing from objects with other ids. -/
theorem lastValue_entries_eq_none {items : List Json} {id : String}
    (h : ∀ e ∈ items, policyIdText e ≠ id) : lastValue id (entries readPolicy Policy.id items) = none := by
  rw [lastValue_eq_none]
  intro hmem
  obtain ⟨⟨k, a⟩, hka, rfl⟩ := List.mem_map.1 hmem
  obtain ⟨e, he, -, hread, -, hk⟩ := mem_entries.1 hka
  exact h e he ((valueString_empty_ok (readPolicy_ok hread).id).symm.trans hk.symm)

/-- The document that configures the policy as it is. -/
def policyDocument (p : Json) : Json := .object [("policies", .array [p])]

theorem policyTable_single {p : Json} {r : Policy} (hobj : p.isObject = true) (hid : policyIdText p ≠ "")
    (hread : readPolicy p = .ok r) : policyTable (policyDocument p) (policyIdText p) = some r := by
  have hkey : r.id = policyIdText p := valueString_empty_ok (readPolicy_ok hread).id
  have hentries : entries readPolicy Policy.id [p] = [(policyIdText p, r)] := by
    unfold entries
    rw [List.filterMap_cons_some]
    · rfl
    · rw [if_pos hobj, hread, ← hkey]
      exact if_neg (by rwa [hkey])
  show assignAll (fun _ => none) (entries readPolicy Policy.id [p]) (policyIdText p) = some r
  rw [assignAll_apply, hentries, lastValue_cons, if_pos rfl]
  rfl

/-- **Normalised policies.** A policy without steps is the same policy after the normalisation exactly
if it has one of the keys of the simple form, is not without acknowledgement, names a schedule if it
has the field, has the same events either way, and repeat settings that are taken as they are. -/
theorem policy_kept_iff
    (hint : ∀ x, -2147483648 ≤ JsonLib.truncate x ∧ JsonLib.truncate x ≤ 2147483647)
    (root cfg p : Json) (before after : List Json)
    (hroot : root.find "policies" = some (.array (before ++ p :: after)))
    (hid : policyIdText p ≠ "") (hothers : ∀ p' ∈ before ++ after, policyIdText p' ≠ policyIdText p)
    (hsteps : p.memberItems "steps" = none) (hcfg : notificationConfigFromRoot root = .ok cfg)
    {m m' : NotificationManager} (hok : (m.configure cfg).1 = .ok ())
    (hok' : (m'.configure (policyDocument p)).1 = .ok ()) :
    (m.configure cfg).2.config.policies (policyIdText p) =
      (m'.configure (policyDocument p)).2.config.policies (policyIdText p) ↔ PolicyKept p := by
  have hobj : p.isObject = true := isObject_of_find (find_of_text hid)
  have hcfgObj := notificationConfigFromRoot_isObject hcfg
  rw [(configured hcfgObj hok).policies, (configured rfl hok').policies]
  obtain ⟨r, hr⟩ := ((configure_ok_iff m' rfl).1 hok').policies p List.mem_cons_self hobj
  have hreadable := ((configure_ok_iff m hcfgObj).1 hok).policies
  rw [policyTable_single hobj hid hr]
  have hfields := readPolicy_ok hr
  have hkey : r.id = policyIdText p := valueString_empty_ok hfields.id
  -- the pass over the policies
  unfold notificationConfigFromRoot at hcfg
  obtain ⟨timezone, htimezone, hcfg⟩ := ok_of_bind hcfg
  obtain ⟨targets, htargets, hcfg⟩ := ok_of_bind hcfg
  obtain ⟨routes, hroutes, hcfg⟩ := ok_of_bind hcfg
  obtain ⟨tables, htables, hcfg⟩ := ok_of_bind hcfg
  obtain ⟨hasAudioPolicy, haudio, hcfg⟩ := ok_of_bind hcfg
  obtain rfl := Except.ok.inj hcfg
  have hitems : (root.memberItems "policies").getD [] = before ++ p :: after := by
    unfold memberItems
    rw [hroot]
    rfl
  rw [hitems, List.foldlM_append] at htables
  obtain ⟨tables₁, h₁, htables⟩ := ok_of_bind htables
  rw [List.foldlM_cons] at htables
  obtain ⟨tables₂, h₂, h₃⟩ := ok_of_bind htables
  obtain ⟨new₁, heq₁, hnew₁⟩ := foldlM_addPolicy_ok h₁
  obtain ⟨new₃, heq₃, hnew₃⟩ := foldlM_addPolicy_ok h₃
  have hnone₁ : lastValue (policyIdText p) (entries readPolicy Policy.id new₁) = none :=
    lastValue_entries_eq_none fun e he => by
      obtain ⟨p', hp', heq⟩ := hnew₁ e he
      rw [heq]
      exact hothers p' (List.mem_append_left _ hp')
  have hnone₃ : lastValue (policyIdText p) (entries readPolicy Policy.id new₃) = none :=
    lastValue_entries_eq_none fun e he => by
      obtain ⟨p', hp', heq⟩ := hnew₃ e he
      rw [heq]
      exact hothers p' (List.mem_append_right _ hp')
  have hlast : ∀ new, tables.policies = new₁ ++ (new ++ new₃) →
      assignAll (fun _ => none) (entries readPolicy Policy.id tables.policies) (policyIdText p) =
        lastValue (policyIdText p) (entries readPolicy Policy.id new) := fun new hnew => by
    have happend : entries readPolicy Policy.id (new₁ ++ (new ++ new₃)) =
        entries readPolicy Policy.id new₁ ++ (entries readPolicy Policy.id new ++
          entries readPolicy Policy.id new₃) := by
      unfold entries
      rw [List.filterMap_append, List.filterMap_append]
    rw [assignAll_apply, Option.or_none, hnew, happend, lastValue_append, lastValue_append, hnone₁,
      hnone₃, Option.or_none, Option.none_or]
  show assignAll (fun _ => none) (entries readPolicy Policy.id tables.policies) (policyIdText p) = _ ↔ _
  obtain ⟨enabled, rep, scheduleId, henabled, hrep, hschedule, hadded⟩ := addPolicy_simple hid hsteps h₂
  obtain rfl := Except.ok.inj (hfields.enabled.symm.trans henabled)
  split at hadded
  · rename_i hshape
    obtain ⟨q, heq₂, hn⟩ := hadded
    have hpolicies : tables.policies = new₁ ++ ([q] ++ new₃) := by
      rw [heq₃, heq₂, heq₁, List.append_assoc]
      rfl
    obtain ⟨r', hr'⟩ := hreadable q (by
      show q ∈ tables.policies
      rw [hpolicies]
      simp) hn.isObject
    have hqid : policyIdText q = policyIdText p := by
      unfold policyIdText jsonStringOrEmpty
      rw [hn.id]
      rfl
    have hsingle := policyTable_single hn.isObject (by rwa [hqid]) hr'
    rw [hqid] at hsingle
    have hvalue : lastValue (policyIdText p) (entries readPolicy Policy.id [q]) = some r' := by
      rw [← hsingle]
      show _ = assignAll (fun _ => none) (entries readPolicy Policy.id [q]) (policyIdText p)
      rw [assignAll_apply, Option.or_none]
    rw [hlast [q] hpolicies, hvalue, Option.some.injEq, eq_comm]
    rw [← hkey] at hn
    rw [policy_eq_iff hint hfields (readPolicy_ok hr') hrep hschedule hn]
    exact ⟨fun h => ⟨hshape, h.1, h.2.1, h.2.2.1, h.2.2.2⟩,
      fun h => ⟨h.ackEnabled, h.scheduleId, h.events, h.repetition⟩⟩
  · rename_i hshape
    have hpolicies : tables.policies = new₁ ++ ([] ++ new₃) := by
      rw [heq₃, hadded, heq₁]
      rfl
    rw [hlast [] hpolicies]
    exact iff_of_false (fun h => by cases h) fun h => hshape h.shape

end

/-! ## A policy without acknowledgement -/

section
attribute [local instance] intFloats

/-- The library on values without fractions, with doubles that are converted as an `int` wraps. -/
@[reducible] def int32Json : JsonLib :=
  { intJson with truncate := fun x => (Int32.ofInt x).toInt }

attribute [local instance] int32Json

def silentPolicy : Json := .object [("id", .string "P"), ("on", .array [.string "active"]),
  ("contacts", .array [.string "ann"]), ("ack_enabled", .bool false)]

def normalisedDocument : Json := (notificationConfigFromRoot (policyDocument silentPolicy)).toOption.getD .null

def emptyManager : NotificationManager where
  configDir := "config"

/-- A keypress acknowledges, although the policy says that it does not. -/
theorem silent_policy_acknowledges :
    ¬ ∀ (root cfg p : Json) (before after : List Json) (m m' : NotificationManager),
      root.find "policies" = some (.array (before ++ p :: after)) → policyIdText p ≠ "" →
        (∀ p' ∈ before ++ after, policyIdText p' ≠ policyIdText p) → p.memberItems "steps" = none →
          notificationConfigFromRoot root = .ok cfg → (m.configure cfg).1 = .ok () →
            (m'.configure (policyDocument p)).1 = .ok () →
              (m.configure cfg).2.config.policies (policyIdText p) =
                (m'.configure (policyDocument p)).2.config.policies (policyIdText p) := by
  intro h
  have heq := h (policyDocument silentPolicy) normalisedDocument silentPolicy [] [] emptyManager
    emptyManager rfl (by decide +kernel) (fun p' hp' => by cases hp') rfl rfl (by rfl) (by rfl)
  have hack := congrArg (Option.map Policy.ackEnabled) heq
  have hnormalised : ((emptyManager.configure normalisedDocument).2.config.policies "P").map
      Policy.ackEnabled = some true := by rfl
  have hdirect : ((emptyManager.configure (policyDocument silentPolicy)).2.config.policies "P").map
      Policy.ackEnabled = some false := by rfl
  have hne := (hnormalised.symm.trans hack).trans hdirect
  exact absurd hne (by decide)

theorem silent_policy_iff :
    (emptyManager.configure normalisedDocument).2.config.policies "P" =
      (emptyManager.configure (policyDocument silentPolicy)).2.config.policies "P" ↔
        PolicyKept silentPolicy :=
  policy_kept_iff (fun x => ⟨(Int32.ofInt x).le_toInt, by
      have hlt := (Int32.ofInt x).toInt_lt
      show (Int32.ofInt x).toInt ≤ 2147483647
      omega⟩)
    (policyDocument silentPolicy) normalisedDocument silentPolicy [] [] rfl (by decide +kernel)
    (fun p' hp' => by cases hp') rfl rfl (by rfl) (by rfl)

end

end OpcBridge.Alarms
