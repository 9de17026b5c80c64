import OpcBridge.Alarms.Fields
import OpcBridge.Lib.Assign

/-!
# The tables of a configured manager

Every array section of a document is a sequence of assignments under the ids of its items, and the
other sections do not touch its table (`Frames`). `configured` says what the tables of the contacts,
the groups, the policies and the schedules hold after a `configure` that did not throw.
-/

namespace OpcBridge.Alarms

open OpcBridge Lib Json

/-! ## What a step keeps -/

/-- The step does not change `p`, also if it throws. -/
def Frames {α β : Type} (p : NotificationConfig → β) (m : Conf α) : Prop :=
  ∀ c, p (m.run.run c).2 = p c

section
variable {α β γ : Type} {p : NotificationConfig → γ}

theorem frames_pure (a : α) : Frames p (pure a : Conf α) := fun _ => rfl

theorem frames_modify {g : NotificationConfig → NotificationConfig} (h : ∀ c, p (g c) = p c) :
    Frames p (modify g : Conf Unit) := h

theorem frames_lift (x : Except String α) : Frames p (liftM x : Conf α) := fun _ => rfl

theorem frames_bind {m : Conf α} {f : α → Conf β} (hm : Frames p m) (hf : ∀ a, Frames p (f a)) :
    Frames p (m >>= f) := by
  intro c
  rw [ExceptT.run_bind, StateT.run_bind]
  have hmc := hm c
  rcases hrun : m.run.run c with ⟨e | a, c'⟩
  · rw [hrun] at hmc
    exact hmc
  · rw [hrun] at hmc
    exact (hf a c').trans hmc

theorem frames_read {x : Except String α} {f : α → Conf β} (hf : ∀ a, Frames p (f a)) :
    Frames p ((liftM x : Conf α) >>= f) := frames_bind (frames_lift x) hf

/-- A field is read and put into the tables. -/
theorem frames_field {x : Except String α} {g : α → NotificationConfig → NotificationConfig}
    {f : Unit → Conf β} (hg : ∀ a c, p (g a c) = p c) (hf : Frames p (f ())) :
    Frames p ((liftM x : Conf α) >>= fun a => (modify (g a) : Conf Unit) >>= f) :=
  frames_read fun a => frames_bind (frames_modify (hg a)) fun _ => hf

theorem frames_last {x : Except String α} {g : α → NotificationConfig → NotificationConfig}
    (hg : ∀ a c, p (g a c) = p c) : Frames p ((liftM x : Conf α) >>= fun a => modify (g a)) :=
  frames_read fun a => frames_modify (hg a)

theorem frames_ite {q : Prop} [Decidable q] {m : Conf Unit} (hm : Frames p m) :
    Frames p (if q then m else pure ()) := by
  split
  · exact hm
  · exact frames_pure ()

theorem frames_forM {xs : List α} {add : α → Conf Unit} (h : ∀ x, Frames p (add x)) :
    Frames p (xs.forM add) := by
  induction xs with
  | nil => exact frames_pure ()
  | cons x xs ih => exact frames_bind (h x) fun _ => ih

/-- A step that returned ran its parts. -/
theorem run_bind_ok {m : Conf α} {f : α → Conf β} {c c' : NotificationConfig} {b : β}
    (h : (m >>= f).run.run c = (.ok b, c')) :
    ∃ a c₁, m.run.run c = (.ok a, c₁) ∧ (f a).run.run c₁ = (.ok b, c') := by
  rw [ExceptT.run_bind, StateT.run_bind] at h
  rcases hrun : m.run.run c with ⟨e | a, c₁⟩
  · rw [hrun] at h
    cases h
  · rw [hrun] at h
    exact ⟨a, c₁, rfl, h⟩

theorem modify_ok {g : NotificationConfig → NotificationConfig} {c c' : NotificationConfig}
    {x : Except String Unit} (h : (modify g : Conf Unit).run.run c = (x, c')) : c' = g c := by
  injection h with _ hc
  exact hc.symm

theorem Frames.of_ok {m : Conf α} (hm : Frames p m) {c c' : NotificationConfig} {x : Except String α}
    (h : m.run.run c = (x, c')) : p c' = p c := by
  have hc := hm c
  rwa [h] at hc

end

variable [Floats] [JsonLib]

omit [JsonLib] in
theorem frames_forObject {γ : Type} {p : NotificationConfig → γ} {configure : Json → Conf Unit}
    (h : ∀ j, Frames p (configure j)) (cfg : Json) (key : String) :
    Frames p (forObject cfg key configure) := by
  unfold forObject
  split
  · exact frames_pure ()
  · exact h _

/-! ## The tables of the array sections -/

def NotificationConfig.tables (c : NotificationConfig) :=
  (c.schedules, c.contacts, c.contactGroups, c.policies)

theorem configureVoiceModem_frames (vm : Json) :
    Frames NotificationConfig.tables (configureVoiceModem vm) := by
  unfold configureVoiceModem
  repeat' refine frames_field (fun _ _ => rfl) ?_
  exact frames_last fun _ _ => rfl

theorem configureTts_frames (cfg : Json) : Frames NotificationConfig.tables (configureTts cfg) := by
  refine frames_bind (frames_modify fun _ => rfl) fun _ => ?_
  split
  · exact frames_field (fun _ _ => rfl) (frames_last fun _ _ => rfl)
  · exact frames_last fun _ _ => rfl
  · exact frames_pure ()

theorem configureSip_frames (s : Json) : Frames NotificationConfig.tables (configureSip s) := by
  unfold configureSip
  repeat' refine frames_field (fun _ _ => rfl) ?_
  exact frames_last fun _ _ => rfl

theorem configureSmtp_frames (s : Json) : Frames NotificationConfig.tables (configureSmtp s) := by
  unfold configureSmtp
  repeat' refine frames_field (fun _ _ => rfl) ?_
  exact frames_last fun _ _ => rfl

omit [JsonLib] in
theorem foldl_addAudioFile_tables (configDir : String) (files : List Json) (c : NotificationConfig) :
    (files.foldl (addAudioFile configDir) c).tables = c.tables := by
  induction files generalizing c with
  | nil => rfl
  | cons f files ih =>
    rw [List.foldl_cons, ih]
    unfold addAudioFile
    dsimp only
    split <;> rfl

omit [JsonLib] in
theorem configureAudio_frames (configDir : String) (audio : Json) :
    Frames NotificationConfig.tables (configureAudio configDir audio) := by
  unfold configureAudio
  refine frames_field (fun _ _ => rfl) (frames_modify fun c => ?_)
  exact foldl_addAudioFile_tables configDir _ c

/-- The assignments that the items of a section make. -/
def entries {α : Type} (read : Json → Except String α) (key : α → String) (items : List Json) :
    List (String × α) :=
  items.filterMap fun item =>
    if item.isObject then
      match read item with
      | .ok a => if key a = "" then none else some (key a, a)
      | .error _ => none
    else none

omit [JsonLib] in
theorem mem_entries {α : Type} {read : Json → Except String α} {key : α → String} {items : List Json}
    {k : String} {a : α} : (k, a) ∈ entries read key items ↔
      ∃ item ∈ items, item.isObject = true ∧ read item = .ok a ∧ key a ≠ "" ∧ k = key a := by
  unfold entries
  rw [List.mem_filterMap]
  refine exists_congr fun item => and_congr_right fun _ => ?_
  by_cases hobj : item.isObject = true
  · rw [if_pos hobj, and_iff_right hobj]
    cases hread : read item with
    | error e => exact iff_of_false (fun h => by cases h) fun h => by cases h.1
    | ok b =>
      by_cases hkey : key b = ""
      · refine iff_of_false (fun h => ?_) fun h => ?_
        · simp [hkey] at h
        · obtain rfl := Except.ok.inj h.1
          exact h.2.1 hkey
      · simp only [if_neg hkey, Option.some.injEq, Prod.mk.injEq, Except.ok.injEq]
        constructor
        · rintro ⟨rfl, rfl⟩
          exact ⟨rfl, hkey, rfl⟩
        · rintro ⟨rfl, -, rfl⟩
          exact ⟨rfl, rfl⟩
  · rw [if_neg hobj]
    exact iff_of_false (fun h => by cases h) fun h => hobj h.1

omit [JsonLib] in
/-- The keys of items that can all be read. -/
theorem entries_keys {α : Type} {read : Json → Except String α} {key : α → String}
    (keyOf : Json → String) {items : List Json}
    (h : ∀ item ∈ items, item.isObject = true ∧ keyOf item ≠ "" ∧
      ∃ a, read item = .ok a ∧ key a = keyOf item) :
    (entries read key items).map Prod.fst = items.map keyOf := by
  induction items with
  | nil => rfl
  | cons item items ih =>
    rw [List.forall_mem_cons] at h
    obtain ⟨⟨hobj, hne, a, hread, hkey⟩, h⟩ := h
    have hone : entries read key (item :: items) = (key a, a) :: entries read key items := by
      unfold entries
      rw [List.filterMap_cons_some]
      rw [if_pos hobj, hread]
      exact if_neg (by rwa [hkey])
    rw [hone, List.map_cons, List.map_cons, ih h, hkey]

section
variable {α : Type} {read : Json → Except String α} {key : α → String}
  {put : α → NotificationConfig → NotificationConfig} {add : Json → Conf Unit}
  {p : NotificationConfig → String → Option α}
  (hadd : ∀ item, add item = if item.isObject then
    (liftM (read item) : Conf α) >>= fun a => if key a ≠ "" then modify (put a) else pure () else pure ())
  (hput : ∀ a c, p (put a c) = Function.update (p c) (key a) (some a))
include hadd hput

omit [JsonLib] in
theorem addItem_ok {item : Json} {c c' : NotificationConfig}
    (h : (add item).run.run c = (.ok (), c')) :
    p c' = assignAll (p c) (entries read key [item]) := by
  rw [hadd] at h
  unfold entries
  by_cases hitem : item.isObject = true
  · rw [if_pos hitem] at h
    obtain ⟨a, c₁, hread, hrest⟩ := run_bind_ok h
    injection hread with hok hc₁
    replace hok : read item = .ok a := hok
    by_cases hkey : key a = ""
    · rw [if_neg (not_not.2 hkey)] at hrest
      injection hrest with _ hc
      simp [hitem, hok, hkey, ← hc, ← hc₁, assignAll]
    · rw [if_pos hkey] at hrest
      injection hrest with _ hc
      simp [hitem, hok, hkey, ← hc, ← hc₁, hput, assignAll]
  · rw [if_neg hitem] at h
    injection h with _ hc
    simp [hitem, ← hc, assignAll]

omit [JsonLib] in
theorem forM_items_ok {items : List Json} {c c' : NotificationConfig}
    (h : (items.forM add).run.run c = (.ok (), c')) :
    p c' = assignAll (p c) (entries read key items) := by
  induction items generalizing c with
  | nil =>
    injection h with _ hc
    rw [← hc]
    rfl
  | cons item items ih =>
    obtain ⟨u, c₁, hitem, hitems⟩ := run_bind_ok h
    have happend : entries read key (item :: items) =
        entries read key [item] ++ entries read key items :=
      List.filterMap_append (l := [item])
    rw [ih hitems, addItem_ok hadd hput hitem, happend, assignAll_append]

end

/-- `schedules_` with the row `always` if no item has it. -/
def withAlways (schedules : String → Option Schedule) : String → Option Schedule :=
  if (schedules "always").isSome then schedules
  else Function.update schedules "always" (some { id := "always" })

def itemsOf (cfg : Json) (key : String) : List Json := (cfg.memberItems key).getD []

def scheduleTable (cfg : Json) : String → Option Schedule :=
  withAlways (assignAll (fun _ => none) (entries readSchedule Schedule.id (itemsOf cfg "schedules")))

def contactTable (cfg : Json) : String → Option Contact :=
  assignAll (fun _ => none) (entries readContact Contact.id (itemsOf cfg "contacts"))

def groupTable (cfg : Json) : String → Option ContactGroup :=
  assignAll (fun _ => none) (entries readContactGroup ContactGroup.id (itemsOf cfg "contact_groups"))

def policyTable (cfg : Json) : String → Option Policy :=
  assignAll (fun _ => none) (entries readPolicy Policy.id (itemsOf cfg "policies"))

/-- The tables are those of the document. -/
structure Configured (cfg : Json) (c : NotificationConfig) : Prop where
  schedules : c.schedules = scheduleTable cfg
  contacts : c.contacts = contactTable cfg
  contactGroups : c.contactGroups = groupTable cfg
  policies : c.policies = policyTable cfg

omit [Floats] [JsonLib] in
theorem addAlwaysSchedule_schedules (c : NotificationConfig) :
    (addAlwaysSchedule c).schedules = withAlways c.schedules := by
  unfold addAlwaysSchedule withAlways
  split <;> rfl

omit [Floats] [JsonLib] in
theorem addAlwaysSchedule_tables (c : NotificationConfig) :
    (addAlwaysSchedule c).contacts = c.contacts ∧ (addAlwaysSchedule c).contactGroups = c.contactGroups ∧
      (addAlwaysSchedule c).policies = c.policies := by
  unfold addAlwaysSchedule
  split <;> exact ⟨rfl, rfl, rfl⟩

omit [JsonLib] in
theorem addSchedule_frames (cfg : Json) :
    Frames (fun c => (c.contacts, c.contactGroups, c.policies)) (forItems cfg "schedules" addSchedule) :=
  frames_forM fun _ => frames_ite (frames_read fun _ => frames_ite (frames_modify fun _ => rfl))

theorem addContact_frames (cfg : Json) :
    Frames (fun c => (c.schedules, c.contactGroups, c.policies)) (forItems cfg "contacts" addContact) :=
  frames_forM fun _ => frames_ite (frames_read fun _ => frames_ite (frames_modify fun _ => rfl))

omit [JsonLib] in
theorem addContactGroup_frames (cfg : Json) :
    Frames (fun c => (c.schedules, c.contacts, c.policies))
      (forItems cfg "contact_groups" addContactGroup) :=
  frames_forM fun _ => frames_ite (frames_read fun _ => frames_ite (frames_modify fun _ => rfl))

theorem addPolicyItem_frames (cfg : Json) :
    Frames (fun c => (c.schedules, c.contacts, c.contactGroups))
      (forItems cfg "policies" addPolicyItem) :=
  frames_forM fun _ => frames_ite (frames_read fun _ => frames_ite (frames_modify fun _ => rfl))

/-- **The tables after `configure`.** -/
theorem configured {m : NotificationManager} {cfg : Json} (hcfg : cfg.isObject = true)
    (hok : (m.configure cfg).1 = .ok ()) : Configured cfg (m.configure cfg).2.config := by
  show Configured cfg ((configureTables m.configDir cfg).run.run m.config).2
  replace hok : ((configureTables m.configDir cfg).run.run m.config).1 = .ok () := hok
  rcases hrun : (configureTables m.configDir cfg).run.run m.config with ⟨x, c'⟩
  rw [hrun] at hok
  obtain rfl : x = .ok () := hok
  unfold configureTables at hrun
  obtain ⟨_, c, hclear, hrun⟩ := run_bind_ok hrun
  rw [if_pos hcfg] at hrun
  obtain ⟨_, c₁, hschedules, hrun⟩ := run_bind_ok hrun
  obtain ⟨_, c₂, halways, hrun⟩ := run_bind_ok hrun
  obtain ⟨_, c₃, hvm, hrun⟩ := run_bind_ok hrun
  obtain ⟨_, c₄, htts, hrun⟩ := run_bind_ok hrun
  obtain ⟨_, c₅, hnosip, hrun⟩ := run_bind_ok hrun
  obtain ⟨_, c₆, hsip, hrun⟩ := run_bind_ok hrun
  obtain ⟨_, c₇, haudio, hrun⟩ := run_bind_ok hrun
  obtain ⟨_, c₈, hnosmtp, hrun⟩ := run_bind_ok hrun
  obtain ⟨_, c₉, hsmtp, hrun⟩ := run_bind_ok hrun
  obtain ⟨_, d₁, hcontacts, hrun⟩ := run_bind_ok hrun
  obtain ⟨_, d₂, hgroups, hrun⟩ := run_bind_ok hrun
  obtain ⟨_, d₃, hpolicies, hrun⟩ := run_bind_ok hrun
  obtain ⟨_, d₄, hassignments, hrun⟩ := run_bind_ok hrun
  obtain ⟨_, d₅, hbindings, hroutes⟩ := run_bind_ok hrun
  have htables : c₉.tables = c₂.tables := by
    have hsmtp₀ : c₈.tables = c₇.tables := by rw [modify_ok hnosmtp]; rfl
    have hsip₀ : c₅.tables = c₄.tables := by rw [modify_ok hnosip]; rfl
    rw [(frames_forObject configureSmtp_frames cfg "smtp").of_ok hsmtp, hsmtp₀,
      (frames_forObject (configureAudio_frames m.configDir) cfg "audio").of_ok haudio,
      (frames_forObject configureSip_frames cfg "sip").of_ok hsip, hsip₀,
      (configureTts_frames cfg).of_ok htts,
      (frames_forObject configureVoiceModem_frames cfg "voice_modem").of_ok hvm]
  have hlast : c'.tables = d₃.tables := by
    have hroute : Frames NotificationConfig.tables (forItems cfg "routes" addConfiguredRoute) :=
      frames_forM fun item => frames_ite (frames_read fun r => frames_ite (frames_modify fun _ => rfl))
    have hbinding : Frames NotificationConfig.tables (forItems cfg "alarm_groups" addAlarmGroup) :=
      frames_forM fun item => frames_ite (frames_read fun r => frames_ite (frames_modify fun _ => rfl))
    have hassignment : Frames NotificationConfig.tables (forItems cfg "assignments" addAssignment) :=
      frames_forM fun item => frames_ite (frames_read fun r => frames_ite (frames_modify fun _ => rfl))
    rw [hroute.of_ok hroutes, hbinding.of_ok hbindings, hassignment.of_ok hassignments]
  have hcleared : c.tables = (fun _ => none, fun _ => none, fun _ => none, fun _ => none) := by
    rw [modify_ok hclear]
    rfl
  -- each of the four sections fills its table and keeps the other three
  have hc₁ := (addSchedule_frames cfg).of_ok hschedules
  have hd₁ := (addContact_frames cfg).of_ok hcontacts
  have hd₂ := (addContactGroup_frames cfg).of_ok hgroups
  have hd₃ := (addPolicyItem_frames cfg).of_ok hpolicies
  have hfill₁ := forM_items_ok (p := NotificationConfig.schedules) (fun _ => rfl) (fun _ _ => rfl)
    hschedules
  have hfill₂ := forM_items_ok (p := NotificationConfig.contacts) (fun _ => rfl) (fun _ _ => rfl)
    hcontacts
  have hfill₃ := forM_items_ok (p := NotificationConfig.contactGroups) (fun _ => rfl) (fun _ _ => rfl)
    hgroups
  have hfill₄ := forM_items_ok (p := NotificationConfig.policies) (fun _ => rfl) (fun _ _ => rfl)
    hpolicies
  have hs₂ := addAlwaysSchedule_schedules c₁
  obtain ⟨ht₁, ht₂, ht₃⟩ := addAlwaysSchedule_tables c₁
  rw [← modify_ok halways] at hs₂ ht₁ ht₂ ht₃
  unfold NotificationConfig.tables at htables hlast hcleared
  simp only [Prod.mk.injEq] at htables hlast hcleared hc₁ hd₁ hd₂ hd₃
  obtain ⟨hs₀, hcon₀, hgr₀, hpol₀⟩ := hcleared
  refine ⟨?_, ?_, ?_, ?_⟩
  · rw [hlast.1, hd₃.1, hd₂.1, hd₁.1, htables.1, hs₂, hfill₁, hs₀]
    rfl
  · rw [hlast.2.1, hd₃.2.1, hd₂.2.1, hfill₂, htables.2.1, ht₁, hc₁.1, hcon₀]
    rfl
  · rw [hlast.2.2.1, hd₃.2.2, hfill₃, hd₁.2.1, htables.2.2.1, ht₂, hc₁.2.1, hgr₀]
    rfl
  · rw [hlast.2.2.2, hfill₄, hd₂.2.2, hd₁.2.2, htables.2.2.2, ht₃, hc₁.2.2, hpol₀]
    rfl

end OpcBridge.Alarms
