import OpcBridge.Alarms.Configured

/-!
# The order of the targets

`notification_config_from_root` keeps the targets it has seen in an index and looks the members of a
group up in it, in the same pass. The contacts of a document do not depend on the order of its
targets, but a group has only the phones that are listed before it. `contacts_order_iff` says for
which two orders the groups have the same members, and when every enabled phone of an enabled group
is reached.
-/

namespace OpcBridge.Alarms

open OpcBridge Lib Json

theorem filterAuxM_ok {α ε : Type} {f : α → Except ε Bool} {p : α → Bool} (h : ∀ x, f x = .ok (p x))
    (xs acc : List α) : xs.filterAuxM f acc = .ok ((xs.filter p).reverse ++ acc) := by
  induction xs generalizing acc with
  | nil => rfl
  | cons x xs ih =>
    show (f x >>= fun b => xs.filterAuxM f (cond b (x :: acc) acc)) = _
    rw [h]
    show xs.filterAuxM f (cond (p x) (x :: acc) acc) = _
    rw [ih, List.filter_cons]
    cases p x
    · rfl
    · rw [if_pos rfl, List.reverse_cons, List.append_assoc]
      rfl

theorem filterM_ok {α ε : Type} {f : α → Except ε Bool} {p : α → Bool} (h : ∀ x, f x = .ok (p x))
    (xs : List α) : xs.filterM f = .ok (xs.filter p) := by
  unfold List.filterM
  rw [filterAuxM_ok h]
  show Except.ok ((xs.filter p).reverse ++ []).reverse = _
  rw [List.append_nil, List.reverse_reverse]

theorem exists_ok_bind {α β ε : Type} {x : Except ε α} {f : α → Except ε β} {P : β → Prop} {a : α}
    (hx : x = .ok a) (h : ∃ b, f a = .ok b ∧ P b) : ∃ b, (x >>= f) = .ok b ∧ P b := by
  rw [hx]
  exact h

section
variable [Floats]

/-! ## Targets -/

def targetId (t : Json) : String := jsonStringOrEmpty t "id"

def targetType (t : Json) : String := jsonStringOrEmpty t "type"

/-- An entry that the pass does not skip. -/
def isTarget (t : Json) : Bool := targetId t != "" && targetType t != ""

def isPhone (t : Json) : Bool := isTarget t && targetType t == "phone"

def isGroup (t : Json) : Bool := isTarget t && targetType t == "group"

def targetEnabled (t : Json) : Bool := valueOr getBool t "enabled" true

/-- The names in `members`. -/
def memberNames (t : Json) : List String := stringItems (itemsOf t "members")

/-- The index has only entries of the pass, under their ids. -/
def Indexed (targetById : String → Option Json) : Prop :=
  ∀ id t, targetById id = some t → targetId t = id ∧ ∃ type, t.valueString "type" "" = .ok type

/-- The index has a phone under the id. -/
def phoneAt (targetById : String → Option Json) (id : String) : Bool :=
  (targetById id).any fun t => targetType t == "phone"

/-- The entry of a group in `contact_groups`. -/
def groupEntry (targetById : String → Option Json) (t : Json) : Json :=
  .object [("id", .string (targetId t)), ("name", .string (valueOr getString t "name" (targetId t))),
    ("enabled", .bool (targetEnabled t)),
    ("contacts", jsonStrings ((memberNames t).filter (phoneAt targetById)))]

theorem groupOfTarget_eq {targetById : String → Option Json} (hindex : Indexed targetById) (t : Json) :
    groupOfTarget targetById (targetId t) t = (do
      let _ ← t.valueString "name" (targetId t)
      let _ ← t.valueBool "enabled" true
      return groupEntry targetById t) := by
  unfold groupOfTarget
  cases hname : t.valueString "name" (targetId t) with
  | error e => rfl
  | ok name =>
    cases henabled : t.valueBool "enabled" true with
    | error e => rfl
    | ok enabled =>
      dsimp only [bind, Except.bind]
      rw [filterM_ok (p := phoneAt targetById)]
      · unfold groupEntry targetEnabled
        rw [← value_ok hname, ← value_ok henabled]
        rfl
      · intro m
        unfold phoneAt
        cases hm : targetById m with
        | none => rfl
        | some target =>
          obtain ⟨-, type, htype⟩ := hindex m target hm
          dsimp only
          rw [htype, valueString_empty_ok htype]
          rfl

/-! ## The pass -/

/-- What an entry adds to `contacts`: an exception depends on the entry alone. -/
def contactsRead (t : Json) : Except String (List Json) := do
  if !t.isObject then return []
  let id ← t.valueString "id" ""
  let type ← t.valueString "type" ""
  if id = "" ∨ type = "" then return []
  let enabled ← if type = "phone" then t.valueBool "enabled" true else pure false
  if type = "phone" && enabled then
    let contact ← contactOfTarget id t
    return [contact]
  else if type = "group" then
    let _ ← t.valueString "name" id
    let _ ← t.valueBool "enabled" true
    return []
  else return []

def contactsOf (t : Json) : List Json := (contactsRead t).toOption.getD []

def TargetTables.added (tables : TargetTables) (t : Json) : TargetTables :=
  if isTarget t then
    { targetById := Function.update tables.targetById (targetId t) (some t)
      contacts := tables.contacts ++ contactsOf t
      contactGroups := tables.contactGroups ++
        if isGroup t then [groupEntry (Function.update tables.targetById (targetId t) (some t)) t]
        else [] }
  else tables

theorem Indexed.update {targetById : String → Option Json} (hindex : Indexed targetById) {t : Json}
    {type : String} (htype : t.valueString "type" "" = .ok type) :
    Indexed (Function.update targetById (targetId t) (some t)) := by
  intro id t' ht'
  by_cases hid : id = targetId t
  · subst hid
    rw [Function.update_self] at ht'
    obtain rfl := Option.some.inj ht'
    exact ⟨rfl, type, htype⟩
  · rw [Function.update_of_ne hid] at ht'
    exact hindex id t' ht'

/-- **One entry of the pass.** -/
theorem addTarget_eq {tables : TargetTables} (hindex : Indexed tables.targetById) (t : Json) :
    addTarget tables t = (contactsRead t).map fun _ => tables.added t := by
  have hcontacts : contactsOf t = (contactsRead t).toOption.getD [] := rfl
  unfold TargetTables.added
  rw [hcontacts]
  unfold addTarget contactsRead
  by_cases hobj : t.isObject = true
  · rw [hobj]
    cases hid : t.valueString "id" "" with
    | error e => rfl
    | ok id =>
      cases htype : t.valueString "type" "" with
      | error e => rfl
      | ok type =>
        have hid' : targetId t = id := (valueString_empty_ok hid).symm
        have htype' : targetType t = type := (valueString_empty_ok htype).symm
        unfold isTarget isGroup isTarget
        rw [hid', htype']
        by_cases hempty : id = "" ∨ type = ""
        · have hskip : (id != "" && type != "") = false := by
            rcases hempty with h | h <;> simp [h]
          rw [hskip]
          simp only [bind, Except.bind, Bool.not_true, if_pos hempty]
          rfl
        · have htake : (id != "" && type != "") = true := by
            rw [not_or] at hempty
            simp [hempty.1, hempty.2]
          rw [htake]
          simp only [bind, Except.bind, if_neg hempty]
          by_cases hphone : type = "phone"
          · subst hphone
            cases henabled : t.valueBool "enabled" true with
            | error e => rfl
            | ok enabled =>
              cases enabled with
              | false => simp [pure, Except.pure, Except.map, Except.toOption]
              | true =>
                cases hcontact : contactOfTarget id t with
                | error e => simp [Except.map]
                | ok c => simp [pure, Except.pure, Except.map, Except.toOption]
          · by_cases hgroup : type = "group"
            · subst hgroup
              have hgroups := groupOfTarget_eq (hindex.update htype) t
              rw [hid'] at hgroups
              cases hname : t.valueString "name" id with
              | error e => simp [hgroups, hname, pure, Except.pure, Except.map, bind, Except.bind]
              | ok name =>
                cases henabled : t.valueBool "enabled" true with
                | error e =>
                  simp [hgroups, hname, henabled, pure, Except.pure, Except.map, bind, Except.bind]
                | ok enabled =>
                  simp [hgroups, hname, henabled, pure, Except.pure, Except.map, bind, Except.bind,
                    Except.toOption]
            · simp [hphone, hgroup, pure, Except.pure, Except.map, Except.toOption]
  · have hmissing : ∀ key, jsonStringOrEmpty t key = "" := fun key => by
      cases t with
      | object fields => exact absurd rfl hobj
      | _ => rfl
    have hskip : isTarget t = false := by
      unfold isTarget targetId
      rw [hmissing]
      rfl
    rw [hskip, Bool.eq_false_iff.2 hobj]
    rfl

theorem type_of_isTarget {t : Json} (h : isTarget t = true) :
    ∃ type, t.valueString "type" "" = .ok type := by
  have hfind := find_of_text (bne_iff_ne.1 (Bool.and_eq_true_iff.1 h).2)
  refine ⟨targetType t, ?_⟩
  unfold valueString
  rw [value_of_isObject _ (isObject_of_find hfind), hfind]
  rfl

theorem Indexed.added {tables : TargetTables} (hindex : Indexed tables.targetById) (t : Json) :
    Indexed (tables.added t).targetById := by
  unfold TargetTables.added
  split
  · rename_i htarget
    obtain ⟨type, htype⟩ := type_of_isTarget htarget
    exact hindex.update htype
  · exact hindex

/-- **The pass.** -/
theorem foldlM_addTarget_ok {l : List Json} {tables tables' : TargetTables}
    (hindex : Indexed tables.targetById) :
    l.foldlM addTarget tables = .ok tables' ↔
      (∀ t ∈ l, ∃ contacts, contactsRead t = .ok contacts) ∧
        tables' = l.foldl TargetTables.added tables := by
  induction l generalizing tables with
  | nil =>
    rw [List.foldlM_nil, List.foldl_nil]
    constructor
    · intro h
      exact ⟨fun t ht => (by cases ht), (Except.ok.inj h).symm⟩
    · rintro ⟨-, rfl⟩
      rfl
  | cons t l ih =>
    rw [List.foldlM_cons, addTarget_eq hindex, List.foldl_cons, List.forall_mem_cons]
    cases hread : contactsRead t with
    | error e =>
      refine iff_of_false (fun h => by cases h) ?_
      rintro ⟨⟨⟨contacts, hcontacts⟩, -⟩, -⟩
      cases hcontacts
    | ok contacts =>
      show l.foldlM addTarget (tables.added t) = .ok tables' ↔ _
      rw [ih (hindex.added t)]
      exact and_congr_left' (and_iff_right ⟨contacts, rfl⟩).symm

/-- The entries that go into the index. -/
def targetEntries (l : List Json) : List (String × Json) :=
  (l.filter isTarget).map fun t => (targetId t, t)

theorem foldl_added_targetById (l : List Json) (tables : TargetTables) :
    (l.foldl TargetTables.added tables).targetById =
      assignAll tables.targetById (targetEntries l) := by
  induction l generalizing tables with
  | nil => rfl
  | cons t l ih =>
    rw [List.foldl_cons, ih]
    unfold TargetTables.added targetEntries
    by_cases ht : isTarget t = true
    · rw [if_pos ht, List.filter_cons_of_pos ht]
      rfl
    · rw [if_neg ht, List.filter_cons_of_neg ht]

theorem foldl_added_contacts (l : List Json) (tables : TargetTables) :
    (l.foldl TargetTables.added tables).contacts =
      tables.contacts ++ (l.filter isTarget).flatMap contactsOf := by
  induction l generalizing tables with
  | nil => exact (List.append_nil _).symm
  | cons t l ih =>
    rw [List.foldl_cons, ih]
    unfold TargetTables.added
    by_cases ht : isTarget t = true
    · rw [if_pos ht, List.filter_cons_of_pos ht, List.flatMap_cons, List.append_assoc]
    · rw [if_neg ht, List.filter_cons_of_neg ht]

/-- A group is resolved with the index of the entries up to it. -/
theorem mem_foldl_added_contactGroups {l : List Json} {tables : TargetTables} {e : Json} :
    e ∈ (l.foldl TargetTables.added tables).contactGroups ↔
      e ∈ tables.contactGroups ∨ ∃ before g after, l = before ++ g :: after ∧ isGroup g = true ∧
        e = groupEntry (assignAll tables.targetById (targetEntries (before ++ [g]))) g := by
  induction l generalizing tables with
  | nil =>
    refine (or_iff_left ?_).symm
    rintro ⟨before, g, after, h, -⟩
    exact absurd h (by simp)
  | cons t l ih =>
    rw [List.foldl_cons, ih]
    have hindex : (tables.added t).targetById = assignAll tables.targetById (targetEntries [t]) :=
      foldl_added_targetById [t] tables
    have happend : ∀ before : List Json,
        targetEntries (t :: before) = targetEntries [t] ++ targetEntries before := fun before => by
      unfold targetEntries
      rw [← List.map_append, ← List.filter_append, List.singleton_append]
    have hhead : e ∈ (tables.added t).contactGroups ↔ e ∈ tables.contactGroups ∨
        isGroup t = true ∧ e = groupEntry (assignAll tables.targetById (targetEntries [t])) t := by
      rw [← hindex]
      unfold TargetTables.added
      by_cases ht : isTarget t = true
      · rw [if_pos ht]
        by_cases hg : isGroup t = true
        · simp [hg]
        · simp [hg]
      · have hg : isGroup t = false := by
          unfold isGroup
          rw [Bool.eq_false_iff.2 ht]
          rfl
        rw [if_neg ht, hg]
        simp
    rw [hhead, or_assoc]
    refine or_congr_right ⟨?_, ?_⟩
    · rintro (⟨hg, rfl⟩ | ⟨before, g, after, rfl, hg, rfl⟩)
      · exact ⟨[], t, l, rfl, hg, rfl⟩
      · refine ⟨t :: before, g, after, rfl, hg, ?_⟩
        rw [List.cons_append, happend, assignAll_append, hindex]
    · rintro ⟨before, g, after, heq, hg, rfl⟩
      cases before with
      | nil =>
        obtain ⟨rfl, rfl⟩ := List.cons.inj heq
        exact .inl ⟨hg, rfl⟩
      | cons s before =>
        obtain ⟨rfl, rfl⟩ := List.cons.inj heq
        refine .inr ⟨before, g, after, rfl, hg, ?_⟩
        rw [List.cons_append, happend, assignAll_append, hindex]

/-! ## The tables -/

/-- The group that an entry of `contact_groups` becomes. -/
def memberGroup (targetById : String → Option Json) (t : Json) : ContactGroup where
  id := targetId t
  name := valueOr getString t "name" (targetId t)
  enabled := targetEnabled t
  contacts := (memberNames t).filter (phoneAt targetById)

theorem readContactGroup_groupEntry (targetById : String → Option Json) (t : Json) :
    readContactGroup (groupEntry targetById t) = .ok (memberGroup targetById t) := by
  have hitems : ∀ texts : List String, stringItems (texts.map Json.string) = texts := fun texts => by
    unfold stringItems
    rw [List.filterMap_map]
    exact List.filterMap_some
  unfold readContactGroup groupEntry jsonStrings memberGroup
  simp [valueString, valueBool, value, find, getString, getBool, memberItems, hitems, bind,
    Except.bind, pure, Except.pure, List.lookup_cons]

variable [JsonLib]

theorem readContact_contact {id : String} {t c : Json} (h : contactOfTarget id t = .ok c) :
    c.isObject = true ∧ jsonStringOrEmpty c "id" = id ∧ ∃ contact, readContact c = .ok contact ∧
      contact.id = id ∧ contact.enabled = targetEnabled t := by
  unfold contactOfTarget at h
  obtain ⟨name, hname, h⟩ := ok_of_bind h
  obtain ⟨phone, hphone, h⟩ := ok_of_bind h
  obtain ⟨home, hhome, h⟩ := ok_of_bind h
  obtain ⟨work, hwork, h⟩ := ok_of_bind h
  obtain ⟨cell, hcell, h⟩ := ok_of_bind h
  obtain ⟨email, hemail, h⟩ := ok_of_bind h
  obtain ⟨enabled, henabled, h⟩ := ok_of_bind h
  have hother : ∀ {text key : String} {f : String → Except String Json},
      (if text = "" then t.valueString key "" >>= f else pure text >>= f) = .ok c →
        ∃ text', f text' = .ok c := fun {text key f} h => by
    split at h
    · obtain ⟨text', -, h⟩ := ok_of_bind h
      exact ⟨text', h⟩
    · exact ⟨text, h⟩
  obtain ⟨cell', h⟩ := hother h
  obtain ⟨home', h⟩ := hother h
  obtain ⟨work', h⟩ := hother h
  obtain rfl := Except.ok.inj h
  refine ⟨rfl, rfl, ?_⟩
  generalize hitem : Json.object _ = item
  have hobj : item.isObject = true := by rw [← hitem]; rfl
  have hfind : ∀ key, key ∈ ["cell", "home", "work"] → item.valueString key "" = .ok "" := by
    intro key hkey
    have hnone : item.find key = none := by
      rw [← hitem, find_object, List.lookup_append, lookup_copied_self]
      simp only [List.mem_cons, List.not_mem_nil, or_false] at hkey
      rcases hkey with rfl | rfl | rfl <;> rfl
    unfold valueString
    rw [value_of_isObject _ hobj, hnone]
  have haudio : ∃ n, clampedMember item "audio_delay_seconds" 0 120 (-1) = .ok n := by
    unfold clampedMember
    cases hm : item.member "audio_delay_seconds" isNumberInteger with
    | none => exact ⟨_, rfl⟩
    | some v =>
      have hv := (member_eq_some.1 hm).2
      cases v with
      | int n => exact ⟨_, rfl⟩
      | uint n => exact ⟨_, rfl⟩
      | _ => cases hv
  obtain ⟨n, hn⟩ := haudio
  have hgiven : ∀ key text, item.find key = some (.string text) → ∀ dflt,
      item.valueString key dflt = .ok text := fun key text hkey dflt => by
    unfold valueString
    rw [value_of_isObject _ hobj, hkey]
    rfl
  have hon : item.valueBool "enabled" true = .ok enabled := by rw [← hitem]; rfl
  -- an empty number is looked for under a second key that a contact never has
  have helse : ∀ {text key : String} {f : String → Except String Contact} {P : Contact → Prop},
      key ∈ ["cell", "home", "work"] → (∀ text', ∃ a, f text' = .ok a ∧ P a) →
        ∃ a, (if text = "" then item.valueString key "" >>= f else pure text >>= f) = .ok a ∧ P a :=
    fun {text key f P} hkey h => by
      split
      · rw [hfind key hkey]
        exact h ""
      · exact h text
  unfold readContact
  refine exists_ok_bind (hgiven "id" id (by rw [← hitem]; rfl) _) ?_
  refine exists_ok_bind (hgiven "name" name (by rw [← hitem]; rfl) _) ?_
  refine exists_ok_bind (hgiven "phone" _ (by rw [← hitem]; rfl) _) ?_
  refine exists_ok_bind (hgiven "phone_home" home' (by rw [← hitem]; rfl) _) ?_
  refine exists_ok_bind (hgiven "phone_work" work' (by rw [← hitem]; rfl) _) ?_
  refine exists_ok_bind (hgiven "phone_cell" cell' (by rw [← hitem]; rfl) _) ?_
  refine exists_ok_bind (hgiven "email" email (by rw [← hitem]; rfl) _) ?_
  refine helse (by simp) fun cell'' => helse (by simp) fun home'' => helse (by simp) fun work'' => ?_
  refine exists_ok_bind hon (exists_ok_bind hn ?_)
  exact ⟨_, rfl, rfl, value_ok henabled⟩

omit [JsonLib] in
/-- Only an enabled phone becomes a contact. -/
theorem contactsRead_ok {t : Json} {contacts : List Json} (h : contactsRead t = .ok contacts) :
    (isPhone t = true ∧ targetEnabled t = true ∧
      ∃ c, contactOfTarget (targetId t) t = .ok c ∧ contacts = [c]) ∨
    (¬ (isPhone t = true ∧ targetEnabled t = true) ∧ contacts = []) := by
  unfold contactsRead at h
  by_cases hobj : t.isObject = true
  · rw [hobj] at h
    obtain ⟨id, hid, h⟩ := ok_of_bind h
    obtain ⟨type, htype, h⟩ := ok_of_bind h
    obtain rfl : targetId t = id := (valueString_empty_ok hid).symm
    obtain rfl : targetType t = type := (valueString_empty_ok htype).symm
    split at h
    · rename_i hempty
      refine .inr ⟨fun hphone => ?_, (Except.ok.inj h).symm⟩
      have htarget := (Bool.and_eq_true_iff.1 (Bool.and_eq_true_iff.1 hphone.1).1)
      exact hempty.elim (bne_iff_ne.1 htarget.1) (bne_iff_ne.1 htarget.2)
    · rename_i hne
      rw [not_or] at hne
      have htarget : isTarget t = true :=
        Bool.and_eq_true_iff.2 ⟨bne_iff_ne.2 hne.1, bne_iff_ne.2 hne.2⟩
      by_cases hphone : targetType t = "phone"
      · have hisPhone : isPhone t = true :=
          Bool.and_eq_true_iff.2 ⟨htarget, beq_iff_eq.2 hphone⟩
        simp only [hphone, if_true, decide_true, Bool.true_and] at h
        obtain ⟨enabled, henabled, h⟩ := ok_of_bind h
        have hon : targetEnabled t = enabled := (value_ok henabled).symm
        cases enabled with
        | true =>
          rw [if_pos rfl] at h
          obtain ⟨c, hc, h⟩ := ok_of_bind h
          exact .inl ⟨hisPhone, hon, c, hc, (Except.ok.inj h).symm⟩
        | false =>
          refine .inr ⟨fun hboth => ?_, ?_⟩
          · rw [hon] at hboth
            cases hboth.2
          · simpa using (Except.ok.inj h).symm
      · have hisPhone : ¬ isPhone t = true := fun hp =>
          hphone (beq_iff_eq.1 (Bool.and_eq_true_iff.1 hp).2)
        refine .inr ⟨fun hboth => hisPhone hboth.1, ?_⟩
        simp only [hphone, if_false, decide_false, Bool.false_and] at h
        replace h : (if targetType t = "group" then (do
            let _ ← t.valueString "name" (targetId t)
            let _ ← t.valueBool "enabled" true
            return []) else pure []) = Except.ok contacts := h
        split at h
        · obtain ⟨_, -, h⟩ := ok_of_bind h
          obtain ⟨_, -, h⟩ := ok_of_bind h
          exact (Except.ok.inj h).symm
        · exact (Except.ok.inj h).symm
  · rw [Bool.eq_false_iff.2 hobj] at h
    refine .inr ⟨fun hboth => hobj ?_, (Except.ok.inj h).symm⟩
    have hid := (Bool.and_eq_true_iff.1 (Bool.and_eq_true_iff.1 hboth.1).1).1
    exact isObject_of_find (find_of_text (bne_iff_ne.1 hid))

omit [JsonLib] in
theorem mem_contactsOf {t c : Json} (h : c ∈ contactsOf t) :
    isPhone t = true ∧ targetEnabled t = true ∧ contactOfTarget (targetId t) t = .ok c := by
  unfold contactsOf at h
  cases hread : contactsRead t with
  | error e =>
    rw [hread] at h
    cases h
  | ok contacts =>
    rw [hread] at h
    replace h : c ∈ contacts := h
    rcases contactsRead_ok hread with ⟨hphone, hon, c', hc', rfl⟩ | ⟨-, rfl⟩
    · obtain rfl := List.mem_singleton.1 h
      exact ⟨hphone, hon, hc'⟩
    · cases h

omit [JsonLib] in
theorem contactsOf_length (t : Json) : (contactsOf t).length ≤ 1 := by
  unfold contactsOf
  cases hread : contactsRead t with
  | error e => exact Nat.zero_le 1
  | ok contacts =>
    show contacts.length ≤ 1
    rcases contactsRead_ok hread with ⟨-, -, c, -, rfl⟩ | ⟨-, rfl⟩
    · exact Nat.le_refl 1
    · exact Nat.zero_le 1

/-- The tables of a pass from the beginning. -/
def pass (l : List Json) : TargetTables := l.foldl TargetTables.added {}

omit [JsonLib] in
theorem pass_contacts (l : List Json) : (pass l).contacts = (l.filter isTarget).flatMap contactsOf := by
  rw [pass, foldl_added_contacts]
  rfl

omit [JsonLib] in
theorem pass_targetById (l : List Json) :
    (pass l).targetById = assignAll (fun _ => none) (targetEntries l) := foldl_added_targetById l {}

def contactEntries (l : List Json) : List (String × Contact) :=
  entries readContact Contact.id (pass l).contacts

def groupEntries (l : List Json) : List (String × ContactGroup) :=
  entries readContactGroup ContactGroup.id (pass l).contactGroups

omit [JsonLib] in
theorem targetId_ne {t : Json} (h : isTarget t = true) : targetId t ≠ "" :=
  bne_iff_ne.1 (Bool.and_eq_true_iff.1 h).1

omit [JsonLib] in
theorem isTarget_of_phone {t : Json} (h : isPhone t = true) : isTarget t = true :=
  (Bool.and_eq_true_iff.1 h).1

omit [JsonLib] in
theorem isTarget_of_group {t : Json} (h : isGroup t = true) : isTarget t = true :=
  (Bool.and_eq_true_iff.1 h).1

/-- The contacts are the enabled phones. -/
theorem mem_contactEntries {l : List Json} {id : String} {contact : Contact} :
    (id, contact) ∈ contactEntries l ↔ ∃ t ∈ l, isPhone t = true ∧ targetEnabled t = true ∧
      ∃ c, c ∈ contactsOf t ∧ readContact c = .ok contact ∧ id = contact.id ∧ id = targetId t ∧
        contact.enabled = true := by
  unfold contactEntries
  rw [mem_entries, pass_contacts]
  constructor
  · rintro ⟨c, hc, -, hread, hne, rfl⟩
    obtain ⟨t, ht, hct⟩ := List.mem_flatMap.1 hc
    obtain ⟨hphone, hon, hcontact⟩ := mem_contactsOf hct
    obtain ⟨-, -, contact', hread', hid, hen⟩ := readContact_contact hcontact
    obtain rfl := Except.ok.inj (hread.symm.trans hread')
    exact ⟨t, (List.mem_filter.1 ht).1, hphone, hon, c, hct, hread, rfl, hid, hen.trans hon⟩
  · rintro ⟨t, ht, hphone, hon, c, hct, hread, rfl, hid, -⟩
    obtain ⟨-, -, hcontact⟩ := mem_contactsOf hct
    refine ⟨c, List.mem_flatMap.2 ⟨t, List.mem_filter.2 ⟨ht, isTarget_of_phone hphone⟩, hct⟩,
      (readContact_contact hcontact).1, hread, ?_, rfl⟩
    rw [hid]
    exact targetId_ne (isTarget_of_phone hphone)

theorem contactEntries_keys (l : List Json) :
    ((contactEntries l).map Prod.fst).Sublist ((l.filter isTarget).map targetId) := by
  unfold contactEntries
  rw [entries_keys targetId, pass_contacts]
  · induction l.filter isTarget with
    | nil => exact List.Sublist.refl _
    | cons t l ih =>
      rw [List.flatMap_cons, List.map_append, List.map_cons]
      have hone : (contactsOf t).map targetId = [] ∨ (contactsOf t).map targetId = [targetId t] := by
        have hlength := contactsOf_length t
        rcases hct : contactsOf t with _ | ⟨c, rest⟩
        · exact .inl rfl
        · rw [hct, List.length_cons] at hlength
          obtain rfl : rest = [] := List.eq_nil_of_length_eq_zero (by omega)
          obtain ⟨-, -, hcontact⟩ := mem_contactsOf (hct ▸ List.mem_cons_self : c ∈ contactsOf t)
          exact .inr (congrArg (fun id => [id]) (readContact_contact hcontact).2.1)
      rcases hone with h | h
      · rw [h]
        exact ih.cons _
      · rw [h]
        exact ih.cons_cons _
  · intro c hc
    rw [pass_contacts] at hc
    obtain ⟨t, ht, hct⟩ := List.mem_flatMap.1 hc
    obtain ⟨hphone, -, hcontact⟩ := mem_contactsOf hct
    obtain ⟨hobj, htext, contact, hread, hid, -⟩ := readContact_contact hcontact
    refine ⟨hobj, ?_, contact, hread, hid.trans htext.symm⟩
    show jsonStringOrEmpty c "id" ≠ ""
    rw [htext]
    exact targetId_ne (isTarget_of_phone hphone)

theorem contactEntries_perm {l l' : List Json} (h : l.Perm l') :
    (contactEntries l).Perm (contactEntries l') := by
  unfold contactEntries
  rw [pass_contacts, pass_contacts]
  exact ((h.filter isTarget).flatMap_right contactsOf).filterMap _

/-! ## The groups -/

omit [JsonLib] in
theorem mem_groupEntries {l : List Json} {id : String} {group : ContactGroup} :
    (id, group) ∈ groupEntries l ↔ ∃ before g after, l = before ++ g :: after ∧ isGroup g = true ∧
      id = targetId g ∧
      group = memberGroup (assignAll (fun _ => none) (targetEntries (before ++ [g]))) g := by
  unfold groupEntries
  rw [mem_entries]
  constructor
  · rintro ⟨e, he, -, hread, -, rfl⟩
    rcases mem_foldl_added_contactGroups.1 he with hnil | ⟨before, g, after, hl, hg, rfl⟩
    · cases hnil
    · rw [readContactGroup_groupEntry] at hread
      obtain rfl := Except.ok.inj hread
      exact ⟨before, g, after, hl, hg, rfl, rfl⟩
  · rintro ⟨before, g, after, hl, hg, rfl, rfl⟩
    refine ⟨groupEntry (assignAll (fun _ => none) (targetEntries (before ++ [g]))) g,
      mem_foldl_added_contactGroups.2 (.inr ⟨before, g, after, hl, hg, rfl⟩), rfl,
      readContactGroup_groupEntry _ _, targetId_ne (isTarget_of_group hg), rfl⟩

omit [JsonLib] in
theorem foldl_added_groupIds (l : List Json) (tables : TargetTables) :
    (l.foldl TargetTables.added tables).contactGroups.map targetId =
      tables.contactGroups.map targetId ++ (l.filter isGroup).map targetId := by
  induction l generalizing tables with
  | nil => exact (List.append_nil _).symm
  | cons t l ih =>
    rw [List.foldl_cons, ih]
    unfold TargetTables.added
    by_cases ht : isTarget t = true
    · rw [if_pos ht]
      by_cases hg : isGroup t = true
      · rw [if_pos hg, List.filter_cons_of_pos hg, List.map_append, List.append_assoc]
        rfl
      · rw [if_neg hg, List.filter_cons_of_neg hg, List.append_nil]
    · have hg : ¬ isGroup t = true := fun hg => ht (isTarget_of_group hg)
      rw [if_neg ht, List.filter_cons_of_neg hg]

omit [JsonLib] in
theorem groupEntries_keys (l : List Json) :
    (groupEntries l).map Prod.fst = (l.filter isGroup).map targetId := by
  unfold groupEntries
  rw [entries_keys targetId]
  · exact foldl_added_groupIds l {}
  · intro e he
    rcases mem_foldl_added_contactGroups.1 he with hnil | ⟨before, g, after, -, hg, rfl⟩
    · cases hnil
    · have hne : targetId g ≠ "" := targetId_ne (isTarget_of_group hg)
      exact ⟨rfl, hne, _, readContactGroup_groupEntry _ _, rfl⟩

/-- The targets have distinct ids. -/
def DistinctTargets (l : List Json) : Prop := ((l.filter isTarget).map targetId).Nodup

def ListedBefore (l : List Json) (p g : Json) : Prop :=
  ∃ before after, l = before ++ g :: after ∧ p ∈ before

omit [JsonLib] in
theorem targetEntries_keys (l : List Json) :
    (targetEntries l).map Prod.fst = (l.filter isTarget).map targetId := List.map_map

omit [JsonLib] in
theorem DistinctTargets.of_append {l l' : List Json} (h : DistinctTargets (l ++ l')) :
    DistinctTargets l := by
  unfold DistinctTargets at h
  rw [List.filter_append, List.map_append] at h
  exact h.of_append_left

omit [JsonLib] in
theorem DistinctTargets.groups {l : List Json} (h : DistinctTargets l) :
    ((groupEntries l).map Prod.fst).Nodup := by
  rw [groupEntries_keys]
  have hfilter : l.filter isGroup = (l.filter isTarget).filter isGroup := by
    rw [List.filter_filter]
    refine List.filter_congr fun t _ => ?_
    cases hg : isGroup t with
    | false => rfl
    | true => exact (Bool.and_eq_true_iff.2 ⟨rfl, isTarget_of_group hg⟩).symm
  rw [hfilter]
  exact h.sublist (List.filter_sublist.map targetId)

omit [JsonLib] in
/-- An id is listed once. -/
theorem DistinctTargets.notMem {before after : List Json} {g : Json}
    (h : DistinctTargets (before ++ g :: after)) (hg : isTarget g = true) :
    g ∉ before ∧ g ∉ after := by
  unfold DistinctTargets at h
  rw [List.filter_append, List.filter_cons_of_pos hg, List.map_append, List.map_cons] at h
  constructor
  · intro hmem
    have hbefore : targetId g ∈ (before.filter isTarget).map targetId :=
      List.mem_map_of_mem (List.mem_filter.2 ⟨hmem, hg⟩)
    exact (List.nodup_append.1 h).2.2 _ hbefore _ List.mem_cons_self rfl
  · intro hmem
    have hafter : targetId g ∈ (after.filter isTarget).map targetId :=
      List.mem_map_of_mem (List.mem_filter.2 ⟨hmem, hg⟩)
    exact (List.nodup_cons.1 h.of_append_right).1 hafter

omit [JsonLib] in
theorem phoneAt_iff {before : List Json} {g : Json} (h : DistinctTargets (before ++ [g]))
    (hg : isGroup g = true) (m : String) :
    phoneAt (assignAll (fun _ => none) (targetEntries (before ++ [g]))) m = true ↔
      ∃ p ∈ before, isPhone p = true ∧ targetId p = m := by
  have hkeys : ((targetEntries (before ++ [g])).map Prod.fst).Nodup := by
    rw [targetEntries_keys]
    exact h
  have hindex : ∀ t, assignAll (fun _ => none) (targetEntries (before ++ [g])) m = some t ↔
      t ∈ before ++ [g] ∧ isTarget t = true ∧ m = targetId t := fun t => by
    rw [assignAll_apply, Option.or_none, lastValue_of_nodup hkeys]
    unfold targetEntries
    rw [List.mem_map]
    constructor
    · rintro ⟨t', ht', heq⟩
      obtain ⟨rfl, rfl⟩ := Prod.mk.inj heq
      obtain ⟨hmem, htarget⟩ := List.mem_filter.1 ht'
      exact ⟨hmem, htarget, rfl⟩
    · rintro ⟨hmem, htarget, rfl⟩
      exact ⟨t, List.mem_filter.2 ⟨hmem, htarget⟩, rfl⟩
  unfold phoneAt
  rw [Option.any_eq_true]
  constructor
  · rintro ⟨p, hp, htype⟩
    obtain ⟨hmem, htarget, rfl⟩ := (hindex p).1 hp
    rcases List.mem_append.1 hmem with hmem | hmem
    · exact ⟨p, hmem, Bool.and_eq_true_iff.2 ⟨htarget, htype⟩, rfl⟩
    · obtain rfl := List.mem_singleton.1 hmem
      have hgroup := (Bool.and_eq_true_iff.1 hg).2
      rw [beq_iff_eq] at hgroup htype
      rw [hgroup] at htype
      exact absurd htype (by decide)
  · rintro ⟨p, hmem, hphone, rfl⟩
    obtain ⟨htarget, htype⟩ := Bool.and_eq_true_iff.1 hphone
    exact ⟨p, (hindex p).2 ⟨List.mem_append_left _ hmem, htarget, rfl⟩, htype⟩

omit [JsonLib] in
/-- **A group has the phones that it names and that are listed before it.** -/
theorem group_resolved {l : List Json} (h : DistinctTargets l) {g : Json} (hmem : g ∈ l)
    (hg : isGroup g = true) :
    ∃ group, assignAll (fun _ => none) (groupEntries l) (targetId g) = some group ∧
      group.enabled = targetEnabled g ∧
      ∀ m, m ∈ group.contacts ↔
        m ∈ memberNames g ∧ ∃ p, isPhone p = true ∧ targetId p = m ∧ ListedBefore l p g := by
  obtain ⟨before, after, rfl⟩ := List.append_of_mem hmem
  refine ⟨memberGroup (assignAll (fun _ => none) (targetEntries (before ++ [g]))) g, ?_, rfl, fun m => ?_⟩
  · rw [assignAll_apply, Option.or_none, lastValue_of_nodup h.groups]
    exact mem_groupEntries.2 ⟨before, g, after, rfl, hg, rfl, rfl⟩
  · have hprefix : DistinctTargets (before ++ [g]) := by
      rw [List.append_cons before g after] at h
      exact h.of_append
    show m ∈ (memberNames g).filter _ ↔ _
    rw [List.mem_filter, phoneAt_iff hprefix hg]
    refine and_congr_right fun _ => ?_
    constructor
    · rintro ⟨p, hp, hphone, hid⟩
      exact ⟨p, hphone, hid, before, after, rfl, hp⟩
    · rintro ⟨p, hphone, hid, before', after', heq, hp⟩
      obtain ⟨hbefore, hafter⟩ := h.notMem (isTarget_of_group hg)
      obtain ⟨rfl, -, -⟩ := (List.append_cons_inj_of_notMem hbefore hafter).1 heq
      exact ⟨p, hp, hphone, hid⟩

/-! ## Documents -/

/-- Documents that differ in the order of their targets. -/
structure Reordered (root root' : Json) (l l' : List Json) : Prop where
  targets : root.find "targets" = some (.array l)
  targets' : root'.find "targets" = some (.array l')
  perm : l.Perm l'
  others : ∀ key, key ≠ "targets" → root'.find key = root.find key
  distinct : DistinctTargets l

omit [JsonLib] in
theorem Reordered.distinct' {root root' : Json} {l l' : List Json} (hr : Reordered root root' l l') :
    DistinctTargets l' := ((hr.perm.filter isTarget).map targetId).nodup_iff.1 hr.distinct

theorem notificationConfig_targets {root cfg : Json} {l : List Json}
    (hl : root.find "targets" = some (.array l)) (h : notificationConfigFromRoot root = .ok cfg) :
    (∀ t ∈ l, ∃ contacts, contactsRead t = .ok contacts) ∧
      contactTable cfg = assignAll (fun _ => none) (contactEntries l) ∧
      groupTable cfg = assignAll (fun _ => none) (groupEntries l) := by
  have hitems : (root.memberItems "targets").getD [] = l := by
    unfold memberItems
    rw [hl]
    rfl
  unfold notificationConfigFromRoot at h
  rw [hitems] at h
  obtain ⟨timezone, htimezone, h⟩ := ok_of_bind h
  obtain ⟨targets, htargets, h⟩ := ok_of_bind h
  obtain ⟨routes, hroutes, h⟩ := ok_of_bind h
  obtain ⟨tables, htables, h⟩ := ok_of_bind h
  obtain ⟨hasAudioPolicy, haudio, h⟩ := ok_of_bind h
  obtain ⟨hok, rfl⟩ := (foldlM_addTarget_ok (fun id t ht => by cases ht)).1 htargets
  obtain rfl := Except.ok.inj h
  exact ⟨hok, rfl, rfl⟩

/-- The order of the targets does not decide whether a document is accepted. -/
theorem Reordered.accepted {root root' cfg : Json} {l l' : List Json} (hr : Reordered root root' l l')
    (h : notificationConfigFromRoot root = .ok cfg) :
    ∃ cfg', notificationConfigFromRoot root' = .ok cfg' ∧ True := by
  have hobj := isObject_of_find hr.targets
  have hobj' := isObject_of_find hr.targets'
  have hvalue : root'.valueString "timezone" "" = root.valueString "timezone" "" := by
    unfold valueString
    rw [value_of_isObject _ hobj, value_of_isObject _ hobj', hr.others _ (by decide)]
  have hitems : ∀ key, key ≠ "targets" → root'.memberItems key = root.memberItems key := fun key hkey => by
    unfold memberItems
    rw [hr.others key hkey]
  have hread := (notificationConfig_targets hr.targets h).1
  have hpass : ((root'.memberItems "targets").getD []).foldlM addTarget {} = .ok (pass l') := by
    unfold memberItems
    rw [hr.targets']
    exact (foldlM_addTarget_ok fun id t ht => by cases ht).2
      ⟨fun t ht => hread t (hr.perm.mem_iff.2 ht), rfl⟩
  have hindex : (pass l').targetById = (pass l).targetById := by
    rw [pass_targetById, pass_targetById]
    refine (assignAll_perm ((hr.perm.filter isTarget).map _) ?_ _).symm
    rw [← targetEntries, targetEntries_keys]
    exact hr.distinct
  unfold notificationConfigFromRoot at h ⊢
  rw [hvalue, hpass, hitems _ (by decide), hitems _ (by decide)]
  obtain ⟨timezone, htimezone, h⟩ := ok_of_bind h
  obtain ⟨targets, htargets, h⟩ := ok_of_bind h
  obtain ⟨routes, hroutes, h⟩ := ok_of_bind h
  obtain ⟨tables, htables, h⟩ := ok_of_bind h
  obtain ⟨hasAudioPolicy, haudio, h⟩ := ok_of_bind h
  have htargetsEq : targets = pass l := by
    unfold memberItems at htargets
    rw [hr.targets] at htargets
    exact ((foldlM_addTarget_ok fun id t ht => by cases ht).1 htargets).2
  rw [htargetsEq] at htables
  refine exists_ok_bind htimezone (exists_ok_bind rfl (exists_ok_bind hroutes ?_))
  rw [hindex]
  exact exists_ok_bind htables (exists_ok_bind haudio ⟨_, rfl, trivial⟩)

/-- The same contacts, and for each group the same members. -/
structure ResolvedAlike (cfg cfg' : Json) : Prop where
  contacts : contactTable cfg = contactTable cfg'
  groups : ∀ id, (groupTable cfg id).map (fun group => {m | m ∈ group.contacts}) =
    (groupTable cfg' id).map (fun group => {m | m ∈ group.contacts})

/-- A contact that a policy comes to through the group. -/
def Reached (cfg : Json) (groupId contactId : String) : Prop :=
  ∃ group contact, groupTable cfg groupId = some group ∧ group.enabled = true ∧
    contactId ∈ group.contacts ∧ contactTable cfg contactId = some contact ∧ contact.enabled = true

/-- An enabled phone that an enabled group names. -/
structure NamesPhone (l : List Json) (p g : Json) : Prop where
  phone_mem : p ∈ l
  group_mem : g ∈ l
  phone : isPhone p = true
  group : isGroup g = true
  phoneEnabled : targetEnabled p = true
  groupEnabled : targetEnabled g = true
  named : targetId p ∈ memberNames g

/-- The condition of `contacts_order_iff`. -/
structure ListedAlike (l l' : List Json) : Prop where
  /-- A group is listed after the same ones of the phones that it names. -/
  alike : ∀ p ∈ l, ∀ g ∈ l, isPhone p = true → isGroup g = true → targetId p ∈ memberNames g →
    (ListedBefore l p g ↔ ListedBefore l' p g)
  /-- An enabled group is listed after the enabled phones that it names. -/
  first : ∀ p g, NamesPhone l p g → ListedBefore l p g

omit [JsonLib] in
theorem ListedBefore.mem {l : List Json} {p g : Json} (h : ListedBefore l p g) : p ∈ l := by
  obtain ⟨before, after, rfl, hp⟩ := h
  exact List.mem_append_left _ hp

omit [JsonLib] in
/-- Two targets with one id are one. -/
theorem DistinctTargets.eq {l : List Json} (h : DistinctTargets l) {t t' : Json} (ht : t ∈ l)
    (ht' : t' ∈ l) (hi : isTarget t = true) (hi' : isTarget t' = true)
    (hid : targetId t = targetId t') : t = t' :=
  List.inj_on_of_nodup_map h (List.mem_filter.2 ⟨ht, hi⟩) (List.mem_filter.2 ⟨ht', hi'⟩) hid

theorem contactTable_enabled {l : List Json} (h : DistinctTargets l)
    (hread : ∀ t ∈ l, ∃ contacts, contactsRead t = .ok contacts) {p : Json} (hp : p ∈ l)
    (hphone : isPhone p = true) (hon : targetEnabled p = true) :
    ∃ contact, assignAll (fun _ => none) (contactEntries l) (targetId p) = some contact ∧
      contact.enabled = true := by
  obtain ⟨contacts, hcontacts⟩ := hread p hp
  rcases contactsRead_ok hcontacts with ⟨-, -, c, hc, rfl⟩ | ⟨hnot, -⟩
  · obtain ⟨-, -, contact, hcontact, hid, hen⟩ := readContact_contact hc
    refine ⟨contact, ?_, hen.trans hon⟩
    have hkeys := (contactEntries_keys l).nodup h
    rw [assignAll_apply, Option.or_none, lastValue_of_nodup hkeys]
    refine mem_contactEntries.2 ⟨p, hp, hphone, hon, c, ?_, hcontact, hid.symm, rfl, hen.trans hon⟩
    unfold contactsOf
    rw [hcontacts]
    exact List.mem_singleton.2 rfl
  · exact absurd ⟨hphone, hon⟩ hnot

omit [JsonLib] in
/-- Whether a group has a phone that it names. -/
theorem group_has {l : List Json} (h : DistinctTargets l) {p g : Json} (hp : p ∈ l) (hg : g ∈ l)
    (hphone : isPhone p = true) (hgroup : isGroup g = true) (hnamed : targetId p ∈ memberNames g) :
    ∃ group, assignAll (fun _ => none) (groupEntries l) (targetId g) = some group ∧
      group.enabled = targetEnabled g ∧ (targetId p ∈ group.contacts ↔ ListedBefore l p g) := by
  obtain ⟨group, hsome, hen, hmem⟩ := group_resolved h hg hgroup
  refine ⟨group, hsome, hen, ?_⟩
  rw [hmem, and_iff_right hnamed]
  constructor
  · rintro ⟨p', hphone', hid, hbefore⟩
    have heq := h.eq hbefore.mem hp (isTarget_of_phone hphone') (isTarget_of_phone hphone) hid
    rwa [heq] at hbefore
  · exact fun hbefore => ⟨p, hphone, rfl, hbefore⟩

/-- Two documents with the same members list the phones of a group alike. -/
theorem ResolvedAlike.listed {root root' cfg cfg' : Json} {l l' : List Json}
    (halike : ResolvedAlike cfg cfg') (hr : Reordered root root' l l')
    (h : notificationConfigFromRoot root = .ok cfg) (h' : notificationConfigFromRoot root' = .ok cfg')
    {p g : Json} (hp : p ∈ l) (hg : g ∈ l) (hphone : isPhone p = true) (hgroup : isGroup g = true)
    (hnamed : targetId p ∈ memberNames g) : ListedBefore l p g ↔ ListedBefore l' p g := by
  obtain ⟨group, hsome, -, hiff⟩ := group_has hr.distinct hp hg hphone hgroup hnamed
  obtain ⟨group', hsome', -, hiff'⟩ := group_has hr.distinct' (hr.perm.mem_iff.1 hp)
    (hr.perm.mem_iff.1 hg) hphone hgroup hnamed
  have hsets := halike.groups (targetId g)
  rw [(notificationConfig_targets hr.targets h).2.2, (notificationConfig_targets hr.targets' h').2.2,
    hsome, hsome', Option.map_some, Option.map_some, Option.some.injEq] at hsets
  rw [← hiff, ← hiff']
  exact Set.ext_iff.1 hsets (targetId p)

/-- **The order of the targets.** Contacts do not depend on it. The groups of two orders have the same
members, and every enabled phone of an enabled group is reached, exactly if the phones are listed
alike. -/
theorem contacts_order_iff {root root' cfg : Json} {l l' : List Json} (hr : Reordered root root' l l')
    (h : notificationConfigFromRoot root = .ok cfg) :
    ∃ cfg', notificationConfigFromRoot root' = .ok cfg' ∧
      ((ResolvedAlike cfg cfg' ∧
          ∀ p g, NamesPhone l p g → Reached cfg (targetId g) (targetId p)) ↔ ListedAlike l l') := by
  obtain ⟨cfg', h', -⟩ := hr.accepted h
  refine ⟨cfg', h', ?_⟩
  obtain ⟨hread, hcontacts, hgroups⟩ := notificationConfig_targets hr.targets h
  obtain ⟨-, hcontacts', hgroups'⟩ := notificationConfig_targets hr.targets' h'
  have hkeys : ((contactEntries l).map Prod.fst).Nodup := (contactEntries_keys l).nodup hr.distinct
  constructor
  · rintro ⟨halike, hreached⟩
    refine ⟨fun p hp g hg hphone hgroup hnamed => ?_, fun p g hn => ?_⟩
    · exact halike.listed hr h h' hp hg hphone hgroup hnamed
    · obtain ⟨group, hsome, -, hiff⟩ :=
        group_has hr.distinct hn.phone_mem hn.group_mem hn.phone hn.group hn.named
      obtain ⟨group', -, hsome', -, hmem, -⟩ := hreached p g hn
      rw [hgroups, hsome] at hsome'
      obtain rfl := Option.some.inj hsome'
      exact hiff.1 hmem
  · intro hlisted
    refine ⟨⟨?_, fun id => ?_⟩, fun p g hn => ?_⟩
    · rw [hcontacts, hcontacts', assignAll_perm (contactEntries_perm hr.perm) hkeys]
    · rw [hgroups, hgroups']
      by_cases hid : ∃ g ∈ l, isGroup g = true ∧ targetId g = id
      · obtain ⟨g, hg, hgroup, rfl⟩ := hid
        obtain ⟨group, hsome, -, hmem⟩ := group_resolved hr.distinct hg hgroup
        obtain ⟨group', hsome', -, hmem'⟩ :=
          group_resolved hr.distinct' (hr.perm.mem_iff.1 hg) hgroup
        rw [hsome, hsome', Option.map_some, Option.map_some]
        refine congrArg some (Set.ext fun m => ?_)
        show m ∈ group.contacts ↔ m ∈ group'.contacts
        rw [hmem, hmem']
        refine and_congr_right fun hnamed => exists_congr fun p => and_congr_right fun hphone =>
          and_congr_right fun hpid => ?_
        subst hpid
        constructor
        · exact fun hb => (hlisted.alike p hb.mem g hg hphone hgroup hnamed).1 hb
        · exact fun hb => (hlisted.alike p (hr.perm.mem_iff.2 hb.mem) g hg hphone hgroup hnamed).2 hb
      · have hnone : ∀ l'', (∀ t, t ∈ l'' → t ∈ l) →
            assignAll (fun _ => none) (groupEntries l'') id = none := fun l'' hsub => by
          rw [assignAll_apply, Option.or_none, lastValue_eq_none, groupEntries_keys]
          intro hmem
          obtain ⟨g, hg, rfl⟩ := List.mem_map.1 hmem
          obtain ⟨hg, hgroup⟩ := List.mem_filter.1 hg
          exact hid ⟨g, hsub g hg, hgroup, rfl⟩
        rw [hnone l fun t ht => ht, hnone l' fun t ht => hr.perm.mem_iff.2 ht]
    · obtain ⟨group, hsome, hen, hiff⟩ :=
        group_has hr.distinct hn.phone_mem hn.group_mem hn.phone hn.group hn.named
      obtain ⟨contact, hcontact, hon⟩ :=
        contactTable_enabled hr.distinct hread hn.phone_mem hn.phone hn.phoneEnabled
      refine ⟨group, contact, ?_, hen.trans hn.groupEnabled, hiff.2 (hlisted.first p g hn), ?_, hon⟩
      · rw [hgroups, hsome]
      · rw [hcontacts, hcontact]

end

/-! ## A group before its phone -/

section
attribute [local instance] intFloats intJson

def phoneTarget : Json := .object [("id", .string "ann"), ("type", .string "phone"),
  ("value", .string "555")]

def groupTarget : Json := .object [("id", .string "crew"), ("type", .string "group"),
  ("members", .array [.string "ann"])]

def phoneFirst : Json := .object [("targets", .array [phoneTarget, groupTarget])]

def groupFirst : Json := .object [("targets", .array [groupTarget, phoneTarget])]

theorem reordered_example :
    Reordered groupFirst phoneFirst [groupTarget, phoneTarget] [phoneTarget, groupTarget] where
  targets := rfl
  targets' := rfl
  perm := .swap _ _ _
  others key hkey := by
    have hne : (key == "targets") = false := beq_eq_false_iff_ne.2 hkey
    unfold phoneFirst groupFirst
    rw [find_object, find_object, List.lookup_cons, List.lookup_cons, hne]
  distinct := by
    unfold DistinctTargets
    decide +kernel

theorem groupFirst_accepted : ∃ cfg, notificationConfigFromRoot groupFirst = .ok cfg := ⟨_, rfl⟩

/-- The group has the phone only if it is listed after it. -/
theorem group_first_loses_phone :
    ¬ ∀ (root root' cfg : Json) (l l' : List Json), Reordered root root' l l' →
      notificationConfigFromRoot root = .ok cfg →
        ∃ cfg', notificationConfigFromRoot root' = .ok cfg' ∧ ResolvedAlike cfg cfg' ∧
          ∀ p g, NamesPhone l p g → Reached cfg (targetId g) (targetId p) := by
  intro hall
  obtain ⟨cfg, h⟩ := groupFirst_accepted
  obtain ⟨cfg', h', halike, -⟩ := hall _ _ cfg _ _ reordered_example h
  have hiff := halike.listed reordered_example h h' (p := phoneTarget) (g := groupTarget)
    (by simp) (by simp) (by decide +kernel) (by decide +kernel) (by decide +kernel)
  obtain ⟨before, after, heq, hmem⟩ := hiff.2 ⟨[phoneTarget], [], rfl, List.mem_singleton.2 rfl⟩
  rcases before with _ | ⟨t, before⟩
  · cases hmem
  · have hlength := congrArg List.length heq
    rw [List.length_append, List.length_cons, List.length_cons, List.length_cons, List.length_cons,
      List.length_nil] at hlength
    obtain ⟨rfl, heq⟩ := List.cons.inj heq
    obtain rfl : before = [] := List.eq_nil_of_length_eq_zero (by omega)
    have hid := congrArg targetId (List.mem_singleton.1 hmem)
    exact absurd hid (by decide +kernel)

theorem contacts_order_example : ∃ cfg cfg', notificationConfigFromRoot groupFirst = .ok cfg ∧
    notificationConfigFromRoot phoneFirst = .ok cfg' ∧
    ((ResolvedAlike cfg cfg' ∧ ∀ p g, NamesPhone [groupTarget, phoneTarget] p g →
        Reached cfg (targetId g) (targetId p)) ↔
      ListedAlike [groupTarget, phoneTarget] [phoneTarget, groupTarget]) := by
  obtain ⟨cfg, h⟩ := groupFirst_accepted
  obtain ⟨cfg', h', hiff⟩ := contacts_order_iff reordered_example h
  exact ⟨cfg, cfg', h, h', hiff⟩

end

end OpcBridge.Alarms
