import OpcBridge.Admin.Passwords
import OpcBridge.Lib.Traverse
import Mathlib.Data.List.ReduceOption

/-!
# What the password store holds

A store that was loaded is in normal form (`parsePasswords_normal`), and on normal forms saving and
loading agree (`parsePasswords_written`), except for a user without a first and a last name: the two
are made from the user name then (`passwords_round_trip_iff`).
-/

namespace OpcBridge.Admin

open OpcBridge.Alarms Lib

/-! ## Lists that are collected -/

section
variable {α β : Type} [BEq β] [LawfulBEq β] (drop : β → Bool)

/-- New values that are not dropped are collected. -/
def collect (drop : β → Bool) (f : α → β) (values : List α) (out : List β) : List β :=
  values.foldl (fun out v => if drop (f v) || out.contains (f v) then out else out ++ [f v]) out

theorem collect_spec (f : α → β) (values : List α) {out : List β} (hout : out.Nodup) :
    (collect drop f values out).Nodup ∧ ∀ x ∈ collect drop f values out,
      x ∈ out ∨ drop x = false ∧ ∃ v ∈ values, f v = x := by
  induction values generalizing out with
  | nil => exact ⟨hout, fun x hx => .inl hx⟩
  | cons v values ih =>
    unfold collect at ih ⊢
    rw [List.foldl_cons]
    split
    · obtain ⟨hnodup, hmem⟩ := ih hout
      refine ⟨hnodup, fun x hx => ?_⟩
      rcases hmem x hx with hx | ⟨hkeep, w, hw, hx⟩
      · exact .inl hx
      · exact .inr ⟨hkeep, w, List.mem_cons_of_mem _ hw, hx⟩
    · rename_i hnew
      rw [Bool.or_eq_true, not_or, Bool.not_eq_true, List.contains_iff_mem] at hnew
      have hout' : (out ++ [f v]).Nodup := by
        rw [← List.concat_eq_append]
        exact hout.concat hnew.2
      obtain ⟨hnodup, hmem⟩ := ih hout'
      refine ⟨hnodup, fun x hx => ?_⟩
      rcases hmem x hx with hx | ⟨hkeep, w, hw, hx⟩
      · rcases List.mem_append.1 hx with hx | hx
        · exact .inl hx
        · rw [List.mem_singleton] at hx
          exact .inr ⟨hx ▸ hnew.1, v, List.mem_cons_self, hx.symm⟩
      · exact .inr ⟨hkeep, w, List.mem_cons_of_mem _ hw, hx⟩

theorem collect_self (f : β → β) {values : List β} (out : List β)
    (hnodup : (out ++ values).Nodup)
    (hkeep : ∀ v ∈ values, drop v = false ∧ f v = v) :
    collect drop f values out = out ++ values := by
  induction values generalizing out with
  | nil => simp [collect]
  | cons v values ih =>
    rw [List.forall_mem_cons] at hkeep
    have hnew : v ∉ out := by
      intro hv
      rw [List.nodup_append] at hnodup
      exact hnodup.2.2 v hv v List.mem_cons_self rfl
    have hnodup' : (out ++ [v] ++ values).Nodup := by
      rwa [List.append_assoc, List.singleton_append]
    have h := ih (out ++ [v]) hnodup' hkeep.2
    unfold collect at h ⊢
    rw [List.foldl_cons, hkeep.1.2, if_neg (by simp [hkeep.1.1, hnew]), h, List.append_assoc,
      List.singleton_append]

end

/-! ## Normal forms -/

theorem lowerChar_roleIdChar {c : Char} (h : roleIdChar c = true) : lowerChar c = c := by
  rw [lowerChar, if_neg]
  intro ⟨hlow, hhigh⟩
  simp only [roleIdChar, isDigit, Bool.or_eq_true, Bool.and_eq_true, decide_eq_true_eq,
    beq_iff_eq] at h
  rcases h with ((h | h) | rfl) | rfl
  · exact absurd (le_trans h.1 hhigh) (by decide)
  · exact absurd (le_trans hlow h.2) (by decide)
  · exact absurd hhigh (by decide)
  · exact absurd hlow (by decide)

theorem normalizeAuthRoleId_idem (raw : String) :
    normalizeAuthRoleId (normalizeAuthRoleId raw) = normalizeAuthRoleId raw := by
  by_cases hall : (toLowerCopy raw).toList.all roleIdChar = true
  · have hself : toLowerCopy (toLowerCopy raw) = toLowerCopy raw := by
      have hmap : (toLowerCopy raw).toList.map lowerChar = (toLowerCopy raw).toList.map id :=
        List.map_congr_left fun c hc => lowerChar_roleIdChar (List.all_eq_true.1 hall c hc)
      rw [toLowerCopy, hmap, List.map_id, String.ofList_toList]
    have hid : normalizeAuthRoleId raw = toLowerCopy raw := if_pos hall
    rw [hid, normalizeAuthRoleId, hself]
    exact if_pos hall
  · have hid : normalizeAuthRoleId raw = "" := if_neg hall
    rw [hid]
    decide

structure AuthRoleRecord.Normal (r : AuthRoleRecord) : Prop where
  id_ne : r.id ≠ ""
  id_normal : normalizeAuthRoleId r.id = r.id
  label_ne : r.label ≠ ""
  permissions_valid : ∀ id ∈ r.permissions, isValidPermissionId id = true
  permissions_nodup : r.permissions.Nodup

structure AuthUserRecord.Normal (roles : List AuthRoleRecord) (u : AuthUserRecord) : Prop where
  username_ne : u.username ≠ ""
  username_normal : normalizeAuthUsername u.username = u.username
  name_eq : u.name = authUserDisplayName { u with name := "" }
  groups_ne : u.groups ≠ []
  groups_nodup : u.groups.Nodup
  groups_normal : ∀ id ∈ u.groups, id ≠ "" ∧ normalizeAuthRoleId id = id
  groups_exist : ∀ id ∈ u.groups, id ∈ roles.map AuthRoleRecord.id
  iterations_low : 10000 ≤ u.iterations
  iterations_high : u.iterations ≤ 5000000
  salt_ne : u.saltB64 ≠ ""
  hash_ne : u.hashB64 ≠ ""

structure AuthStore.Normal (s : AuthStore) : Prop where
  timeout_low : 0 ≤ s.authTimeoutMinutes
  timeout_high : s.authTimeoutMinutes < 2 ^ 31
  roles : ∀ r ∈ s.authRoles, r.Normal
  ids_nodup : (s.authRoles.map AuthRoleRecord.id).Nodup
  admin : "admin" ∈ s.authRoles.map AuthRoleRecord.id
  users : ∀ u ∈ s.authUsers, u.Normal s.authRoles
  configured : s.userStoreConfigured = !s.authUsers.isEmpty

theorem hasRole_iff {roles : List AuthRoleRecord} {id : String} :
    hasRole roles id = true ↔ id ∈ roles.map AuthRoleRecord.id := by
  simp [hasRole]

/-! ## Loading gives normal forms -/

theorem allPermissionIds_spec : allPermissionIds.Nodup ∧
    ∀ id ∈ allPermissionIds, isValidPermissionId id = true := by
  decide

theorem adminRole_normal : adminRole.Normal where
  id_ne := by decide
  id_normal := by decide
  label_ne := by decide
  permissions_valid := allPermissionIds_spec.2
  permissions_nodup := allPermissionIds_spec.1

theorem addRole_spec (l : List AuthRoleRecord) {roles : List AuthRoleRecord}
    (hroles : (roles.map AuthRoleRecord.id).Nodup) :
    ((l.foldl addRole roles).map AuthRoleRecord.id).Nodup ∧
      ∀ r ∈ l.foldl addRole roles, r ∈ roles ∨ r ∈ l := by
  induction l generalizing roles with
  | nil => exact ⟨hroles, fun r hr => .inl hr⟩
  | cons r l ih =>
    rw [List.foldl_cons, addRole]
    split
    · obtain ⟨hnodup, hmem⟩ := ih hroles
      exact ⟨hnodup, fun x hx => (hmem x hx).imp_right (List.mem_cons_of_mem _)⟩
    · rename_i hnew
      rw [hasRole_iff] at hnew
      have hroles' : ((roles ++ [r]).map AuthRoleRecord.id).Nodup := by
        rw [List.map_append, List.map_singleton, ← List.concat_eq_append]
        exact hroles.concat hnew
      obtain ⟨hnodup, hmem⟩ := ih hroles'
      refine ⟨hnodup, fun x hx => ?_⟩
      rcases hmem x hx with hx | hx
      · rcases List.mem_append.1 hx with hx | hx
        · exact .inl hx
        · exact .inr (List.mem_singleton.1 hx ▸ List.mem_cons_self)
      · exact .inr (List.mem_cons_of_mem _ hx)

section
variable [Floats]

theorem parsePermissionList_spec (j : Json) :
    (parsePermissionList j).Nodup ∧ ∀ id ∈ parsePermissionList j, isValidPermissionId id = true := by
  obtain ⟨hnodup, hmem⟩ := collect_spec (fun id => !isValidPermissionId id) id
    (Json.stringItems (items j)) List.nodup_nil
  refine ⟨hnodup, fun id hid => ?_⟩
  rcases hmem id hid with h | ⟨hkeep, -⟩
  · cases h
  · simpa using hkeep

theorem groupList_spec (j : Json) : (groupList j).Nodup ∧
    ∀ id ∈ groupList j, id ≠ "" ∧ normalizeAuthRoleId id = id := by
  obtain ⟨hnodup, hmem⟩ := collect_spec String.isEmpty normalizeAuthRoleId
    (Json.stringItems (items j)) List.nodup_nil
  refine ⟨hnodup, fun id hid => ?_⟩
  rcases hmem id hid with h | ⟨hkeep, v, -, rfl⟩
  · cases h
  · exact ⟨by simpa using hkeep, normalizeAuthRoleId_idem v⟩

theorem readRole_normal {rj : Json} {r : AuthRoleRecord} (h : readRole rj = some r) : r.Normal := by
  unfold readRole at h
  dsimp only at h
  split at h
  · cases h
  · rename_i hid
    obtain rfl := Option.some.inj h
    rw [Bool.or_eq_true, not_or, String.isEmpty_iff] at hid
    refine ⟨hid.2, normalizeAuthRoleId_idem _, ?_, ?_, ?_⟩
    · dsimp only [jsonStringOrDefault]
      split
      · exact hid.2
      · rename_i hlabel
        simpa using hlabel
    · dsimp only
      split
      · exact allPermissionIds_spec.2
      · exact (parsePermissionList_spec _).2
    · dsimp only
      split
      · exact allPermissionIds_spec.1
      · exact (parsePermissionList_spec _).1

theorem readRoles_normal (j : Json) : (∀ r ∈ readRoles j, r.Normal) ∧
    ((readRoles j).map AuthRoleRecord.id).Nodup ∧
      "admin" ∈ (readRoles j).map AuthRoleRecord.id := by
  unfold readRoles ensureAdmin
  dsimp only
  generalize hl : (items _).filterMap readRole = l
  have hnormal : ∀ r ∈ l, r.Normal := by
    intro r hr
    rw [← hl] at hr
    obtain ⟨rj, -, hread⟩ := List.mem_filterMap.1 hr
    exact readRole_normal hread
  obtain ⟨hnodup, hmem⟩ := @addRole_spec l [] List.nodup_nil
  have hnormal' : ∀ r ∈ l.foldl addRole [], r.Normal := by
    intro r hr
    rcases hmem r hr with hr | hr
    · cases hr
    · exact hnormal r hr
  split
  · rename_i hadmin
    exact ⟨hnormal', hnodup, hasRole_iff.1 hadmin⟩
  · rename_i hadmin
    rw [hasRole_iff] at hadmin
    refine ⟨?_, ?_, by simp [adminRole]⟩
    · intro r hr
      rcases List.mem_append.1 hr with hr | hr
      · exact hnormal' r hr
      · exact List.mem_singleton.1 hr ▸ adminRole_normal
    · rw [List.map_append, List.map_singleton, ← List.concat_eq_append]
      exact hnodup.concat hadmin

theorem readUserGroups_spec (roles : List AuthRoleRecord) (u : Json) :
    (readUserGroups roles u).Nodup ∧ ∀ id ∈ readUserGroups roles u,
      (id ≠ "" ∧ normalizeAuthRoleId id = id) ∧ id ∈ roles.map AuthRoleRecord.id := by
  unfold readUserGroups
  dsimp only
  have hgroups : ∀ l : List String, l.Nodup ∧
      (∀ id ∈ l, id ≠ "" ∧ normalizeAuthRoleId id = id) → (l.filter (hasRole roles)).Nodup ∧
        ∀ id ∈ l.filter (hasRole roles),
          (id ≠ "" ∧ normalizeAuthRoleId id = id) ∧ id ∈ roles.map AuthRoleRecord.id := by
    intro l ⟨hnodup, hnormal⟩
    refine ⟨hnodup.filter _, fun id hid => ?_⟩
    obtain ⟨hl, hrole⟩ := List.mem_filter.1 hid
    exact ⟨hnormal id hl, hasRole_iff.1 hrole⟩
  apply hgroups
  split
  · split
    · exact ⟨List.nodup_nil, by simp⟩
    · rename_i hlegacy
      refine ⟨List.nodup_singleton _, fun id hid => ?_⟩
      obtain rfl := List.mem_singleton.1 hid
      exact ⟨by simpa using hlegacy, normalizeAuthRoleId_idem _⟩
  · exact groupList_spec _

omit [Floats] in
/-- The names that are set. -/
theorem setAuthUserNames_spec (username first last legacy : String) :
    (setAuthUserNames { username := username } first last legacy).username = username ∧
      (setAuthUserNames { username := username } first last legacy).name = authUserDisplayName
        { setAuthUserNames { username := username } first last legacy with name := "" } :=
  ⟨rfl, rfl⟩

variable [JsonLib]

theorem readUser_normal {roles : List AuthRoleRecord} {uj : Json} {u : AuthUserRecord}
    (h : readUser roles uj = .ok (some u)) : u.Normal roles := by
  unfold readUser at h
  split at h
  · dsimp only at h
    have hnames := setAuthUserNames_spec (normalizeAuthUsername (jsonStringOrEmpty uj "username"))
      (jsonStringOrEmpty uj "first_name") (jsonStringOrEmpty uj "last_name")
      (jsonStringOrDefault uj "name" (normalizeAuthUsername (jsonStringOrEmpty uj "username")))
    generalize setAuthUserNames _ _ _ _ = named at h hnames
    obtain ⟨iterations, -, h⟩ := bind_ok.1 h
    have h := Except.ok.inj h
    split at h
    · cases h
    · rename_i hcomplete
      obtain rfl := Option.some.inj h
      simp only [Bool.or_eq_true, String.isEmpty_iff, List.isEmpty_iff, not_or] at hcomplete
      obtain ⟨⟨⟨husername, hsalt⟩, hhash⟩, hne⟩ := hcomplete
      obtain ⟨hnodup, hmem⟩ := readUserGroups_spec roles uj
      refine ⟨husername, ?_, hnames.2, hne, hnodup,
        fun id hid => (hmem id hid).1, fun id hid => (hmem id hid).2, ?_, ?_, hsalt, hhash⟩
      · show normalizeAuthUsername named.username = named.username
        rw [hnames.1]
        exact normalizeAuthUsername_idem _
      · exact le_max_left _ _
      · exact max_le (by decide) (min_le_left _ _)
  · cases h

theorem getInt_range (laws : ∀ x : F64, -2 ^ 31 ≤ JsonLib.truncate x ∧ JsonLib.truncate x < 2 ^ 31)
    {j : Json} {n : Int} (h : j.getInt = .ok n) : n < 2 ^ 31 := by
  cases j with
  | bool b =>
    obtain rfl := Except.ok.inj h
    split <;> decide
  | int m =>
    obtain rfl := Except.ok.inj h
    exact Int32.toInt_lt _
  | uint m =>
    obtain rfl := Except.ok.inj h
    exact Int32.toInt_lt _
  | float x =>
    obtain rfl := Except.ok.inj h
    exact (laws x).2
  | null => cases h
  | string s => cases h
  | array items => cases h
  | object fields => cases h

theorem parsePasswords_normal
    (htruncate : ∀ x : F64, -2 ^ 31 ≤ JsonLib.truncate x ∧ JsonLib.truncate x < 2 ^ 31)
    {j : Json} {store : AuthStore} (h : parsePasswords j = .ok store) : store.Normal := by
  unfold parsePasswords at h
  obtain ⟨timeout, htimeout, h⟩ := bind_ok.1 h
  obtain ⟨users, husers, h⟩ := bind_ok.1 h
  obtain rfl := Except.ok.inj h
  obtain ⟨hroles, hnodup, hadmin⟩ := readRoles_normal j
  have hhigh : timeout < 2 ^ 31 := by
    unfold Json.valueInt Json.value at htimeout
    split at htimeout
    · split at htimeout
      · exact getInt_range htruncate htimeout
      · obtain rfl := Except.ok.inj htimeout
        decide
    · cases htimeout
  refine ⟨le_max_left _ _, max_lt (by decide) hhigh, hroles, hnodup, hadmin, fun u hu => ?_, rfl⟩
  rw [List.reduceOption_mem_iff, mem_mapM husers] at hu
  obtain ⟨uj, -, hread⟩ := hu
  exact readUser_normal hread

end

/-! ## Names -/

/-- The first and the last name. -/
def AuthUserRecord.fullName (u : AuthUserRecord) : String :=
  if u.lastName.isEmpty then u.firstName
  else (if u.firstName.isEmpty then u.firstName else u.firstName ++ " ") ++ u.lastName

theorem authUserDisplayName_eq (u : AuthUserRecord) : authUserDisplayName u =
    if (if u.fullName.isEmpty then u.name else u.fullName).isEmpty then u.username
    else if u.fullName.isEmpty then u.name else u.fullName := rfl

/-- The name that a user was read with. -/
theorem AuthUserRecord.Normal.name_cases {roles : List AuthRoleRecord} {u : AuthUserRecord}
    (h : u.Normal roles) : u.name = if u.fullName.isEmpty then u.username else u.fullName := by
  have hname := h.name_eq
  rw [authUserDisplayName_eq] at hname
  change u.name = if (if u.fullName.isEmpty then "" else u.fullName).isEmpty then u.username
    else if u.fullName.isEmpty then "" else u.fullName at hname
  rw [hname]
  by_cases hfull : u.fullName.isEmpty = true
  · rw [if_pos hfull, if_pos hfull]
    rfl
  · rw [if_neg hfull, if_neg hfull]

theorem AuthUserRecord.Normal.name_ne {roles : List AuthRoleRecord} {u : AuthUserRecord}
    (h : u.Normal roles) : u.name ≠ "" := by
  rw [h.name_cases]
  split
  · exact h.username_ne
  · rename_i hfull
    simpa using hfull

/-- The display name of a user that was read is its name. -/
theorem AuthUserRecord.Normal.display_eq {roles : List AuthRoleRecord} {u : AuthUserRecord}
    (h : u.Normal roles) : authUserDisplayName u = u.name := by
  have hne := h.name_ne
  rw [authUserDisplayName_eq]
  by_cases hfull : u.fullName.isEmpty = true
  · rw [if_pos hfull, if_neg (by simpa using hne)]
  · rw [if_neg hfull, if_neg hfull, h.name_cases, if_neg hfull]

/-- A user name does not begin with a space. -/
theorem head_normalizeUsernameChars {cs : List Char} :
    ∀ c ∈ (normalizeUsernameChars cs).head?, isSpace c = false := by
  unfold normalizeUsernameChars
  dsimp only
  split
  · simp
  · split
    · rw [(collapseSpaces_ends trimChars_head trimChars_last).1]
      exact trimChars_head
    · simp

/-- A user after a save and a load. -/
def AuthUserRecord.reloaded (u : AuthUserRecord) : AuthUserRecord :=
  let named := setAuthUserNames { username := u.username } u.firstName u.lastName u.name
  { u with firstName := named.firstName, lastName := named.lastName, name := named.name }

/-- Only a user without a first and a last name is changed. -/
theorem AuthUserRecord.Normal.reloaded_iff {roles : List AuthRoleRecord} {u : AuthUserRecord}
    (h : u.Normal roles) : u.reloaded = u ↔ u.firstName ≠ "" ∨ u.lastName ≠ "" := by
  constructor
  · intro heq
    by_contra hempty
    simp only [not_or, not_not] at hempty
    obtain ⟨hfirst, hlast⟩ := hempty
    have hname : u.name = u.username := by
      have hfull : u.fullName = "" := by
        rw [fullName, hfirst, hlast]
        rfl
      rw [h.name_cases, hfull]
      rfl
    have hsplit : (splitName u.name).1 = "" := by
      have hfirst' := congrArg AuthUserRecord.firstName heq
      rw [hfirst] at hfirst'
      unfold reloaded setAuthUserNames at hfirst'
      rw [hfirst, hlast] at hfirst'
      simpa [h.name_ne] using hfirst'
    have htrim : ∀ c ∈ u.username.toList.head?, isSpace c = false := by
      rw [← h.username_normal, normalizeAuthUsername, String.toList_ofList]
      exact head_normalizeUsernameChars
    rw [hname, splitName] at hsplit
    split at hsplit
    · rename_i first last hcut
      obtain ⟨-, hcut⟩ := splitFirst_eq_some.1 hcut
      obtain rfl : first = [] := String.ofList_injective hsplit
      have hspace := htrim ' ' (by rw [hcut]; rfl)
      cases hspace
    · exact h.username_ne hsplit
  · intro hnamed
    have hnames : (u.firstName.isEmpty && u.lastName.isEmpty && !u.name.isEmpty) = false := by
      rcases hnamed with hne | hne
      · simp [hne]
      · simp [hne]
    unfold reloaded setAuthUserNames
    rw [hnames]
    have hname := h.name_eq
    unfold authUserDisplayName at hname ⊢
    dsimp only at hname ⊢
    rw [if_neg Bool.false_ne_true, ← hname]

/-! ## What is written is read -/

section
variable [Floats]

theorem rereadItems_map {α : Type} (f : α → Json) (l : List α) :
    Json.rereadItems (l.map f) = l.map fun x => (f x).reread := by
  induction l with
  | nil => rfl
  | cons x l ih => rw [List.map_cons, Json.rereadItems, ih, List.map_cons]

theorem stringItems_textArray (texts : List String) :
    Json.stringItems (items (textArray texts).reread) = texts := by
  rw [textArray, Json.reread, rereadItems_map]
  simp [items, Json.stringItems, Json.reread, List.filterMap_map]

theorem parsePermissionList_textArray {l : List String} (hnodup : l.Nodup)
    (hvalid : ∀ id ∈ l, isValidPermissionId id = true) :
    parsePermissionList (textArray l).reread = l := by
  rw [parsePermissionList, stringItems_textArray]
  refine collect_self (fun id => !isValidPermissionId id) id [] hnodup fun id hid => ⟨?_, rfl⟩
  rw [hvalid id hid]
  rfl

theorem groupList_textArray {l : List String} (hnodup : l.Nodup)
    (hnormal : ∀ id ∈ l, id ≠ "" ∧ normalizeAuthRoleId id = id) :
    groupList (textArray l).reread = l := by
  rw [groupList, stringItems_textArray]
  refine collect_self String.isEmpty normalizeAuthRoleId [] hnodup
    fun id hid => ⟨?_, (hnormal id hid).2⟩
  simpa using (hnormal id hid).1

/-- The permissions of the administrators are complete after a save. -/
def AuthRoleRecord.completed (r : AuthRoleRecord) : AuthRoleRecord :=
  { r with permissions := if r.id = "admin" then allPermissionIds else r.permissions }

theorem find_cons (key : String) (x : String × Json) (fields : List (String × Json)) :
    (Json.object (x :: fields)).find key =
      if key = x.1 then some x.2 else (Json.object fields).find key := by
  obtain ⟨k, v⟩ := x
  rw [Json.find, Json.find, List.lookup_cons]
  by_cases h : key = k
  · subst h
    simp
  · have hbeq : (key == k) = false := by simpa using h
    rw [hbeq, if_neg h]

theorem find_nil (key : String) : (Json.object []).find key = none := rfl

theorem jsonString_find {obj : Json} {key s : String} (h : obj.find key = some (.string s)) :
    jsonStringOrEmpty obj key = s := by
  rw [jsonStringOrEmpty, h]

theorem jsonString_textOrNull {obj : Json} {key s : String}
    (h : obj.find key = some (textOrNull s).reread) : jsonStringOrEmpty obj key = s := by
  rw [jsonStringOrEmpty, h, textOrNull]
  by_cases hs : s = ""
  · subst hs
    rfl
  · rw [if_neg (by simpa using hs)]
    rfl

theorem jsonStringOrDefault_find {obj : Json} {key s fallback : String}
    (h : obj.find key = some (.string s)) (hne : s ≠ "") :
    jsonStringOrDefault obj key fallback = s := by
  rw [jsonStringOrDefault, jsonString_find h]
  exact if_neg (by simpa using hne)

theorem readRole_roleJson {r : AuthRoleRecord} (h : r.Normal) :
    readRole (roleJson r).reread = some r.completed := by
  have hdescription : (roleJson r).reread.find "description" =
      some (textOrNull r.description).reread := by
    simp [roleJson, Json.reread, Json.rereadFields, find_cons]
  have hid : (roleJson r).reread.find "id" = some (.string r.id) := by
    simp [roleJson, Json.reread, Json.rereadFields, find_cons]
  have hlabel : (roleJson r).reread.find "label" = some (.string r.label) := by
    simp [roleJson, Json.reread, Json.rereadFields, find_cons]
  have hpermissions : (roleJson r).reread.find "permissions" =
      some (textArray r.completed.permissions).reread := by
    simp [roleJson, Json.reread, Json.rereadFields, find_cons, AuthRoleRecord.completed]
  have hcompleted : r.completed.permissions.Nodup ∧
      ∀ id ∈ r.completed.permissions, isValidPermissionId id = true := by
    dsimp only [AuthRoleRecord.completed]
    split
    · exact allPermissionIds_spec
    · exact ⟨h.permissions_nodup, h.permissions_valid⟩
  have hobject : (roleJson r).reread.isObject = true := rfl
  unfold readRole
  dsimp only
  rw [jsonString_find hid, h.id_normal, hobject, jsonStringOrDefault_find hlabel h.label_ne,
    jsonString_textOrNull hdescription, hpermissions, Option.getD_some,
    parsePermissionList_textArray hcompleted.1 hcompleted.2, if_neg (by simp [h.id_ne])]
  congr 1
  dsimp only [AuthRoleRecord.completed]
  congr 1
  split
  · exact ite_self _
  · rename_i hadmin
    exact if_neg fun hboth => hadmin hboth.1

variable [JsonLib]

theorem getInt_reread {n : Int} (hlow : 0 ≤ n) (hhigh : n < 2 ^ 31) :
    (Json.int n).reread.getInt = .ok n := by
  rw [Json.reread, if_pos hlow, Json.getInt, Int32.toInt_ofNat_of_lt (by omega)]
  congr 1
  omega

theorem readUser_userJson {roles : List AuthRoleRecord} {u : AuthUserRecord} (h : u.Normal roles)
    {roles' : List AuthRoleRecord}
    (hroles : roles'.map AuthRoleRecord.id = roles.map AuthRoleRecord.id) :
    readUser roles' (userJson u).reread = .ok (some u.reloaded) := by
  have hfields : ∀ key, (userJson u).reread.find key =
      if key = "description" then some (textOrNull u.description).reread
      else if key = "first_name" then some (.string u.firstName)
      else if key = "groups" then some (textArray u.groups).reread
      else if key = "kdf" then some (kdfJson u).reread
      else if key = "last_name" then some (.string u.lastName)
      else if key = "name" then some (.string (authUserDisplayName u))
      else if key = "username" then some (.string u.username)
      else none := by
    intro key
    simp only [userJson, Json.reread, Json.rereadFields, find_cons, find_nil]
  have hobject : (userJson u).reread.isObject = true := rfl
  have hgroups : readUserGroups roles' (userJson u).reread = u.groups := by
    have hlist : groupList (((userJson u).reread.find "groups").getD (.array [])) = u.groups := by
      rw [hfields]
      exact groupList_textArray h.groups_nodup h.groups_normal
    unfold readUserGroups
    dsimp only
    rw [hlist, if_neg h.groups_ne]
    refine List.filter_eq_self.2 fun id hid => ?_
    rw [hasRole_iff, hroles]
    exact h.groups_exist id hid
  have husername : jsonStringOrEmpty (userJson u).reread "username" = u.username :=
    jsonString_find (hfields _)
  have hname : jsonStringOrDefault (userJson u).reread "name" u.username = u.name := by
    rw [jsonStringOrDefault_find (hfields _) (h.display_eq.symm ▸ h.name_ne), h.display_eq]
  have hkdf : ((userJson u).reread.find "kdf").getD (.object []) = (kdfJson u).reread := by
    rw [hfields]
    rfl
  have hkdfields : ∀ key, (kdfJson u).reread.find key =
      if key = "algo" then some (.string "pbkdf2-sha256")
      else if key = "hashB64" then some (.string u.hashB64)
      else if key = "iterations" then some (Json.int u.iterations).reread
      else if key = "saltB64" then some (.string u.saltB64)
      else none := by
    intro key
    rw [kdfJson, Json.reread]
    simp only [Json.rereadFields, Json.reread, find_cons, find_nil]
  have hiterations : (kdfJson u).reread.valueInt "iterations" 150000 = .ok u.iterations := by
    have hlow := h.iterations_low
    have hhigh := h.iterations_high
    have hvalue : (kdfJson u).reread.valueInt "iterations" 150000 =
        (Json.int u.iterations).reread.getInt := by
      rw [Json.valueInt, Json.value.eq_def, hkdfields]
      rfl
    rw [hvalue]
    exact getInt_reread (by omega) (by omega)
  have hsalt : jsonStringOrEmpty (kdfJson u).reread "saltB64" = u.saltB64 :=
    jsonString_find (hkdfields _)
  have hhash : jsonStringOrEmpty (kdfJson u).reread "hashB64" = u.hashB64 :=
    jsonString_find (hkdfields _)
  unfold readUser
  rw [if_pos hobject]
  dsimp only
  rw [husername, h.username_normal, hname, jsonString_find (hfields "first_name"),
    jsonString_find (hfields "last_name"), hgroups, hkdf, hiterations,
    jsonString_textOrNull (hfields "description"), hsalt, hhash]
  have hrange : max 10000 (min 5000000 u.iterations) = u.iterations := by
    have hlow := h.iterations_low
    have hhigh := h.iterations_high
    omega
  have hcomplete : (u.username.isEmpty || u.saltB64.isEmpty || u.hashB64.isEmpty ||
      u.groups.isEmpty) = false := by
    simp [h.username_ne, h.salt_ne, h.hash_ne, h.groups_ne]
  show Except.ok (if (u.username.isEmpty || u.saltB64.isEmpty || u.hashB64.isEmpty ||
    u.groups.isEmpty) = true then none else _) = _
  rw [hcomplete, hrange]
  rfl

omit [Floats] [JsonLib] in
theorem addRole_self {l roles : List AuthRoleRecord}
    (h : ((roles ++ l).map AuthRoleRecord.id).Nodup) : l.foldl addRole roles = roles ++ l := by
  induction l generalizing roles with
  | nil => simp
  | cons r l ih =>
    have hnew : ¬ hasRole roles r.id = true := by
      rw [hasRole_iff]
      intro hid
      rw [List.map_append, List.map_cons, List.nodup_append] at h
      exact h.2.2 r.id hid r.id List.mem_cons_self rfl
    rw [List.foldl_cons, addRole, if_neg hnew, ih (by simpa using h), List.append_assoc,
      List.singleton_append]

omit [Floats] [JsonLib] in
theorem ensureAdmin_self {roles : List AuthRoleRecord}
    (h : "admin" ∈ roles.map AuthRoleRecord.id) : ensureAdmin roles = roles :=
  if_pos (hasRole_iff.2 h)

/-- A store after a save and a load. -/
def AuthStore.reloaded (s : AuthStore) : AuthStore :=
  { s with
    authRoles := s.authRoles.map AuthRoleRecord.completed
    authUsers := s.authUsers.map AuthUserRecord.reloaded }

theorem parsePasswords_written {s : AuthStore} (h : s.Normal) :
    parsePasswords (passwordsJson s).reread = .ok s.reloaded := by
  have hadmin := ensureAdmin_self h.admin
  have hfields : ∀ key, (passwordsJson s).reread.find key =
      if key = "groups" then
        some (.array (s.authRoles.map fun r => (roleJson r).reread))
      else if key = "timeoutMinutes" then some (Json.int s.authTimeoutMinutes).reread
      else if key = "users" then some (.array (s.authUsers.map fun u => (userJson u).reread))
      else none := by
    intro key
    simp only [passwordsJson, Json.reread, Json.rereadFields, rereadItems_map, find_cons, find_nil,
      hadmin]
  have hids : (s.authRoles.map AuthRoleRecord.completed).map AuthRoleRecord.id =
      s.authRoles.map AuthRoleRecord.id := by
    rw [List.map_map]
    rfl
  have hroles : readRoles (passwordsJson s).reread = s.authRoles.map AuthRoleRecord.completed := by
    have hread : (s.authRoles.map fun r => (roleJson r).reread).filterMap readRole =
        s.authRoles.map AuthRoleRecord.completed := by
      rw [List.filterMap_map, ← List.filterMap_eq_map]
      refine List.filterMap_congr fun r hr => ?_
      rw [Function.comp_apply, Function.comp_apply, readRole_roleJson (h.roles r hr)]
    have hcontains : (passwordsJson s).reread.contains "groups" = true := by
      rw [Json.contains, hfields]
      rfl
    unfold readRoles
    dsimp only
    rw [hcontains, if_pos rfl, hfields, if_pos rfl, Option.getD_some, items, hread,
      addRole_self (by rw [List.nil_append, hids]; exact h.ids_nodup), List.nil_append,
      ensureAdmin_self (by rw [hids]; exact h.admin)]
  have htimeout : (passwordsJson s).reread.valueInt "timeoutMinutes" 0 =
      .ok s.authTimeoutMinutes := by
    have hvalue : (passwordsJson s).reread.valueInt "timeoutMinutes" 0 =
        (Json.int s.authTimeoutMinutes).reread.getInt := by
      rw [Json.valueInt, Json.value.eq_def, hfields]
      rfl
    rw [hvalue]
    exact getInt_reread h.timeout_low h.timeout_high
  have husers : (items (((passwordsJson s).reread.find "users").getD (.array []))).mapM
      (readUser (s.authRoles.map AuthRoleRecord.completed)) =
        .ok (s.authUsers.map fun u => some u.reloaded) := by
    rw [hfields]
    exact mapM_map_ok fun u hu => readUser_userJson (h.users u hu) hids
  have hall : (s.authUsers.map fun u => some u.reloaded).reduceOption =
      s.authUsers.map AuthUserRecord.reloaded := by
    rw [List.reduceOption, List.filterMap_map, ← List.filterMap_eq_map]
    rfl
  unfold parsePasswords
  rw [htimeout, hroles]
  show (Except.bind _ _ : Except String AuthStore) = _
  dsimp only [Except.bind]
  rw [husers]
  show Except.ok _ = _
  rw [hall, max_eq_right h.timeout_low]
  unfold AuthStore.reloaded
  rw [h.configured, List.isEmpty_map]

/-! ## The written value -/

omit [JsonLib]

theorem plainItems_map {α : Type} {f : α → Json} {l : List α} (h : ∀ x ∈ l, (f x).Plain) :
    Json.PlainItems (l.map f) := by
  induction l with
  | nil => trivial
  | cons x l ih =>
    rw [List.forall_mem_cons] at h
    exact ⟨h.1, ih h.2⟩

theorem textOrNull_plain (s : String) : (textOrNull s).Plain := by
  unfold textOrNull
  split
  · trivial
  · trivial

theorem textArray_plain (texts : List String) : (textArray texts).Plain :=
  plainItems_map fun _ _ => trivial

theorem roleJson_plain (r : AuthRoleRecord) : (roleJson r).Plain := by
  have hkeys : ["description", "id", "label", "permissions"].Pairwise (· < ·) := by decide
  exact ⟨hkeys, textOrNull_plain _, trivial, trivial, textArray_plain _, trivial⟩

theorem userJson_plain (u : AuthUserRecord) : (userJson u).Plain := by
  have hkeys : ["description", "first_name", "groups", "kdf", "last_name", "name",
    "username"].Pairwise (· < ·) := by decide
  have hkdf : ["algo", "hashB64", "iterations", "saltB64"].Pairwise (· < ·) := by decide
  exact ⟨hkeys, textOrNull_plain _, trivial, textArray_plain _,
    ⟨hkdf, trivial, trivial, trivial, trivial, trivial⟩, trivial, trivial, trivial, trivial⟩

theorem passwordsJson_plain (s : AuthStore) : (passwordsJson s).Plain := by
  have hkeys : ["groups", "timeoutMinutes", "users"].Pairwise (· < ·) := by decide
  exact ⟨hkeys, plainItems_map fun r _ => roleJson_plain r, trivial,
    plainItems_map fun u _ => userJson_plain u, trivial⟩

end

/-! ## The files -/

section
variable [Floats] [JsonLib] [JsonText]

/-- What the store of a successful load promises. -/
structure AuthStore.Valid (s : AuthStore) : Prop where
  ids_nodup : (s.authRoles.map AuthRoleRecord.id).Nodup
  ids_ne : ∀ r ∈ s.authRoles, r.id ≠ ""
  admin : "admin" ∈ s.authRoles.map AuthRoleRecord.id
  names_ne : ∀ u ∈ s.authUsers, u.username ≠ "" ∧ u.saltB64 ≠ "" ∧ u.hashB64 ≠ ""
  iterations : ∀ u ∈ s.authUsers, 10000 ≤ u.iterations ∧ u.iterations ≤ 5000000
  groups : ∀ u ∈ s.authUsers, u.groups ≠ [] ∧ u.groups.Nodup ∧
    ∀ id ∈ u.groups, id ∈ s.authRoles.map AuthRoleRecord.id

omit [Floats] [JsonLib] [JsonText] in
theorem AuthStore.Normal.valid {s : AuthStore} (h : s.Normal) : s.Valid where
  ids_nodup := h.ids_nodup
  ids_ne r hr := (h.roles r hr).id_ne
  admin := h.admin
  names_ne u hu := ⟨(h.users u hu).username_ne, (h.users u hu).salt_ne, (h.users u hu).hash_ne⟩
  iterations u hu := ⟨(h.users u hu).iterations_low, (h.users u hu).iterations_high⟩
  groups u hu := ⟨(h.users u hu).groups_ne, (h.users u hu).groups_nodup,
    (h.users u hu).groups_exist⟩

/-- A load leaves the store or installs one in normal form. -/
theorem load_cases (laws : JsonText.Laws) {file : PasswordsFile} (hfile : file ≠ .missing)
    (s : AuthState) :
    ((loadPasswordsStore file s).1 = false ∧ (loadPasswordsStore file s).2.store = s.store) ∨
      ((loadPasswordsStore file s).1 = true ∧ (loadPasswordsStore file s).2.store.Normal) := by
  cases file with
  | missing => exact absurd rfl hfile
  | unreadable error => exact .inl ⟨rfl, rfl⟩
  | content text =>
    unfold loadPasswordsStore
    dsimp only
    split
    · exact .inl ⟨rfl, rfl⟩
    · rename_i j hparse
      split
      · split
        · exact .inl ⟨rfl, rfl⟩
        · rename_i store hstore
          exact .inr ⟨rfl, parsePasswords_normal laws.truncate_int hstore⟩
      · exact .inl ⟨rfl, rfl⟩

/-- A store in normal form is read as its `reloaded`. -/
theorem load_saved (laws : JsonText.Laws) {store : AuthStore} (h : store.Normal)
    {write : WriteResult} {before after : PasswordsFile}
    (hsave : savePasswordsStore write store before = (true, after)) (s : AuthState) :
    (loadPasswordsStore after s).1 = true ∧
      (loadPasswordsStore after s).2.store = store.reloaded := by
  unfold savePasswordsStore at hsave
  split at hsave
  · cases hsave
  · rename_i text hdump
    cases write with
    | failed => cases hsave
    | unprotected => cases hsave
    | done =>
      obtain rfl := congrArg Prod.snd hsave
      unfold loadPasswordsStore
      dsimp only
      rw [stripJsonComments_of_slashFree (laws.dump_slashFree hdump),
        laws.parse_dump hdump (passwordsJson_plain store)]
      dsimp only
      have hobject : (passwordsJson store).reread.isObject = true := rfl
      rw [if_pos hobject, parsePasswords_written h]
      exact ⟨rfl, rfl⟩

/-- The store that a save and a load should give back. -/
def AuthStore.completed (s : AuthStore) : AuthStore :=
  { s with authRoles := s.authRoles.map AuthRoleRecord.completed }

omit [Floats] [JsonLib] [JsonText] in
theorem AuthStore.Normal.reloaded_iff {s : AuthStore} (h : s.Normal) :
    s.reloaded = s.completed ↔ ∀ u ∈ s.authUsers, u.firstName ≠ "" ∨ u.lastName ≠ "" := by
  have husers : s.reloaded = s.completed ↔
      s.authUsers.map AuthUserRecord.reloaded = s.authUsers.map id := by
    rw [List.map_id]
    constructor
    · intro heq
      exact congrArg AuthStore.authUsers heq
    · intro heq
      unfold reloaded completed
      rw [heq]
  rw [husers, List.map_inj_left]
  exact forall₂_congr fun u hu => (h.users u hu).reloaded_iff

/-- **The password store.** A load of a file that exists leaves the store as it is or installs a
valid one; a store that was installed and saved comes back exactly if each user has a first or a
last name. -/
theorem passwords_round_trip_iff (laws : JsonText.Laws) :
    (∀ file s, file ≠ .missing →
      ((loadPasswordsStore file s).1 = false ∧ (loadPasswordsStore file s).2.store = s.store) ∨
        ((loadPasswordsStore file s).1 = true ∧ (loadPasswordsStore file s).2.store.Valid)) ∧
    ∀ file s, file ≠ .missing → (loadPasswordsStore file s).1 = true →
      ∀ write before after,
        savePasswordsStore write (loadPasswordsStore file s).2.store before = (true, after) →
          ((∀ t, (loadPasswordsStore after t).1 = true ∧ (loadPasswordsStore after t).2.store =
              (loadPasswordsStore file s).2.store.completed) ↔
            ∀ u ∈ (loadPasswordsStore file s).2.store.authUsers,
              u.firstName ≠ "" ∨ u.lastName ≠ "") := by
  constructor
  · intro file s hfile
    exact (load_cases laws hfile s).imp_right fun h => ⟨h.1, h.2.valid⟩
  · intro file s hfile hload write before after hsave
    rcases load_cases laws hfile s with ⟨hfailed, -⟩ | ⟨-, hnormal⟩
    · rw [hload] at hfailed
      cases hfailed
    · rw [← hnormal.reloaded_iff]
      constructor
      · intro hrestored
        rw [← (load_saved laws hnormal hsave s).2]
        exact (hrestored s).2
      · intro heq t
        rw [← heq]
        exact load_saved laws hnormal hsave t

end

/-! ## Two files -/

section
attribute [local instance] intFloats

/-- Conversions of doubles that are `int`s. -/
@[reducible] def int32Json : @JsonLib intFloats :=
  letI := intFloats
  { intJson with truncate := fun x : Int => (Int32.ofInt x).toInt }

attribute [local instance] int32Json

/-- A file with one user, given by one name. -/
def sampleFile (name : String) : Json := .object
  [("users", .array [.object [("groups", .array [.string "admin"]),
    ("kdf", .object [("hashB64", .string "aGFzaA=="), ("saltB64", .string "c2FsdA==")]),
    ("name", .string name), ("username", .string "bob")]])]

def sampleText (name : String) : String := String.ofList (List.flatMap String.toList [
    "\x7b\"users\": [\x7b\"username\": \"bob\", ", "\"name\": \"", name, "\", \"groups\": [\"admin\"], ",
    "\"kdf\": \x7b\"saltB64\": \"c2FsdA==\", ", "\"hashB64\": \"aGFzaA==\"\x7d\x7d]\x7d"])

def sampleUser (first last name : String) : AuthUserRecord where
  username := "bob"
  firstName := first
  lastName := last
  name := name
  groups := ["admin"]
  saltB64 := "c2FsdA=="
  hashB64 := "aGFzaA=="

def sampleStore (user : AuthUserRecord) : AuthStore where
  authRoles := [adminRole]
  authUsers := [user]
  userStoreConfigured := true

/-- What `dump(2)` gives for the store. -/
def sampleSaved (user : AuthUserRecord) : String := String.ofList (List.flatMap String.toList [
    "\x7b\n", "  \"groups\": [\n", "    \x7b\n", "      \"description\": \"Full access.\",\n",
    "      \"id\": \"admin\",\n", "      \"label\": \"Admin\",\n", "      \"permissions\": [\n",
    "        \"scada.access\",\n", "        \"hmi.edit_screens\",\n",
    "        \"opcbridge.write_tags\",\n", "        \"opcua.read\",\n",
    "        \"opcua.write\",\n", "        \"opcbridge.edit_config\",\n",
    "        \"suite.manage_server\",\n", "        \"auth.manage_users\",\n",
    "        \"suite.view_logs\",\n", "        \"reports.access\",\n",
    "        \"reports.create\",\n", "        \"reports.administer\",\n",
    "        \"data_entry.access\",\n", "        \"data_entry.administer\"\n", "      ]\n",
    "    \x7d\n", "  ],\n", "  \"timeoutMinutes\": 0,\n", "  \"users\": [\n", "    \x7b\n",
    "      \"description\": null,\n", "      \"first_name\": \"", user.firstName, "\",\n",
    "      \"groups\": [\n", "        \"admin\"\n", "      ],\n", "      \"kdf\": \x7b\n",
    "        \"algo\": \"pbkdf2-sha256\",\n", "        \"hashB64\": \"aGFzaA==\",\n",
    "        \"iterations\": 150000,\n", "        \"saltB64\": \"c2FsdA==\"\n", "      \x7d,\n",
    "      \"last_name\": \"", user.lastName, "\",\n", "      \"name\": \"", user.name, "\",\n",
    "      \"username\": \"bob\"\n", "    \x7d\n", "  ]\n", "\x7d"])

open Classical in
/-- The library on the file and on the store that it holds. -/
@[reducible] noncomputable def sampleTexts (name : String) (user : AuthUserRecord) :
    @JsonText intFloats where
  parse text :=
    if text = sampleSaved user then .ok (passwordsJson (sampleStore user)).reread
    else if text = sampleText name then .ok (sampleFile name)
    else .error "[json.exception.parse_error.101] parse error"
  dump j :=
    if j = passwordsJson (sampleStore user) then .ok (sampleSaved user)
    else .error "[json.exception.type_error.316] invalid UTF-8 byte"

theorem sampleTexts_laws {name : String} {user : AuthUserRecord}
    (h : slashFree .normal (sampleSaved user).toList = true) :
    @JsonText.Laws intFloats (sampleTexts name user) int32Json := by
  classical
  let texts := sampleTexts name user
  constructor
  · intro j text hdump hplain
    show (if text = sampleSaved user then _ else _) = _
    change (if j = passwordsJson (sampleStore user) then _ else _) = _ at hdump
    split at hdump
    · rename_i hj
      obtain rfl := Except.ok.inj hdump
      rw [if_pos rfl, hj]
    · cases hdump
  · intro j text hdump
    change (if j = passwordsJson (sampleStore user) then _ else _) = _ at hdump
    split at hdump
    · obtain rfl := Except.ok.inj hdump
      exact h
    · cases hdump
  · intro x
    exact ⟨Int32.le_toInt _, Int32.toInt_lt _⟩

theorem sampleTexts_load {name : String} {user : AuthUserRecord}
    (hslash : slashFree .normal (sampleText name).toList = true)
    (hne : sampleText name ≠ sampleSaved user)
    (hparse : parsePasswords (sampleFile name) = .ok (sampleStore user)) (s : AuthState) :
    letI := sampleTexts name user
    (loadPasswordsStore (.content (sampleText name)) s).1 = true ∧
      (loadPasswordsStore (.content (sampleText name)) s).2.store = sampleStore user := by
  let texts := sampleTexts name user
  have hread : JsonText.parse (sampleText name) = .ok (sampleFile name) := by
    show (if sampleText name = sampleSaved user then _ else _) = _
    rw [if_neg hne, if_pos rfl]
  have hobject : (sampleFile name).isObject = true := rfl
  unfold loadPasswordsStore
  dsimp only
  rw [stripJsonComments_of_slashFree hslash, hread]
  dsimp only
  rw [if_pos hobject, hparse]
  exact ⟨rfl, rfl⟩

theorem sampleTexts_save (name : String) (user : AuthUserRecord) (before : PasswordsFile) :
    letI := sampleTexts name user
    savePasswordsStore .done (sampleStore user) before = (true, .content (sampleSaved user)) := by
  let texts := sampleTexts name user
  have hdump : JsonText.dump (passwordsJson (sampleStore user)) = .ok (sampleSaved user) :=
    if_pos rfl
  unfold savePasswordsStore
  rw [hdump]

def bobRay : AuthUserRecord := sampleUser "Bob" "Ray" "Bob Ray"

def nameless : AuthUserRecord := sampleUser "" "" "bob"

theorem slashFree_ofList {text : List Char} (h : slashFree .normal text = true) :
    slashFree .normal (String.ofList text).toList = true := by
  rwa [String.toList_ofList]

theorem bobRay_file : slashFree .normal (sampleText "Bob Ray").toList = true ∧
    slashFree .normal (sampleSaved bobRay).toList = true ∧
    sampleText "Bob Ray" ≠ sampleSaved bobRay ∧
    parsePasswords (sampleFile "Bob Ray") = .ok (sampleStore bobRay) :=
  ⟨slashFree_ofList (by decide +kernel), slashFree_ofList (by decide +kernel),
    fun h => absurd (String.ofList_injective h) (by decide +kernel), by decide +kernel⟩

theorem nameless_file : slashFree .normal (sampleText " ").toList = true ∧
    slashFree .normal (sampleSaved nameless).toList = true ∧
    sampleText " " ≠ sampleSaved nameless ∧
    parsePasswords (sampleFile " ") = .ok (sampleStore nameless) :=
  ⟨slashFree_ofList (by decide +kernel), slashFree_ofList (by decide +kernel),
    fun h => absurd (String.ofList_injective h) (by decide +kernel), by decide +kernel⟩

/-- The user of the file with a first and a last name. -/
theorem named_user_kept :
    letI := sampleTexts "Bob Ray" bobRay
    (loadPasswordsStore (.content (sampleSaved bobRay)) {}).1 = true ∧
      (loadPasswordsStore (.content (sampleSaved bobRay)) {}).2.store =
        (sampleStore bobRay).completed := by
  obtain ⟨hfile, hsaved, hne, hparse⟩ := bobRay_file
  have hnamed : ∀ u ∈ (sampleStore bobRay).authUsers, u.firstName ≠ "" ∨ u.lastName ≠ "" := by
    decide +kernel
  have hload := sampleTexts_load hfile hne hparse {}
  have hround := (@passwords_round_trip_iff _ _ (sampleTexts "Bob Ray" bobRay)
    (sampleTexts_laws hsaved)).2 (.content (sampleText "Bob Ray")) {} PasswordsFile.noConfusion
      hload.1 .done .missing (.content (sampleSaved bobRay))
  rw [hload.2] at hround
  exact (hround (sampleTexts_save _ _ _)).2 hnamed {}

/-- The name of one space leaves a user without a first and a last name, which get the user name
when the store is read again. -/
theorem blank_name_replaced :
    letI := sampleTexts " " nameless
    (loadPasswordsStore (.content (sampleText " ")) {}).1 = true ∧
      ∃ after, savePasswordsStore .done (loadPasswordsStore (.content (sampleText " ")) {}).2.store
          .missing = (true, after) ∧
        (loadPasswordsStore after {}).2.store ≠
          (loadPasswordsStore (.content (sampleText " ")) {}).2.store.completed := by
  obtain ⟨hfile, hsaved, hne, hparse⟩ := nameless_file
  let texts := sampleTexts " " nameless
  have laws : JsonText.Laws := sampleTexts_laws hsaved
  have hload := sampleTexts_load hfile hne hparse {}
  have hnormal : (sampleStore nameless).Normal := parsePasswords_normal laws.truncate_int hparse
  have hsave := sampleTexts_save " " nameless .missing
  have hchanged : (sampleStore nameless).reloaded ≠ (sampleStore nameless).completed := by
    decide +kernel
  refine ⟨hload.1, .content (sampleSaved nameless), ?_, ?_⟩
  · rw [hload.2]
    exact hsave
  · rw [hload.2, (load_saved laws hnormal hsave {}).2]
    exact hchanged

end

end OpcBridge.Admin
