import OpcBridge.Core.Text
import OpcBridge.Lib.Assign
import Mathlib.Data.String.Basic

/-!
# Admin sessions and their store

The table of the admin sessions, `get_session_from_request` and the two directions of the session
store. Times are nanoseconds of the system clock; the store keeps whole milliseconds. What a restart
makes of one session is `reloaded`: the file is written and read entry by entry
(`find_loadAdminSessionsStore`).
-/

namespace OpcBridge.Admin

open Lib

/-! ## Names -/

/-- Runs of spaces become one space. -/
def collapseSpaces : Bool → List Char → List Char
  | _, [] => []
  | prevSpace, c :: cs =>
    if c = ' ' then
      if prevSpace then collapseSpaces true cs else ' ' :: collapseSpaces true cs
    else c :: collapseSpaces false cs

def usernameChar (c : Char) : Bool := isAlnum c || c == ' ' || c == '_' || c == '.' || c == '-'

def normalizeUsernameChars (cs : List Char) : List Char :=
  let raw := trimChars cs
  if raw.length > 64 then []
  else if raw.all usernameChar then collapseSpaces false raw
  else []

def normalizeAuthUsername (value : String) : String :=
  String.ofList (normalizeUsernameChars value.toList)

def roleIdChar (c : Char) : Bool := ('a' ≤ c && c ≤ 'z') || isDigit c || c == '_' || c == '-'

def normalizeAuthRoleId (raw : String) : String :=
  let s := toLowerCopy raw
  if s.toList.all roleIdChar then s else ""

def parseGroupList (values : List String) : List String :=
  values.foldl (fun out value =>
    let id := normalizeAuthRoleId value
    if id.isEmpty || out.contains id then out else out ++ [id]) []

theorem collapseSpaces_idem (prevSpace : Bool) (cs : List Char) :
    collapseSpaces prevSpace (collapseSpaces prevSpace cs) = collapseSpaces prevSpace cs := by
  induction cs generalizing prevSpace with
  | nil => rfl
  | cons c cs ih =>
    by_cases hc : c = ' '
    · subst hc
      cases prevSpace with
      | true => exact ih true
      | false =>
        show ' ' :: collapseSpaces true (collapseSpaces true cs) = ' ' :: collapseSpaces true cs
        rw [ih]
    · rw [collapseSpaces, if_neg hc, collapseSpaces, if_neg hc, ih]

theorem collapseSpaces_sublist (prevSpace : Bool) (cs : List Char) :
    (collapseSpaces prevSpace cs).Sublist cs := by
  induction cs generalizing prevSpace with
  | nil => exact List.Sublist.slnil
  | cons c cs ih =>
    rw [collapseSpaces]
    split
    · split
      · exact (ih true).cons _
      · rename_i hc _
        rw [hc]
        exact (ih true).cons_cons _
    · exact (ih false).cons_cons _

theorem collapseSpaces_snoc {c : Char} (hc : c ≠ ' ') (prevSpace : Bool) (cs : List Char) :
    collapseSpaces prevSpace (cs ++ [c]) = collapseSpaces prevSpace cs ++ [c] := by
  induction cs generalizing prevSpace with
  | nil =>
    show collapseSpaces prevSpace [c] = [c]
    rw [collapseSpaces, if_neg hc]
    rfl
  | cons d cs ih =>
    rw [List.cons_append, collapseSpaces, collapseSpaces]
    split
    · split
      · exact ih true
      · rw [ih, List.cons_append]
    · rw [ih, List.cons_append]

/-- Collapsing keeps a first and a last character that is no space. -/
theorem collapseSpaces_ends {cs : List Char} (hhead : ∀ c ∈ cs.head?, isSpace c = false)
    (hlast : ∀ c ∈ cs.getLast?, isSpace c = false) :
    (collapseSpaces false cs).head? = cs.head? ∧
      (collapseSpaces false cs).getLast? = cs.getLast? := by
  constructor
  · cases cs with
    | nil => rfl
    | cons c cs =>
      have hc : c ≠ ' ' := by
        rintro rfl
        cases hhead ' ' rfl
      rw [collapseSpaces, if_neg hc]
      rfl
  · obtain rfl | ⟨ds, c, rfl⟩ := cs.eq_nil_or_concat'
    · rfl
    · have hc : c ≠ ' ' := by
        rintro rfl
        cases hlast ' ' (by simp)
      rw [collapseSpaces_snoc hc]
      simp

theorem normalizeUsernameChars_idem (cs : List Char) :
    normalizeUsernameChars (normalizeUsernameChars cs) = normalizeUsernameChars cs := by
  unfold normalizeUsernameChars
  dsimp only
  by_cases hlen : (trimChars cs).length > 64
  · rw [if_pos hlen]
    rfl
  by_cases hall : (trimChars cs).all usernameChar
  · rw [if_neg hlen, if_pos hall]
    have hsub := collapseSpaces_sublist false (trimChars cs)
    obtain ⟨hhead, hlast⟩ := @collapseSpaces_ends (trimChars cs) trimChars_head trimChars_last
    have htrim : trimChars (collapseSpaces false (trimChars cs)) =
        collapseSpaces false (trimChars cs) := by
      apply trimChars_eq_self
      · rw [hhead]
        exact trimChars_head
      · rw [hlast]
        exact trimChars_last
    have hall' : (collapseSpaces false (trimChars cs)).all usernameChar := by
      rw [List.all_eq_true] at hall ⊢
      exact fun c hc => hall c (hsub.subset hc)
    rw [htrim, if_neg (by have := hsub.length_le; omega), if_pos hall', collapseSpaces_idem]
  · rw [if_neg hlen, if_neg hall]
    rfl

theorem normalizeAuthUsername_idem (value : String) :
    normalizeAuthUsername (normalizeAuthUsername value) = normalizeAuthUsername value := by
  unfold normalizeAuthUsername
  rw [String.toList_ofList, normalizeUsernameChars_idem]

/-- The name of a user record: normalized, and never empty. -/
structure AuthUsername where
  name : String
  nonempty : name ≠ ""
  normal : normalizeAuthUsername name = name

theorem AuthUsername.eq_iff {a b : AuthUsername} : a.name = b.name ↔ a = b := by
  obtain ⟨a, _, _⟩ := a
  obtain ⟨b, _, _⟩ := b
  exact ⟨fun h => by cases h; rfl, fun h => congrArg AuthUsername.name h⟩

instance : DecidableEq AuthUsername := fun _ _ => decidable_of_iff _ AuthUsername.eq_iff

/-- The name that a text gives, if any. -/
def authUsername (value : String) : Option AuthUsername :=
  if h : normalizeAuthUsername value = "" then none
  else some ⟨normalizeAuthUsername value, h, normalizeAuthUsername_idem value⟩

theorem authUsername_name (user : AuthUsername) : authUsername user.name = some user := by
  obtain ⟨name, hne, hnorm⟩ := user
  have h : normalizeAuthUsername name ≠ "" := by
    rw [hnorm]
    exact hne
  show authUsername name = _
  rw [authUsername, dif_neg h]
  congr

/-! ## The table -/

structure AdminSessionInfo where
  expiresAt : Int
  lastActivityAt : Int
  username : AuthUsername
  groups : List String
deriving DecidableEq

abbrev AdminSessions := SortedMap String AdminSessionInfo

structure AuthConfig where
  adminServiceToken : String := ""
  authTimeoutMinutes : Int
  positive : 0 < authTimeoutMinutes

/-- The idle timeout in nanoseconds. -/
def AuthConfig.idleTimeout (cfg : AuthConfig) : Int := cfg.authTimeoutMinutes * 60000000000

/-- `std::chrono::minutes(g_authTimeoutMinutes)` in nanoseconds of 64 bits, where it is compared. -/
def AuthConfig.idleLimit (cfg : AuthConfig) : Int := cfg.idleTimeout.bmod (2 ^ 64)

/-- The test that the lookup, the cleanup and the loader share. -/
def idleExpired (cfg : AuthConfig) (now : Int) (session : AdminSessionInfo) : Bool :=
  decide (cfg.authTimeoutMinutes > 0) && decide (session.lastActivityAt > 0) &&
    decide (now - session.lastActivityAt > cfg.idleLimit)

def tenYears : Int := 24 * 365 * 10 * 3600 * 1000000000

def timepointToMs (value : Int) : Int := value.tdiv 1000000

def msToTimepoint (value : Int) : Int := value * 1000000

/-- The header and the cookie that a request may name its session by. -/
structure AuthRequest where
  adminToken : String := ""
  cookieToken : String := ""

def AuthRequest.token (req : AuthRequest) : String :=
  if req.adminToken.isEmpty then req.cookieToken else req.adminToken

def serviceName : AuthUsername where
  name := "service"
  nonempty := by decide
  normal := by decide

def serviceSession (now : Int) : AdminSessionInfo where
  expiresAt := now + tenYears
  lastActivityAt := now
  username := serviceName
  groups := ["admin"]

def eraseSession (sessions : AdminSessions) (token : String) : AdminSessions :=
  sessions.filter fun key _ => key != token

/-- What `cleanup_expired_admin_sessions` does under the lock. -/
def cleanupExpiredAdminSessions (cfg : AuthConfig) (now : Int) (sessions : AdminSessions) :
    AdminSessions :=
  sessions.filter fun _ session => !idleExpired cfg now session

/-- `get_session_from_request` after its cleanup. -/
def getSessionFromRequest (cfg : AuthConfig) (now : Int) (sessions : AdminSessions)
    (req : AuthRequest) (refreshActivity : Bool) : AdminSessions × Option AdminSessionInfo :=
  if req.token.isEmpty then (sessions, none)
  else if !cfg.adminServiceToken.isEmpty && req.token == cfg.adminServiceToken then
    (sessions, some (serviceSession now))
  else
    match sessions.find req.token with
    | none => (sessions, none)
    | some session =>
      if idleExpired cfg now session then (eraseSession sessions req.token, none)
      else if refreshActivity then
        let session := { session with lastActivityAt := now, expiresAt := now + tenYears }
        (sessions.insert req.token session, some session)
      else (sessions, some session)

/-- The session that `/auth/login` creates. -/
def newSession (now : Int) (username : AuthUsername) (groups : List String) : AdminSessionInfo where
  expiresAt := now + tenYears
  lastActivityAt := now
  username := username
  groups := groups

/-! ## The store -/

/-- An element of the `sessions` array. -/
structure StoredSession where
  token : String
  username : String
  groups : List String
  expiresMs : Int
  lastActivityMs : Int
deriving DecidableEq

/-- The saved form of a session. -/
def toStored (token : String) (session : AdminSessionInfo) : StoredSession where
  token := token
  username := session.username.name
  groups := session.groups
  expiresMs := timepointToMs session.expiresAt
  lastActivityMs := timepointToMs session.lastActivityAt

def storeSession (entry : String × AdminSessionInfo) : Option StoredSession :=
  if entry.1.isEmpty || entry.2.username.name.isEmpty || entry.2.username.name == "service" then none
  else some (toStored entry.1 entry.2)

/-- What `save_admin_sessions_store` writes of a table. -/
def storedSessions (sessions : AdminSessions) : List StoredSession :=
  sessions.entries.filterMap storeSession

/-- The session that an element holds; an element that was saved has no legacy role. -/
def readSession (now : Int) (item : StoredSession) (username : AuthUsername) :
    AdminSessionInfo where
  username := username
  groups := parseGroupList item.groups
  expiresAt :=
    let expiresAt := msToTimepoint item.expiresMs
    if expiresAt ≤ now then now + tenYears else expiresAt
  lastActivityAt := msToTimepoint item.lastActivityMs

def loadSession (cfg : AuthConfig) (now : Int) (item : StoredSession) :
    Option (String × AdminSessionInfo) :=
  if item.token.isEmpty then none
  else
    (authUsername item.username).bind fun username =>
      if idleExpired cfg now (readSession now item username) then none
      else some (item.token, readSession now item username)

def loadAdminSessionsStore (cfg : AuthConfig) (now : Int) (items : List StoredSession) :
    AdminSessions :=
  SortedMap.ofList (items.filterMap (loadSession cfg now))

/-- `skipped` -/
def skippedSessions (cfg : AuthConfig) (now : Int) (items : List StoredSession) : Nat :=
  items.countP fun item => (loadSession cfg now item).isNone

/-! ## What the operations do to one token -/

theorem find_eraseSession (sessions : AdminSessions) (token key : String) :
    (eraseSession sessions token).find key = if key = token then none else sessions.find key := by
  rw [eraseSession, SortedMap.find_filter]
  split
  · rename_i h
    subst h
    cases sessions.find key <;> simp [Option.filter]
  · rename_i h
    cases sessions.find key <;> simp [Option.filter, h]

theorem find_cleanup (cfg : AuthConfig) (now : Int) (sessions : AdminSessions) (key : String) :
    (cleanupExpiredAdminSessions cfg now sessions).find key =
      (sessions.find key).filter fun session => !idleExpired cfg now session :=
  SortedMap.find_filter _ _ _

/-- A session that the store keeps. -/
def Savable (token : String) (session : AdminSessionInfo) : Prop :=
  token ≠ "" ∧ session.username.name ≠ "service"

theorem storeSession_of {token : String} {session : AdminSessionInfo} (h : Savable token session) :
    storeSession (token, session) = some (toStored token session) := by
  have hname := session.username.nonempty
  refine if_neg ?_
  simp [h.1, h.2, hname]

theorem storeSession_eq_none {token : String} {session : AdminSessionInfo}
    (h : ¬ Savable token session) : storeSession (token, session) = none := by
  refine if_pos ?_
  unfold Savable at h
  by_contra hskip
  simp_all

/-- The last activity in whole milliseconds. -/
def wholeMs (time : Int) : Int := msToTimepoint (timepointToMs time)

/-- What a restart at `now` makes of a session that the store keeps. -/
def reloaded (now : Int) (token : String) (session : AdminSessionInfo) : AdminSessionInfo :=
  readSession now (toStored token session) session.username

@[simp] theorem reloaded_lastActivityAt (now : Int) (token : String) (session : AdminSessionInfo) :
    (reloaded now token session).lastActivityAt = wholeMs session.lastActivityAt := rfl

theorem loadSession_toStored {token : String} {session : AdminSessionInfo} (cfg : AuthConfig)
    (now : Int) (h : token ≠ "") :
    loadSession cfg now (toStored token session) =
      if idleExpired cfg now (reloaded now token session) then none
      else some (token, reloaded now token session) := by
  rw [loadSession, if_neg (by simpa [toStored] using h)]
  show (authUsername session.username.name).bind _ = _
  rw [authUsername_name, Option.bind_some]
  rfl

theorem loadSession_key {cfg : AuthConfig} {now : Int} {item : StoredSession}
    {y : String × AdminSessionInfo} (h : loadSession cfg now item = some y) : y.1 = item.token := by
  unfold loadSession at h
  split at h
  · cases h
  · obtain ⟨username, -, h⟩ := Option.bind_eq_some_iff.1 h
    split at h
    · cases h
    · obtain rfl := Option.some.inj h
      rfl

/-- A restart finds a session if the file holds it and it is not idle. -/
theorem find_loadAdminSessionsStore {cfg : AuthConfig} {now : Int} {sessions : AdminSessions}
    {token : String} {session : AdminSessionInfo} :
    (loadAdminSessionsStore cfg now (storedSessions sessions)).find token = some session ↔
      ∃ saved, sessions.find token = some saved ∧ Savable token saved ∧
        idleExpired cfg now (reloaded now token saved) = false ∧
        session = reloaded now token saved := by
  unfold loadAdminSessionsStore storedSessions
  rw [SortedMap.find_ofList, List.filterMap_filterMap, SortedMap.lastValue_filterMap]
  · rw [Option.bind_eq_some_iff]
    refine exists_congr fun saved => and_congr_right fun _ => ?_
    by_cases h : Savable token saved
    · rw [storeSession_of h, Option.bind_some, loadSession_toStored cfg now h.1]
      cases hidle : idleExpired cfg now (reloaded now token saved) with
      | true => simp
      | false => simp [h, eq_comm]
    · rw [storeSession_eq_none h]
      simp [h]
  · intro x y hy
    obtain ⟨item, hitem, hy⟩ := Option.bind_eq_some_iff.1 hy
    rw [loadSession_key hy]
    obtain ⟨token', saved⟩ := x
    by_cases h : Savable token' saved
    · rw [storeSession_of h] at hitem
      obtain rfl := Option.some.inj hitem
      rfl
    · rw [storeSession_eq_none h] at hitem
      cases hitem

end OpcBridge.Admin
