import OpcBridge.Admin.Sessions
import OpcBridge.Alarms.Json
import OpcBridge.Core.JsonComments
import OpcBridge.Lib.Split
import Mathlib.Algebra.Group.Int.Defs

/-!
# The password store

`load_passwords_store` and `save_passwords_store`. Parsing and writing a JSON text is the library's
part (`JsonText`, with what it does on values without fractions in `JsonText.Laws`); what the two
functions make of the values is here. An object of the library keeps its keys in order, so what
`save_passwords_store` writes is given in that order.
-/

namespace OpcBridge.Alarms.Json

variable [Floats]

mutual

/-- A value after it was written and read: a number that is not negative comes back as unsigned. -/
def reread : Json → Json
  | int n => if 0 ≤ n then uint n.toNat else int n
  | array items => array (rereadItems items)
  | object fields => object (rereadFields fields)
  | j => j

def rereadItems : List Json → List Json
  | [] => []
  | j :: items => j.reread :: rereadItems items

def rereadFields : List (String × Json) → List (String × Json)
  | [] => []
  | x :: fields => (x.1, x.2.reread) :: rereadFields fields

end

mutual

/-- Without fractions, and with the keys of objects in order. -/
def Plain : Json → Prop
  | float _ => False
  | array items => PlainItems items
  | object fields => (fields.map Prod.fst).Pairwise (· < ·) ∧ PlainFields fields
  | _ => True

def PlainItems : List Json → Prop
  | [] => True
  | j :: items => j.Plain ∧ PlainItems items

def PlainFields : List (String × Json) → Prop
  | [] => True
  | x :: fields => x.2.Plain ∧ PlainFields fields

end

end OpcBridge.Alarms.Json

namespace OpcBridge.Admin

open OpcBridge.Alarms Lib

variable [Floats]

/-- The texts of the library: `json::parse`, and `dump(2)`, which throws for a string that is not
UTF-8. -/
class JsonText [Floats] where
  parse : String → Except String Json
  dump : Json → Except String String

/-- A plain value that was written is read back, and its text has slashes only in strings. An `int`
holds 32 bits. -/
structure JsonText.Laws [JsonText] [JsonLib] : Prop where
  parse_dump : ∀ {j : Json} {text : String}, JsonText.dump j = .ok text → j.Plain →
    JsonText.parse text = .ok j.reread
  dump_slashFree : ∀ {j : Json} {text : String}, JsonText.dump j = .ok text →
    slashFree .normal text.toList = true
  truncate_int : ∀ x : F64, -2 ^ 31 ≤ JsonLib.truncate x ∧ JsonLib.truncate x < 2 ^ 31

/-! ## Permissions and groups -/

def allPermissionIds : List String :=
  ["scada.access", "hmi.edit_screens", "opcbridge.write_tags", "opcua.read", "opcua.write",
    "opcbridge.edit_config", "suite.manage_server", "auth.manage_users", "suite.view_logs",
    "reports.access", "reports.create", "reports.administer", "data_entry.access",
    "data_entry.administer"]

def isValidPermissionId (id : String) : Bool := !id.isEmpty && allPermissionIds.contains id

def items : Json → List Json
  | .array items => items
  | _ => []

def parsePermissionList (j : Json) : List String :=
  (Json.stringItems (items j)).foldl (fun out id =>
    if !isValidPermissionId id || out.contains id then out else out ++ [id]) []

/-- `parse_group_list` -/
def groupList (j : Json) : List String := parseGroupList (Json.stringItems (items j))

def jsonStringOrDefault (obj : Json) (key fallback : String) : String :=
  let s := jsonStringOrEmpty obj key
  if s.isEmpty then fallback else s

/-! ## Users -/

structure AuthRoleRecord where
  id : String
  label : String
  description : String
  permissions : List String
deriving DecidableEq

structure AuthUserRecord where
  username : String := ""
  firstName : String := ""
  lastName : String := ""
  name : String := ""
  description : String := ""
  groups : List String := []
  iterations : Int := 150000
  saltB64 : String := ""
  hashB64 : String := ""
deriving DecidableEq

def authUserDisplayName (user : AuthUserRecord) : String :=
  let display := user.firstName
  let display :=
    if user.lastName.isEmpty then display
    else (if display.isEmpty then display else display ++ " ") ++ user.lastName
  let display := if display.isEmpty then user.name else display
  if display.isEmpty then user.username else display

/-- A name up to its first space, and what stands behind it. -/
def splitName (name : String) : String × String :=
  match splitFirst ' ' name.toList with
  | some (first, last) => (String.ofList first, String.ofList last)
  | none => (name, "")

def setAuthUserNames (user : AuthUserRecord) (firstName lastName legacyName : String) :
    AuthUserRecord :=
  let names :=
    if firstName.isEmpty && lastName.isEmpty && !legacyName.isEmpty then splitName legacyName
    else (firstName, lastName)
  let user := { user with firstName := names.1, lastName := names.2 }
  { user with name := authUserDisplayName user }

structure AuthStore where
  authTimeoutMinutes : Int := 0
  authRoles : List AuthRoleRecord := []
  authUsers : List AuthUserRecord := []
  userStoreConfigured : Bool := false
deriving DecidableEq

/-! ## Loading -/

def hasRole (roles : List AuthRoleRecord) (id : String) : Bool := roles.any fun r => r.id == id

def adminRole : AuthRoleRecord where
  id := "admin"
  label := "Admin"
  description := "Full access."
  permissions := allPermissionIds

def ensureAdmin (roles : List AuthRoleRecord) : List AuthRoleRecord :=
  if hasRole roles "admin" then roles else roles ++ [adminRole]

def readRole (rj : Json) : Option AuthRoleRecord :=
  let id := normalizeAuthRoleId (jsonStringOrEmpty rj "id")
  let permissions := parsePermissionList ((rj.find "permissions").getD (.array []))
  if !rj.isObject || id.isEmpty then none
  else some
    { id := id
      label := jsonStringOrDefault rj "label" id
      description := jsonStringOrEmpty rj "description"
      permissions := if id = "admin" ∧ permissions = [] then allPermissionIds else permissions }

def addRole (roles : List AuthRoleRecord) (r : AuthRoleRecord) : List AuthRoleRecord :=
  if hasRole roles r.id then roles else roles ++ [r]

/-- The groups, under their present or their former key. -/
def readRoles (j : Json) : List AuthRoleRecord :=
  let roles := (j.find (if j.contains "groups" then "groups" else "roles")).getD (.array [])
  ensureAdmin (((items roles).filterMap readRole).foldl addRole [])

def readUserGroups (roles : List AuthRoleRecord) (u : Json) : List String :=
  let groups := groupList ((u.find "groups").getD (.array []))
  let legacyRole := normalizeAuthRoleId (jsonStringOrEmpty u "role")
  let groups :=
    if groups = [] then (if legacyRole.isEmpty then [] else [legacyRole]) else groups
  groups.filter (hasRole roles)

variable [JsonLib]

/-- A user, if the record is complete. The number of iterations throws also where it is not. -/
def readUser (roles : List AuthRoleRecord) (u : Json) : Except String (Option AuthUserRecord) :=
  if u.isObject then do
    let username := normalizeAuthUsername (jsonStringOrEmpty u "username")
    let named := setAuthUserNames { username := username } (jsonStringOrEmpty u "first_name")
      (jsonStringOrEmpty u "last_name") (jsonStringOrDefault u "name" username)
    let kdf := (u.find "kdf").getD (.object [])
    let iterations ← kdf.valueInt "iterations" 150000
    let user :=
      { named with
        description := jsonStringOrEmpty u "description"
        groups := readUserGroups roles u
        iterations := max 10000 (min 5000000 iterations)
        saltB64 := jsonStringOrEmpty kdf "saltB64"
        hashB64 := jsonStringOrEmpty kdf "hashB64" }
    return if user.username.isEmpty || user.saltB64.isEmpty || user.hashB64.isEmpty ||
      user.groups.isEmpty then none else some user
  else return none

def parsePasswords (j : Json) : Except String AuthStore := do
  let timeout ← j.valueInt "timeoutMinutes" 0
  let roles := readRoles j
  let users ← (items ((j.find "users").getD (.array []))).mapM (readUser roles)
  let users := users.reduceOption
  return { authTimeoutMinutes := max 0 timeout, authRoles := roles, authUsers := users,
           userStoreConfigured := !users.isEmpty }

variable [JsonText]

inductive PasswordsFile
  | missing
  | unreadable (error : String)
  | content (text : String)
deriving DecidableEq

structure AuthState where
  store : AuthStore := {}
  lastExists : Bool := false
  lastLoadOk : Bool := true
  lastLoadError : String := ""
deriving DecidableEq

def AuthState.loadFailed (s : AuthState) (error : String) : Bool × AuthState :=
  (false, { s with lastLoadOk := false, lastLoadError := error })

def loadPasswordsStore (file : PasswordsFile) (s : AuthState) : Bool × AuthState :=
  let s := { s with lastExists := file ≠ .missing, lastLoadOk := true, lastLoadError := "" }
  match file with
  | .missing => (true, s)
  | .unreadable error => s.loadFailed error
  | .content text =>
    match JsonText.parse (stripJsonComments text) with
    | .error error => s.loadFailed error
    | .ok j =>
      if j.isObject then
        match parsePasswords j with
        | .error error => s.loadFailed error
        | .ok store => (true, { s with store := store })
      else (false, s)

/-! ## Saving -/

omit [JsonLib] [JsonText] in
def textOrNull (s : String) : Json := if s.isEmpty then .null else .string s

omit [JsonLib] [JsonText] in
def textArray (texts : List String) : Json := .array (texts.map .string)

def roleJson (r : AuthRoleRecord) : Json := .object
  [("description", textOrNull r.description), ("id", .string r.id), ("label", .string r.label),
    ("permissions", textArray (if r.id = "admin" then allPermissionIds else r.permissions))]

def kdfJson (u : AuthUserRecord) : Json := .object
  [("algo", .string "pbkdf2-sha256"), ("hashB64", .string u.hashB64),
    ("iterations", .int u.iterations), ("saltB64", .string u.saltB64)]

def userJson (u : AuthUserRecord) : Json := .object
  [("description", textOrNull u.description), ("first_name", .string u.firstName),
    ("groups", textArray u.groups), ("kdf", kdfJson u), ("last_name", .string u.lastName), ("name", .string (authUserDisplayName u)),
    ("username", .string u.username)]

def passwordsJson (store : AuthStore) : Json := .object
  [("groups", .array ((ensureAdmin store.authRoles).map roleJson)),
    ("timeoutMinutes", .int store.authTimeoutMinutes),
    ("users", .array (store.authUsers.map userJson))]

/-- How the file system answers: the text is not in place, it is but its permissions are not set, or
all is done. -/
inductive WriteResult
  | failed
  | unprotected
  | done

/-- The result, and the file. -/
def savePasswordsStore (write : WriteResult) (store : AuthStore) (file : PasswordsFile) :
    Bool × PasswordsFile :=
  match JsonText.dump (passwordsJson store) with
  | .error _ => (false, file)
  | .ok text =>
    match write with
    | .failed => (false, file)
    | .unprotected => (false, .content text)
    | .done => (true, .content text)

end OpcBridge.Admin
