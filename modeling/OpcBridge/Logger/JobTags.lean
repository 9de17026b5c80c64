import OpcBridge.Demand.Keys
import Mathlib.Data.Finset.Sort
import Mathlib.Data.Prod.Lex
import Mathlib.Data.String.Basic

/-!
# The tags of a log job and the demand for them

A log job selects all tags, exact tags and globs of tag names. `parse_job_tags` keeps the exact ones
as keys `connection SEP name` (`JobTags`), `job_includes_tag` asks for a tag, and `demand_scopes` puts
the selections of the enabled jobs and of the jobs in flight together into one scope for each base
URL, with keys `connection:name`.
-/

namespace OpcBridge.Logger

open Alarms (Json)

/-! ## Selections -/

/-- `TAG_KEY_SEP` -/
def tagKeySep : Char := '\x1F'

def makeTagKey (conn name : String) : String := conn ++ String.singleton tagKeySep ++ name

def hasGlobChars (s : String) : Bool := s.toList.contains '*' || s.toList.contains '?'

/-- The loop of `consumer_demand_glob`. -/
def globMatch (pattern text : String) : Bool := consumerDemandGlob pattern text

theorem noKeys_named : ∀ key ∈ ([] : List String),
    ∃ conn name, conn ≠ "" ∧ name ≠ "" ∧ key = makeTagKey conn name := by simp

theorem noGlobs_named : ∀ g ∈ ([] : List (String × List String)),
    g.1 ≠ "" ∧ ∀ pattern ∈ g.2, pattern ≠ "" := by simp

theorem noGlobs_nodup : (([] : List (String × List String)).map Prod.fst).Nodup := by simp

/-- What a job selects. -/
structure JobTags where
  logAll : Bool := false
  tagKeys : List String := []
  /-- `tag_name_globs_by_conn` -/
  globs : List (String × List String) := []
  keys_named : ∀ key ∈ tagKeys, ∃ conn name, conn ≠ "" ∧ name ≠ "" ∧ key = makeTagKey conn name :=
    by exact noKeys_named
  globs_named : ∀ g ∈ globs, g.1 ≠ "" ∧ ∀ pattern ∈ g.2, pattern ≠ "" := by exact noGlobs_named
  globs_nodup : (globs.map Prod.fst).Nodup := by exact noGlobs_nodup

/-- `globs[conn].push_back(name)` -/
def pushGlob (conn name : String) : List (String × List String) → List (String × List String)
  | [] => [(conn, [name])]
  | (c, names) :: globs =>
    if c = conn then (c, names ++ [name]) :: globs else (c, names) :: pushGlob conn name globs

section
variable {conn name : String} {globs : List (String × List String)}

theorem mem_pushGlob {g : String × List String} (h : g ∈ pushGlob conn name globs) :
    g ∈ globs ∨ g.1 = conn ∧ ∀ pattern ∈ g.2, pattern = name ∨ ∃ g' ∈ globs, pattern ∈ g'.2 := by
  induction globs with
  | nil =>
    simp only [pushGlob, List.mem_singleton] at h
    subst h
    exact .inr ⟨rfl, fun pattern hp => .inl (by simpa using hp)⟩
  | cons x globs ih =>
    obtain ⟨c, names⟩ := x
    rw [pushGlob] at h
    split at h
    · rename_i hc
      obtain rfl | h := List.mem_cons.1 h
      · refine .inr ⟨hc, fun pattern hp => ?_⟩
        obtain hp | hp := List.mem_append.1 hp
        · exact .inr ⟨_, List.mem_cons_self, hp⟩
        · exact .inl (by simpa using hp)
      · exact .inl (List.mem_cons_of_mem _ h)
    · obtain rfl | h := List.mem_cons.1 h
      · exact .inl List.mem_cons_self
      · obtain h | ⟨hc, hpatterns⟩ := ih h
        · exact .inl (List.mem_cons_of_mem _ h)
        · refine .inr ⟨hc, fun pattern hp => ?_⟩
          obtain h | ⟨g', hg', hp⟩ := hpatterns pattern hp
          · exact .inl h
          · exact .inr ⟨g', List.mem_cons_of_mem _ hg', hp⟩

theorem pushGlob_keys : (pushGlob conn name globs).map Prod.fst =
    if conn ∈ globs.map Prod.fst then globs.map Prod.fst else globs.map Prod.fst ++ [conn] := by
  induction globs with
  | nil => simp [pushGlob]
  | cons x globs ih =>
    obtain ⟨c, names⟩ := x
    rw [pushGlob]
    by_cases hc : c = conn
    · simp [hc]
    · rw [if_neg hc, List.map_cons, ih]
      by_cases hmem : conn ∈ globs.map Prod.fst
      · rw [if_pos hmem, List.map_cons, if_pos (List.mem_cons_of_mem _ hmem)]
      · rw [if_neg hmem, List.map_cons, if_neg (by simpa [Ne.symm hc] using hmem)]
        rfl

end

/-- A tag of the list of a job. -/
def JobTags.addTag (job : JobTags) (conn name : String) (h : conn ≠ "" ∧ name ≠ "") : JobTags :=
  if hasGlobChars name then
    { job with
      globs := pushGlob conn name job.globs
      globs_named := by
        intro g hg
        obtain hg | ⟨hc, hpatterns⟩ := mem_pushGlob hg
        · exact job.globs_named g hg
        · refine ⟨hc ▸ h.1, fun pattern hp => ?_⟩
          obtain rfl | ⟨g', hg', hp⟩ := hpatterns pattern hp
          · exact h.2
          · exact (job.globs_named g' hg').2 pattern hp
      globs_nodup := by
        rw [pushGlob_keys]
        split
        · exact job.globs_nodup
        · rename_i hno
          exact List.nodup_append.2 ⟨job.globs_nodup, List.nodup_singleton _,
            fun a ha b hb heq => hno (by simpa [← List.mem_singleton.1 hb, ← heq] using ha)⟩ }
  else
    { job with
      tagKeys := job.tagKeys.insert (makeTagKey conn name)
      keys_named := by
        intro key hkey
        obtain rfl | hkey := List.mem_insert_iff.1 hkey
        · exact ⟨conn, name, h.1, h.2, rfl⟩
        · exact job.keys_named key hkey }

section
variable [Floats]

/-- The connection id and the name of an item, if it has them; a member of another type throws. -/
def jobTag (t : Json) : Except String (Option (String × String)) :=
  match t with
  | .string s => .ok (cutAt ':' s)
  | .object _ => do
    let conn ← t.valueString "connection_id" ""
    let name ← t.valueString "name" ""
    let _ ← t.valueString "description" ""
    let outputName ← t.valueString "output_name" ""
    let outputField ← t.valueString "output_field" outputName
    let _ ← t.valueString "field_name" outputField
    .ok (some (conn, name))
  | _ => .ok none

/-- `parse_job_tags`: an exception, or the message or the tags of the job. -/
def parseJobTags (tags : Json) : Except String (Except String JobTags) :=
  match tags with
  | .null => .ok (.ok { logAll := true })
  | .string s =>
    if s = "ALL" ∨ s = "all" then .ok (.ok { logAll := true })
    else .ok (.error ("Unknown tags string: " ++ s))
  | .array items => do
    let job ← items.foldlM (fun job t => do
      match ← jobTag t with
      | none => .ok job
      | some (conn, name) =>
        .ok (if h : conn ≠ "" ∧ name ≠ "" then job.addTag conn name h else job)) {}
    .ok (.ok job)
  | _ => .ok (.error "tags must be 'ALL' or an array.")

end

def jobIncludesTag (job : JobTags) (connectionId tagName : String) : Bool :=
  job.logAll || job.tagKeys.contains (makeTagKey connectionId tagName) ||
    match job.globs.lookup connectionId with
    | none => false
    | some patterns => patterns.any (globMatch · tagName)

def jobHasLiveTagSelection (job : JobTags) : Bool :=
  job.logAll || !job.tagKeys.isEmpty || !job.globs.isEmpty

/-! ## Scopes -/

structure ServiceConfig where
  opcbridgeBaseUrl : String := "http://127.0.0.1:8080"

structure DbConfig where
  opcbridgeBaseUrl : String := ""

structure Job where
  databaseId : String
  enabled : Bool := false
  tags : JobTags

structure LoggerService where
  svc : ServiceConfig := {}
  dbs : List (String × DbConfig) := []
  jobs : List (String × Job) := []
  demandInflight : List (String × Job × DbConfig × ServiceConfig) := []

def consumerDemandBaseUrl (url : String) : String :=
  String.ofList (url.toList.reverse.dropWhile (· = '/')).reverse

def DbConfig.baseUrl (db : DbConfig) (svc : ServiceConfig) : String :=
  consumerDemandBaseUrl
    (if db.opcbridgeBaseUrl = "" then svc.opcbridgeBaseUrl else db.opcbridgeBaseUrl)

/-- The enabled jobs with a database and the jobs in flight, with the URLs they read from. -/
def LoggerService.demanding (s : LoggerService) : List (String × JobTags) :=
  s.jobs.filterMap (fun entry =>
    if entry.2.enabled then
      (s.dbs.lookup entry.2.databaseId).map fun db => (db.baseUrl s.svc, entry.2.tags)
    else none) ++
  s.demandInflight.map fun (_, job, db, svc) => (db.baseUrl svc, job.tags)

structure DemandScope where
  allTags : Bool := false
  tags : List String := []
  patterns : List (String × String) := []
deriving DecidableEq

/-- The key with a colon for its separator. -/
def wireKey (key : String) : Option String :=
  (cutAt tagKeySep key).map fun cut => cut.1 ++ ":" ++ cut.2

def JobTags.patterns (job : JobTags) : List (String × String) :=
  job.globs.flatMap fun g => g.2.map fun pattern => (g.1, pattern)

def DemandScope.add (scope : DemandScope) (job : JobTags) : DemandScope where
  allTags := scope.allTags || job.logAll
  tags := scope.tags ++ job.tagKeys.filterMap wireKey
  patterns := scope.patterns ++ job.patterns

/-- `std::sort` and `std::unique`. -/
def sortUnique {α : Type} [LinearOrder α] (l : List α) : List α := l.toFinset.sort (· ≤ ·)

/-- Two patterns are compared by their connection ids and then by their names. -/
def DemandScope.sorted (scope : DemandScope) : DemandScope where
  allTags := scope.allTags
  tags := sortUnique scope.tags
  patterns := (sortUnique (scope.patterns.map toLex)).map ofLex

def addDemand (scopes : String → Option DemandScope) (entry : String × JobTags) :
    String → Option DemandScope :=
  Function.update scopes entry.1 (some (((scopes entry.1).getD {}).add entry.2))

/-- `demand_scopes`, by base URL. -/
def LoggerService.demandScopes (s : LoggerService) (base : String) : Option DemandScope :=
  ((s.demanding.filter fun entry => jobHasLiveTagSelection entry.2).foldl addDemand
    (fun _ => none) base).map DemandScope.sorted

section
variable [Floats]

/-- The message that registers the scope. -/
def DemandScope.message (scope : DemandScope) : Json :=
  .object [("type", .string "register_demand"), ("owner", .string "opcbridge-logger"),
    ("all_tags", .bool scope.allTags), ("tags", .array (scope.tags.map .string)),
    ("patterns", .array (scope.patterns.map patternJson))]

end

end OpcBridge.Logger
