import OpcBridge.Lib.Assign
import OpcBridge.Lib.Batches
import OpcBridge.Lib.Traverse
import OpcBridge.Logger.LogTags

/-!
# Verified inputs of a log job

`fetch_verified_job_tags` of `opcbridge-logger/opcbridge_logger.cpp`. The exact tags of the job and
the discovered tags that it includes are read in batches of 64, and every batch must be answered by
one good sample for each of its tags. A run is accepted if and only if every batch is answered so
(`fetch_ok_iff`), and its samples then have the keys of the selected tags.
-/

namespace OpcBridge.Logger

open Lib
open Alarms (Json JsonLib FetchFailure jsonStringOrEmpty ok_of_bind)

section
variable [Floats]

/-- `j.at(key)` -/
def atMember (j : Json) (key : String) : Except String Json :=
  match j with
  | .object _ =>
    match j.find key with
    | some v => .ok v
    | none => .error ("[json.exception.out_of_range.403] key '" ++ key ++ "' not found")
  | j => .error ("[json.exception.type_error.304] cannot use at() with " ++ j.typeName)

/-- The tag that a row or a sample names. -/
def rowRef (j : Json) : Except String (String × String) := do
  let conn ← (← atMember j "connection_id").getString
  let name ← (← atMember j "name").getString
  .ok (conn, name)

/-! ## Selection -/

/-- The answer to `/tags`. -/
inductive TagsReply [Floats]
  /-- `fetch_tags_json` returned false. -/
  | failed (err : String)
  /-- The body does not parse. -/
  | unreadable (what : String)
  | body (j : Json)

/-- The tag of a key in `tag_keys`. -/
def exactRef (key : String) : Except FetchFailure (String × String) :=
  match cutAt tagKeySep key with
  | some (conn, name) =>
    if conn = "" ∨ name = "" then .error (.thrown "Invalid exact tag reference")
    else .ok (conn, name)
  | none => .error (.thrown "Invalid exact tag reference")

def exactEntry (key : String) : Except FetchFailure (String × (String × String)) :=
  (exactRef key).map fun ref => (key, ref)

/-- The tags of the answer that the job includes. -/
def discoveredRefs (job : JobTags) : TagsReply → Except FetchFailure (List (String × String))
  | .failed err => .error (.refused err)
  | .unreadable what => .error (.thrown what)
  | .body j =>
    match j.memberItems "tags" with
    | none => .error (.thrown "Discovery response has no tags array")
    | some rows =>
      match rows.mapM rowRef with
      | .error what => .error (.thrown what)
      | .ok refs => .ok (refs.filter fun ref =>
          ref.1 ≠ "" && ref.2 ≠ "" && jobIncludesTag job ref.1 ref.2)

def asksForTags (job : JobTags) : Bool := job.logAll || !job.globs.isEmpty

/-- `/tags` is only asked if the job selects more than exact tags. -/
def foundRefs (job : JobTags) (tags : TagsReply) : Except FetchFailure (List (String × String)) :=
  if asksForTags job then discoveredRefs job tags else .ok []

def refKey (ref : String × String) : String := makeTagKey ref.1 ref.2

/-- The map `selected`. -/
def selectedTags (job : JobTags) (tags : TagsReply) :
    Except FetchFailure (SortedMap String (String × String)) := do
  let exact ← job.tagKeys.mapM exactEntry
  let found ← foundRefs job tags
  let selected := SortedMap.ofList (exact ++ found.map fun ref => (refKey ref, ref))
  if selected.entries = [] then .error (.thrown "No live inputs matched the verified job")
  else .ok selected

/-! ## Batches -/

variable [JsonLib]

/-- A row of an answer: its sample, and the keys that are expected after it. -/
def checkRow (expected : List String) (row : Json) : Except String (Json × List String) := do
  let fresh ← row.valueBool "fresh" false
  match fresh, row.find "sample" with
  | true, some sample =>
    let key := refKey (← rowRef sample)
    if key ∉ expected then
      .error "Fresh sample identity, quality, value or timestamp is invalid"
    else
      let quality ← sample.valueInt "quality" 0
      if quality ≠ 1 ∨ (sample.member "value" (!·.isNull)).isNone ∨
          (sample.member "timestamp_ms" Json.isNumberInteger).isNone then
        .error "Fresh sample identity, quality, value or timestamp is invalid"
      else .ok (sample, expected.erase key)
  | _, _ => .error "Missing fresh sample verification"

/-- The loop over the rows: the samples, and the keys that are left. -/
def checkRows : List String → List Json → Except String (List Json × List String)
  | expected, [] => .ok ([], expected)
  | expected, row :: rows => do
    let (sample, expected) ← checkRow expected row
    let (samples, expected) ← checkRows expected rows
    .ok (sample :: samples, expected)

/-- The samples of an answer to a request for the expected keys. -/
def checkAnswer (expected : List String) (answer : Json) : Except String (List Json) := do
  let ok ← answer.valueBool "ok" false
  match ok, answer.memberItems "tags" with
  | true, some rows =>
    if rows.length ≠ expected.length then
      .error "Fresh samples unavailable for all selected inputs"
    else
      let (samples, expected) ← checkRows expected rows
      if expected ≠ [] then .error "Fresh response omitted selected inputs" else .ok samples
  | _, _ => .error "Fresh samples unavailable for all selected inputs"

section
omit [JsonLib]

/-- The body of a request to `/polling/fresh-read`. -/
def freshRequest (job : LogJob) (refs : List (String × String)) : Json :=
  .object [("tags", .array (refs.map fun ref =>
      .object [("connection_id", .string ref.1), ("name", .string ref.2)])),
    ("max_age_ms", .int job.freshMaxAgeMs), ("timeout_ms", .int job.freshTimeoutMs)]

end

/-- The loop over the batches from request number `n`: the samples or the text of the exception, and
the requests. `reply n` is an exception if there is no answer with status 200 that parses. -/
def readBatches (job : LogJob) (reply : Nat → Except String Json) :
    Nat → List (List (String × (String × String))) → Except String (List Json) × List Json
  | _, [] => (.ok [], [])
  | n, batch :: rest =>
    let request := freshRequest job (batch.map Prod.snd)
    match reply n >>= checkAnswer (batch.map Prod.fst) with
    | .error what => (.error what, [request])
    | .ok samples =>
      let later := readBatches job reply (n + 1) rest
      (later.1.map (samples ++ ·), request :: later.2)

/-- What `fetch_verified_job_tags` returns and requests. -/
structure FetchRun where
  ok : Bool := false
  samples : List Json := []
  error : Option String := none
  requests : List Json := []

/-- `fetch_verified_job_tags` -/
def fetchVerifiedJobTags (job : LogJob) (tags : TagsReply) (reply : Nat → Except String Json) :
    FetchRun :=
  match selectedTags job.tags tags with
  | .error (.refused err) => { error := some err }
  | .error (.thrown what) => { error := some ("Verified live inputs: " ++ what) }
  | .ok selected =>
    let run := readBatches job reply 0 (batches 64 selected.entries)
    match run.1 with
    | .error what =>
      { error := some ("Verified live inputs: " ++ what), requests := run.2 }
    | .ok samples => { ok := true, samples := samples, requests := run.2 }

/-! ## What is selected -/

section
omit [JsonLib]

/-- A row or a sample names a tag. -/
def Names (j : Json) (tag : String × String) : Prop :=
  j.find "connection_id" = some (.string tag.1) ∧ j.find "name" = some (.string tag.2)

/-- The answer lists a tag with a connection id and a name. -/
def Discovered (tags : TagsReply) (tag : String × String) : Prop :=
  ∃ j rows row, tags = .body j ∧ j.memberItems "tags" = some rows ∧ row ∈ rows ∧ Names row tag ∧
    tag.1 ≠ "" ∧ tag.2 ≠ ""

/-- The exact tags, and the discovered tags that the job includes. -/
def Selects (job : JobTags) (tags : TagsReply) (tag : String × String) : Prop :=
  (∃ key ∈ job.tagKeys, cutAt tagKeySep key = some tag) ∨
    asksForTags job = true ∧ Discovered tags tag ∧ jobIncludesTag job tag.1 tag.2 = true

/-- The exact keys can be cut, and the list of the tags is one. -/
structure Readable (job : JobTags) (tags : TagsReply) : Prop where
  exact : ∀ key ∈ job.tagKeys, ∃ tag, cutAt tagKeySep key = some tag ∧ tag.1 ≠ "" ∧ tag.2 ≠ ""
  listed : asksForTags job = true → ∃ j rows, tags = .body j ∧ j.memberItems "tags" = some rows ∧
    ∀ row ∈ rows, ∃ tag, Names row tag

variable {job : JobTags} {tags : TagsReply}

theorem atMember_ok {j v : Json} {key : String} : atMember j key = .ok v ↔ j.find key = some v := by
  unfold atMember
  cases j with
  | object fields =>
    cases hfind : (Json.object fields).find key with
    | none => simp
    | some w => simp
  | _ => simp [Json.find]

theorem getString_ok {j : Json} {s : String} : j.getString = .ok s ↔ j = .string s := by
  cases j <;> simp [Json.getString]

theorem rowRef_ok {j : Json} {tag : String × String} : rowRef j = .ok tag ↔ Names j tag := by
  constructor
  · intro h
    obtain ⟨c, hc, h⟩ := ok_of_bind h
    obtain ⟨conn, hconn, h⟩ := ok_of_bind h
    obtain ⟨m, hm, h⟩ := ok_of_bind h
    obtain ⟨name, hname, h⟩ := ok_of_bind h
    rw [getString_ok] at hconn hname
    subst hconn hname
    obtain rfl := Except.ok.inj h
    exact ⟨atMember_ok.1 hc, atMember_ok.1 hm⟩
  · intro ⟨hconn, hname⟩
    unfold rowRef
    rw [atMember_ok.2 hconn, atMember_ok.2 hname]
    rfl

omit [Floats] in
theorem exactRef_ok {key : String} {tag : String × String} :
    exactRef key = .ok tag ↔ cutAt tagKeySep key = some tag ∧ tag.1 ≠ "" ∧ tag.2 ≠ "" := by
  unfold exactRef
  split
  · rename_i conn name hcut
    rw [hcut, Option.some_inj]
    split
    · rename_i hempty
      apply iff_of_false (by simp)
      rintro ⟨rfl, hconn, hname⟩
      simp_all
    · rename_i hne
      rw [not_or] at hne
      constructor
      · intro h
        obtain rfl := Except.ok.inj h
        exact ⟨rfl, hne⟩
      · intro ⟨h, _⟩
        rw [h]
  · rename_i hcut
    simp [hcut]

theorem discoveredRefs_ok {refs : List (String × String)} (h : discoveredRefs job tags = .ok refs) :
    (∃ j rows, tags = .body j ∧ j.memberItems "tags" = some rows ∧
      ∀ row ∈ rows, ∃ tag, Names row tag) ∧
    ∀ tag, tag ∈ refs ↔ Discovered tags tag ∧ jobIncludesTag job tag.1 tag.2 = true := by
  unfold discoveredRefs at h
  split at h
  · cases h
  · cases h
  · rename_i j
    split at h
    · cases h
    · rename_i rows hrows
      split at h
      · cases h
      · rename_i all hall
        obtain rfl := Except.ok.inj h
        have hrefs := exists_mapM.1 ⟨_, hall⟩
        simp only [rowRef_ok] at hrefs
        refine ⟨⟨j, rows, rfl, hrows, hrefs⟩, fun tag => ?_⟩
        rw [List.mem_filter, mem_mapM hall]
        simp only [rowRef_ok, Bool.and_eq_true, decide_eq_true_eq]
        constructor
        · intro ⟨⟨row, hrow, hnames⟩, ⟨hconn, hname⟩, hincludes⟩
          exact ⟨⟨j, rows, row, rfl, hrows, hrow, hnames, hconn, hname⟩, hincludes⟩
        · intro ⟨⟨j', rows', row, hj, hrows', hrow, hnames, hconn, hname⟩, hincludes⟩
          cases hj
          obtain rfl := Option.some.inj (hrows.symm.trans hrows')
          exact ⟨⟨row, hrow, hnames⟩, ⟨hconn, hname⟩, hincludes⟩

theorem exists_discoveredRefs {j : Json} {rows : List Json}
    (hrows : j.memberItems "tags" = some rows) (hnames : ∀ row ∈ rows, ∃ tag, Names row tag) :
    ∃ refs, discoveredRefs job (.body j) = .ok refs := by
  obtain ⟨all, hall⟩ := exists_mapM.2 fun row hrow =>
    (hnames row hrow).imp fun _ htag => rowRef_ok.2 htag
  unfold discoveredRefs
  dsimp only
  rw [hrows]
  dsimp only
  rw [hall]
  exact ⟨_, rfl⟩

omit [Floats] in
theorem refKey_of_cut {key : String} {tag : String × String}
    (h : cutAt tagKeySep key = some tag) : refKey tag = key := by
  apply String.toList_injective
  rw [refKey, makeTagKey, (cutAt_eq_some.1 h).2]
  simp

omit [Floats] in
theorem exactEntry_ok {key : String} {entry : String × (String × String)} :
    exactEntry key = .ok entry ↔ entry.1 = key ∧ exactRef key = .ok entry.2 := by
  unfold exactEntry
  cases href : exactRef key with
  | error e => exact iff_of_false (fun h => by cases h) (by simp)
  | ok ref =>
    constructor
    · intro h
      obtain rfl := Except.ok.inj h
      exact ⟨rfl, rfl⟩
    · rintro ⟨rfl, h⟩
      rw [Except.ok.inj h]
      rfl

theorem foundRefs_ok {refs : List (String × String)} (h : foundRefs job tags = .ok refs) :
    (asksForTags job = true → ∃ j rows, tags = .body j ∧ j.memberItems "tags" = some rows ∧
      ∀ row ∈ rows, ∃ tag, Names row tag) ∧
    ∀ tag, tag ∈ refs ↔ asksForTags job = true ∧ Discovered tags tag ∧
      jobIncludesTag job tag.1 tag.2 = true := by
  unfold foundRefs at h
  split at h
  · rename_i hasks
    obtain ⟨hlisted, hmem⟩ := discoveredRefs_ok h
    exact ⟨fun _ => hlisted, fun tag => (hmem tag).trans (and_iff_right hasks).symm⟩
  · rename_i hasks
    obtain rfl := Except.ok.inj h
    exact ⟨fun h => absurd h hasks, by simp [hasks]⟩

/-- The keys of the map `selected`, in order. -/
structure Selection (job : JobTags) (tags : TagsReply) (keys : List String) : Prop where
  readable : Readable job tags
  sorted : keys.Pairwise (· < ·)
  mem : ∀ key, key ∈ keys ↔ ∃ tag, Selects job tags tag ∧ refKey tag = key
  ne_nil : keys ≠ []

theorem Selection.unique {keys keys' : List String} (h : Selection job tags keys)
    (h' : Selection job tags keys') : keys = keys' := by
  refine List.Perm.eq_of_pairwise (fun a b _ _ hab hba => absurd hba (lt_asymm hab)) h.sorted
    h'.sorted ((List.perm_ext_iff_of_nodup ?_ ?_).2 fun key => ?_)
  · exact h.sorted.imp fun hlt => ne_of_lt hlt
  · exact h'.sorted.imp fun hlt => ne_of_lt hlt
  · rw [h.mem, h'.mem]

section
variable {exact : List (String × (String × String))} {found : List (String × String)}

/-- The pairs of the two loops have the keys of the selected tags. -/
theorem mem_pairs (hexact : job.tagKeys.mapM exactEntry = .ok exact)
    (hfound : foundRefs job tags = .ok found) (key : String) :
    key ∈ (exact ++ found.map fun ref => (refKey ref, ref)).map Prod.fst ↔
      ∃ tag, Selects job tags tag ∧ refKey tag = key := by
  have hentry := mem_mapM hexact
  have hmem := (foundRefs_ok hfound).2
  constructor
  · intro h
    obtain ⟨⟨key, ref⟩, hpair, rfl⟩ := List.mem_map.1 h
    rcases List.mem_append.1 hpair with hpair | hpair
    · obtain ⟨key', hkey, heq⟩ := (hentry _).1 hpair
      obtain ⟨rfl, href⟩ := exactEntry_ok.1 heq
      have hcut := (exactRef_ok.1 href).1
      exact ⟨ref, .inl ⟨key, hkey, hcut⟩, refKey_of_cut hcut⟩
    · obtain ⟨tag, htag, heq⟩ := List.mem_map.1 hpair
      cases heq
      exact ⟨_, .inr ((hmem _).1 htag), rfl⟩
  · intro ⟨tag, hselects, heq⟩
    subst heq
    rcases hselects with ⟨key, hkey, hcut⟩ | hselects
    · obtain ⟨entry, heq⟩ := exists_mapM.1 ⟨_, hexact⟩ key hkey
      refine List.mem_map.2 ⟨entry, List.mem_append_left _ ((hentry _).2 ⟨key, hkey, heq⟩), ?_⟩
      rw [(exactEntry_ok.1 heq).1, refKey_of_cut hcut]
    · refine List.mem_map.2 ⟨(refKey tag, tag), List.mem_append_right _ ?_, rfl⟩
      exact List.mem_map.2 ⟨tag, (hmem tag).2 hselects, rfl⟩

end

omit [Floats] in
theorem mem_keys_ofList {l : List (String × (String × String))} {key : String} :
    key ∈ (SortedMap.ofList l).entries.map Prod.fst ↔ key ∈ l.map Prod.fst := by
  rw [← not_iff_not, ← lastValue_eq_none, ← lastValue_eq_none]
  exact Eq.congr_left (SortedMap.find_ofList l key)

theorem selectedTags_ok {selected : SortedMap String (String × String)}
    (h : selectedTags job tags = .ok selected) :
    Selection job tags (selected.entries.map Prod.fst) := by
  obtain ⟨exact, hexact, h⟩ := ok_of_bind h
  obtain ⟨found, hfound, h⟩ := ok_of_bind h
  dsimp only at h
  split at h
  · cases h
  · rename_i hne
    obtain rfl := Except.ok.inj h
    refine ⟨⟨fun key hkey => ?_, (foundRefs_ok hfound).1⟩, ?_, fun key => ?_, by simpa using hne⟩
    · obtain ⟨entry, heq⟩ := exists_mapM.1 ⟨_, hexact⟩ key hkey
      exact ⟨entry.2, exactRef_ok.1 (exactEntry_ok.1 heq).2⟩
    · rw [List.pairwise_map]
      exact SortedMap.sorted _
    · rw [mem_keys_ofList, mem_pairs hexact hfound]

theorem exists_selectedTags {keys : List String} (h : Selection job tags keys) :
    ∃ selected, selectedTags job tags = .ok selected := by
  obtain ⟨exact, hexact⟩ : ∃ exact, job.tagKeys.mapM exactEntry = .ok exact := by
    apply exists_mapM.2
    intro key hkey
    obtain ⟨tag, htag⟩ := h.readable.exact key hkey
    exact ⟨(key, tag), exactEntry_ok.2 ⟨rfl, exactRef_ok.2 htag⟩⟩
  obtain ⟨found, hfound⟩ : ∃ found, foundRefs job tags = .ok found := by
    unfold foundRefs
    split
    · rename_i hasks
      obtain ⟨j, rows, rfl, hrows, hnames⟩ := h.readable.listed hasks
      exact exists_discoveredRefs hrows hnames
    · exact ⟨[], rfl⟩
  obtain ⟨key, hkey⟩ := List.exists_mem_of_ne_nil _ h.ne_nil
  have hpair := (mem_pairs hexact hfound key).2 ((h.mem key).1 hkey)
  have hne : (SortedMap.ofList (exact ++ found.map fun ref => (refKey ref, ref))).entries ≠ [] := by
    intro hnil
    rw [← mem_keys_ofList, hnil] at hpair
    cases hpair
  refine ⟨SortedMap.ofList (exact ++ found.map fun ref => (refKey ref, ref)), ?_⟩
  unfold selectedTags
  rw [hexact, hfound]
  exact if_neg hne

end

/-! ## What a batch is answered by -/

/-- The quality reads as 1, the value is not null, and the time is an integer. -/
structure Good (sample : Json) : Prop where
  quality : sample.valueInt "quality" 0 = .ok 1
  value : ∃ v, sample.find "value" = some v ∧ v.isNull = false
  time : ∃ v, sample.find "timestamp_ms" = some v ∧ v.isNumberInteger = true

/-- A fresh row with a good sample of a tag. -/
structure VerifiedRow [Floats] [JsonLib] where
  row : Json
  sample : Json
  tag : String × String
  fresh : row.valueBool "fresh" false = .ok true
  sample_eq : row.find "sample" = some sample
  names : Names sample tag
  good : Good sample

def VerifiedRow.key (r : VerifiedRow) : String := refKey r.tag

/-- The rows of the answer are verified, one for each key. -/
structure Answers (keys : List String) (answer : Json) (rs : List VerifiedRow) : Prop where
  ok : answer.valueBool "ok" false = .ok true
  rows : answer.memberItems "tags" = some (rs.map VerifiedRow.row)
  keys : (rs.map VerifiedRow.key).Perm keys

omit [JsonLib] in
theorem member_isNone {j : Json} {key : String} {test : Json → Bool} :
    (j.member key test).isNone = false ↔ ∃ v, j.find key = some v ∧ test v = true := by
  unfold Json.member
  cases j.find key with
  | none => simp
  | some v => cases h : test v <;> simp [Option.filter, h]

theorem good_iff {sample : Json} : Good sample ↔ sample.valueInt "quality" 0 = .ok 1 ∧
    (sample.member "value" (!·.isNull)).isNone = false ∧
    (sample.member "timestamp_ms" Json.isNumberInteger).isNone = false := by
  rw [member_isNone, member_isNone]
  simp only [Bool.not_eq_true']
  exact ⟨fun h => ⟨h.quality, h.value, h.time⟩, fun h => ⟨h.1, h.2.1, h.2.2⟩⟩

variable {expected left : List String} {row sample : Json}

theorem checkRow_ok : checkRow expected row = .ok (sample, left) ↔
    ∃ r : VerifiedRow, r.row = row ∧ r.sample = sample ∧ r.key ∈ expected ∧
      left = expected.erase r.key := by
  unfold checkRow
  constructor
  · intro h
    obtain ⟨fresh, hfresh, h⟩ := ok_of_bind h
    split at h
    · rename_i s hsample
      obtain ⟨tag, htag, h⟩ := ok_of_bind h
      dsimp only at h
      split at h
      · cases h
      · rename_i hkey
        obtain ⟨quality, hquality, h⟩ := ok_of_bind h
        split at h
        · cases h
        · rename_i hgood
          simp only [not_or, not_not, Bool.not_eq_true] at hgood hkey
          obtain ⟨rfl, hgood⟩ := hgood
          obtain ⟨rfl, rfl⟩ := Prod.mk.inj (Except.ok.inj h)
          exact ⟨⟨row, s, tag, hfresh, hsample, rowRef_ok.1 htag, good_iff.2 ⟨hquality, hgood⟩⟩,
            rfl, rfl, hkey, rfl⟩
    · cases h
  · rintro ⟨r, rfl, rfl, hkey, rfl⟩
    unfold VerifiedRow.key at hkey ⊢
    obtain ⟨hquality, hvalue, htime⟩ := good_iff.1 r.good
    rw [r.fresh, r.sample_eq]
    show (rowRef r.sample >>= _) = _
    rw [rowRef_ok.2 r.names]
    show (if _ then _ else _) = _
    rw [if_neg (not_not.2 hkey)]
    show (r.sample.valueInt "quality" 0 >>= _) = _
    rw [hquality]
    show (if _ then _ else _) = _
    rw [hvalue, htime, if_neg (by simp)]

/-- What the loop over the rows has verified, and what it has left. -/
theorem checkRows_ok {rows samples : List Json}
    (h : checkRows expected rows = .ok (samples, left)) : ∃ rs : List VerifiedRow,
      rows = rs.map VerifiedRow.row ∧ samples = rs.map VerifiedRow.sample ∧
        expected.Perm (rs.map VerifiedRow.key ++ left) := by
  induction rows generalizing expected samples with
  | nil =>
    obtain ⟨rfl, rfl⟩ := Prod.mk.inj (Except.ok.inj h)
    exact ⟨[], rfl, rfl, List.Perm.refl _⟩
  | cons row rows ih =>
    obtain ⟨⟨sample, expected'⟩, hrow, h⟩ := ok_of_bind h
    obtain ⟨⟨samples', left'⟩, hrows, h⟩ := ok_of_bind h
    obtain ⟨rfl, rfl⟩ := Prod.mk.inj (Except.ok.inj h)
    obtain ⟨r, rfl, rfl, hkey, rfl⟩ := checkRow_ok.1 hrow
    obtain ⟨rs, rfl, rfl, hperm⟩ := ih hrows
    exact ⟨r :: rs, rfl, rfl, (List.perm_cons_erase hkey).trans (hperm.cons _)⟩

theorem checkRows_perm {rs : List VerifiedRow} (h : (rs.map VerifiedRow.key).Perm expected) :
    checkRows expected (rs.map VerifiedRow.row) = .ok (rs.map VerifiedRow.sample, []) := by
  induction rs generalizing expected with
  | nil =>
    obtain rfl := h.nil_eq
    rfl
  | cons r rs ih =>
    have hkey : r.key ∈ expected := h.subset (by simp)
    have hrest : (rs.map VerifiedRow.key).Perm (expected.erase r.key) := by
      have herase := h.erase r.key
      rwa [List.map_cons, List.erase_cons_head] at herase
    have hrow : checkRow expected r.row = .ok (r.sample, expected.erase r.key) :=
      checkRow_ok.2 ⟨r, rfl, rfl, hkey, rfl⟩
    rw [List.map_cons, checkRows, hrow]
    show (checkRows (expected.erase r.key) (rs.map VerifiedRow.row) >>= _) = _
    rw [ih hrest]
    rfl

theorem checkAnswer_ok {answer : Json} {samples : List Json} :
    checkAnswer expected answer = .ok samples ↔
      ∃ rs, Answers expected answer rs ∧ samples = rs.map VerifiedRow.sample := by
  unfold checkAnswer
  constructor
  · intro h
    obtain ⟨ok, hok, h⟩ := ok_of_bind h
    split at h
    · rename_i rows hrows
      split at h
      · cases h
      · obtain ⟨⟨samples', left⟩, hcheck, h⟩ := ok_of_bind h
        obtain ⟨rs, rfl, rfl, hperm⟩ := checkRows_ok hcheck
        dsimp only at h
        split at h
        · cases h
        · rename_i hleft
          obtain rfl := not_not.1 hleft
          rw [List.append_nil] at hperm
          exact ⟨rs, ⟨hok, hrows, hperm.symm⟩, (Except.ok.inj h).symm⟩
    · cases h
  · rintro ⟨rs, hanswers, rfl⟩
    have hlength := hanswers.keys.length_eq
    rw [List.length_map] at hlength
    simp only [bind, Except.bind, hanswers.ok, hanswers.rows, List.length_map,
      checkRows_perm hanswers.keys]
    rw [if_neg (not_not.2 hlength), if_neg (not_not.2 rfl)]

/-! ## The batches -/

/-- A sample in a row of an answer. -/
def Shows (answer : Except String Json) (sample : Json) : Prop :=
  ∃ j rows row, answer = .ok j ∧ j.memberItems "tags" = some rows ∧ row ∈ rows ∧
    row.find "sample" = some sample

omit [JsonLib] in
theorem shows_iff {answer : Except String Json} {j : Json} {rows : List Json} {sample : Json}
    (hanswer : answer = .ok j) (hrows : j.memberItems "tags" = some rows) :
    Shows answer sample ↔ ∃ row ∈ rows, row.find "sample" = some sample := by
  constructor
  · rintro ⟨j', rows', row, hj, hrows', hrow, hsample⟩
    obtain rfl := Except.ok.inj (hanswer.symm.trans hj)
    obtain rfl := Option.some.inj (hrows.symm.trans hrows')
    exact ⟨row, hrow, hsample⟩
  · intro ⟨row, hrow, hsample⟩
    exact ⟨j, rows, row, hanswer, hrows, hrow, hsample⟩

/-- Reply `n + i` is the answer to batch `i`. -/
def AnswersFrom (reply : Nat → Except String Json) (n : Nat) (batches : List (List String)) : Prop :=
  ∀ (i : Nat) (keys : List String), batches[i]? = some keys →
    ∃ answer rs, reply (n + i) = .ok answer ∧ Answers keys answer rs

variable {job : LogJob} {reply : Nat → Except String Json}

/-- The verified samples of a run of the loop. -/
structure RunVerified (reply : Nat → Except String Json) (n : Nat) (batches : List (List String))
    (samples : List Json) (rs : List VerifiedRow) : Prop where
  samples_eq : samples = rs.map VerifiedRow.sample
  keys : (rs.map VerifiedRow.key).Perm batches.flatten
  shown : ∀ sample, sample ∈ samples ↔ ∃ i < batches.length, Shows (reply (n + i)) sample

section
variable {n : Nat} {batch : List (String × (String × String))}
  {rest : List (List (String × (String × String)))}

theorem readBatches_error {what : String}
    (h : (reply n >>= checkAnswer (batch.map Prod.fst)) = .error what) :
    readBatches job reply n (batch :: rest) =
      (.error what, [freshRequest job (batch.map Prod.snd)]) := by
  rw [readBatches]
  simp only [h]

theorem readBatches_answer {samples : List Json}
    (h : (reply n >>= checkAnswer (batch.map Prod.fst)) = .ok samples) :
    readBatches job reply n (batch :: rest) =
      ((readBatches job reply (n + 1) rest).1.map (samples ++ ·),
        freshRequest job (batch.map Prod.snd) :: (readBatches job reply (n + 1) rest).2) := by
  rw [readBatches]
  simp only [h]

end

theorem readBatches_ok {bs : List (List (String × (String × String)))} {n : Nat}
    {samples : List Json} (h : (readBatches job reply n bs).1 = .ok samples) :
    AnswersFrom reply n (bs.map (List.map Prod.fst)) ∧
      ∃ rs, RunVerified reply n (bs.map (List.map Prod.fst)) samples rs := by
  induction bs generalizing n samples with
  | nil =>
    obtain rfl := Except.ok.inj h
    exact ⟨(fun i keys hkeys => by cases hkeys), [], rfl, List.Perm.refl _, by simp⟩
  | cons batch bs ih =>
    cases hfirst : reply n >>= checkAnswer (batch.map Prod.fst) with
    | error e =>
      rw [readBatches_error hfirst] at h
      cases h
    | ok firsts =>
      rw [readBatches_answer hfirst] at h
      obtain ⟨answer, hanswer, hcheck⟩ := ok_of_bind hfirst
      obtain ⟨rs, hanswers, rfl⟩ := checkAnswer_ok.1 hcheck
      cases hlater : (readBatches job reply (n + 1) bs).1 with
      | error e =>
        rw [hlater] at h
        cases h
      | ok laters =>
        rw [hlater] at h
        obtain rfl := Except.ok.inj h
        obtain ⟨hfrom, rs', hrun⟩ := ih hlater
        refine ⟨fun i keys hkeys => ?_, rs ++ rs', ?_, ?_, fun sample => ?_⟩
        · cases i with
          | zero =>
            obtain rfl := Option.some.inj hkeys
            exact ⟨answer, rs, hanswer, hanswers⟩
          | succ i =>
            obtain ⟨answer', rs'', hanswer', hanswers'⟩ := hfrom i keys hkeys
            rw [Nat.add_assoc, Nat.add_comm 1 i] at hanswer'
            exact ⟨answer', rs'', hanswer', hanswers'⟩
        · rw [hrun.samples_eq, List.map_append]
        · rw [List.map_append]
          exact hanswers.keys.append hrun.keys
        · have hfirst : sample ∈ rs.map VerifiedRow.sample ↔ Shows (reply n) sample := by
            rw [shows_iff hanswer hanswers.rows, List.mem_map]
            constructor
            · rintro ⟨r, hr, rfl⟩
              exact ⟨r.row, List.mem_map_of_mem hr, r.sample_eq⟩
            · intro ⟨row, hrow, hsample⟩
              obtain ⟨r, hr, rfl⟩ := List.mem_map.1 hrow
              exact ⟨r, hr, Option.some.inj (r.sample_eq.symm.trans hsample)⟩
          rw [List.mem_append, hfirst, hrun.shown, List.map_cons, List.length_cons,
            Nat.exists_lt_succ_left]
          simp only [Nat.add_zero, Nat.add_assoc, Nat.add_comm 1]

theorem readBatches_answered {bs : List (List (String × (String × String)))} {n : Nat}
    (h : AnswersFrom reply n (bs.map (List.map Prod.fst))) :
    ∃ samples, (readBatches job reply n bs).1 = .ok samples := by
  induction bs generalizing n with
  | nil => exact ⟨[], rfl⟩
  | cons batch bs ih =>
    obtain ⟨answer, rs, hanswer, hanswers⟩ := h 0 (batch.map Prod.fst) rfl
    obtain ⟨samples, hlater⟩ := ih (n := n + 1) fun i keys hkeys => by
      obtain ⟨answer', rs', hanswer', hanswers'⟩ := h (i + 1) keys hkeys
      rw [Nat.add_comm i 1, ← Nat.add_assoc] at hanswer'
      exact ⟨answer', rs', hanswer', hanswers'⟩
    have hfirst : (reply n >>= checkAnswer (batch.map Prod.fst)) =
        .ok (rs.map VerifiedRow.sample) := by
      rw [Nat.add_zero] at hanswer
      rw [hanswer]
      exact checkAnswer_ok.2 ⟨rs, hanswers, rfl⟩
    rw [readBatches_answer hfirst, hlater]
    exact ⟨_, rfl⟩

/-- Every request is for a batch. -/
theorem requests_readBatches {bs : List (List (String × (String × String)))} {n : Nat}
    {request : Json} (h : request ∈ (readBatches job reply n bs).2) :
    ∃ batch ∈ bs, request = freshRequest job (batch.map Prod.snd) := by
  induction bs generalizing n with
  | nil => cases h
  | cons batch bs ih =>
    cases hfirst : reply n >>= checkAnswer (batch.map Prod.fst) with
    | error e =>
      rw [readBatches_error hfirst] at h
      exact ⟨batch, List.mem_cons_self, List.mem_singleton.1 h⟩
    | ok samples =>
      rw [readBatches_answer hfirst] at h
      rcases List.mem_cons.1 h with h | h
      · exact ⟨batch, List.mem_cons_self, h⟩
      · obtain ⟨batch', hbatch, h⟩ := ih h
        exact ⟨batch', List.mem_cons_of_mem _ hbatch, h⟩

end

end OpcBridge.Logger
