import OpcBridge.Logger.FreshRead

/-!
# One insert for each selected tag

What `fetch_verified_job_tags` and `insert_tags_for_job` do together. A run that is accepted has one
verified row for each key of the selected tags (`fetch_answered`), so it has one sample for each tag
unless two tags share a key. The samples are then inserted one by one, but a verified sample whose
`datatype` is not a text is left out (`attempt_sample_iff`): `verified_once_iff` says when every
selected tag is inserted once.
-/

namespace OpcBridge.Logger

open Lib
open Alarms (Json JsonLib intJson ok_of_bind)

section
variable [Floats] [JsonLib]

/-- The job can be read, and every batch of its keys is answered. -/
structure Answered (job : LogJob) (tags : TagsReply) (reply : Nat → Except String Json)
    (keys : List String) : Prop where
  selection : Selection job.tags tags keys
  answers : AnswersFrom reply 0 (batches 64 keys)

/-- The datatype is a text, if there is one. -/
def TextDatatype (sample : Json) : Prop :=
  ∀ v, sample.find "datatype" = some v → v.isNull = true ∨ v.isString = true

/-- What the keys and the answers leave open. -/
structure Usable (job : LogJob) (tags : TagsReply) (reply : Nat → Except String Json)
    (keys : List String) : Prop where
  distinct : ∀ tag tag', Selects job.tags tags tag → Selects job.tags tags tag' →
    refKey tag = refKey tag' → tag = tag'
  named : ∀ i < (batches 64 keys).length, ∀ sample, Shows (reply i) sample →
    ∃ tag, Names sample tag ∧ Selects job.tags tags tag
  datatypes : ∀ i < (batches 64 keys).length, ∀ sample, Shows (reply i) sample →
    TextDatatype sample

/-- Each selected tag once, and no other. -/
structure EachOnce (job : LogJob) (tags : TagsReply) (refs : List (String × String)) : Prop where
  nodup : refs.Nodup
  mem : ∀ tag, tag ∈ refs ↔ Selects job.tags tags tag

variable [LogLib] {job : LogJob} {tags : TagsReply} {reply : Nat → Except String Json}
  {keys : List String}

/-- What a run of the job may rely on. -/
structure VerifiedOnce (job : LogJob) (tags : TagsReply) (run : FetchRun) : Prop where
  requests : ∀ request ∈ run.requests, ∃ refs, request = freshRequest job refs ∧
    1 ≤ refs.length ∧ refs.length ≤ 64
  refused : run.ok = false → run.samples = []
  accepted : run.ok = true → ∃ refs, EachOnce job tags refs ∧
    List.Forall₂ (fun sample ref => Names sample ref ∧ Good sample) run.samples refs
  inserts : run.ok = true → ∀ answer, EachOnce job tags
    ((insertTagsForJob job answer (.array run.samples)).attempts.map TagInsert.tag)

/-! ## Accepted runs -/

section
omit [LogLib]

theorem fetch_answered (h : Answered job tags reply keys) :
    ∃ rs, (fetchVerifiedJobTags job tags reply).ok = true ∧
      RunVerified reply 0 (batches 64 keys) (fetchVerifiedJobTags job tags reply).samples rs := by
  obtain ⟨selected, hselected⟩ := exists_selectedTags h.selection
  have hkeys := (selectedTags_ok hselected).unique h.selection
  have hbatches : (batches 64 selected.entries).map (List.map Prod.fst) = batches 64 keys := by
    rw [← batches_map, hkeys]
  obtain ⟨samples, hrun⟩ : ∃ samples,
      (readBatches job reply 0 (batches 64 selected.entries)).1 = .ok samples := by
    apply readBatches_answered
    rw [hbatches]
    exact h.answers
  obtain ⟨-, rs, hverified⟩ := readBatches_ok hrun
  rw [hbatches] at hverified
  refine ⟨rs, ?_⟩
  unfold fetchVerifiedJobTags
  simp only [hselected, hrun]
  exact ⟨trivial, hverified⟩

/-- A run is accepted if and only if every batch is answered. -/
theorem fetch_ok_iff : (fetchVerifiedJobTags job tags reply).ok = true ↔
    ∃ keys, Answered job tags reply keys := by
  constructor
  · intro h
    unfold fetchVerifiedJobTags at h
    split at h
    · cases h
    · cases h
    · rename_i selected hselected
      dsimp only at h
      split at h
      · cases h
      · rename_i samples hrun
        have hanswers := (readBatches_ok hrun).1
        rw [← batches_map] at hanswers
        exact ⟨_, selectedTags_ok hselected, hanswers⟩
  · intro ⟨keys, h⟩
    obtain ⟨rs, hok, -⟩ := fetch_answered h
    exact hok

theorem fetch_refused (h : (fetchVerifiedJobTags job tags reply).ok = false) :
    (fetchVerifiedJobTags job tags reply).samples = [] := by
  unfold fetchVerifiedJobTags at h ⊢
  split
  · rfl
  · rfl
  · rename_i selected hselected
    simp only [hselected] at h ⊢
    split at h
    · rfl
    · cases h

theorem fetch_requests {request : Json}
    (h : request ∈ (fetchVerifiedJobTags job tags reply).requests) :
    ∃ refs, request = freshRequest job refs ∧ 1 ≤ refs.length ∧ refs.length ≤ 64 := by
  have hbatch : ∃ selected : SortedMap String (String × String),
      request ∈ (readBatches job reply 0 (batches 64 selected.entries)).2 := by
    unfold fetchVerifiedJobTags at h
    split at h
    · cases h
    · cases h
    · rename_i selected hselected
      dsimp only at h
      split at h
      · exact ⟨selected, h⟩
      · exact ⟨selected, h⟩
  obtain ⟨selected, hmem⟩ := hbatch
  obtain ⟨batch, hbatch, rfl⟩ := requests_readBatches hmem
  have hlength := batches_length (by omega) selected.entries batch hbatch
  refine ⟨batch.map Prod.snd, rfl, ?_⟩
  rwa [List.length_map]

end

/-! ## Attempts -/

omit [JsonLib] [LogLib] in
theorem names_unique {j : Json} {tag tag' : String × String} (h : Names j tag)
    (h' : Names j tag') : tag = tag' := by
  have hconn := Option.some.inj (h.1.symm.trans h'.1)
  have hname := Option.some.inj (h.2.symm.trans h'.2)
  exact Prod.ext (Json.string.inj hconn) (Json.string.inj hname)

omit [JsonLib] [LogLib] in
theorem selects_includes {tag : String × String} (h : Selects job.tags tags tag) :
    jobIncludesTag job.tags tag.1 tag.2 = true := by
  rcases h with ⟨key, hkey, hcut⟩ | ⟨_, _, hincludes⟩
  · have hmem : makeTagKey tag.1 tag.2 ∈ job.tags.tagKeys := by
      have hrefkey := refKey_of_cut hcut
      rw [refKey] at hrefkey
      rwa [hrefkey]
    simp [jobIncludesTag, hmem]
  · exact hincludes

/-- A tag with its ids and a time is attempted if its statement can be made. -/
theorem attempt_eq {sample time : Json} {tag : String × String} (hnames : Names sample tag)
    (htime : sample.find "timestamp_ms" = some time)
    (hincludes : jobIncludesTag job.tags tag.1 tag.2 = true) :
    attempt job sample = (includedInsert job sample time tag.1 tag.2).toOption := by
  have hinsert : tagInsert job sample = (includedInsert job sample time tag.1 tag.2).map some := by
    unfold tagInsert
    rw [hnames.1, hnames.2, htime]
    exact if_pos hincludes
  unfold attempt
  rw [hinsert]
  cases includedInsert job sample time tag.1 tag.2 <;> rfl

omit [LogLib] in
theorem quality_read {sample : Json} (hgood : Good sample) : qualityOf sample = .ok (some 1) := by
  have hquality := hgood.quality
  unfold Json.valueInt Json.value at hquality
  split at hquality
  · split at hquality
    · rename_i v hfind
      have hnull : v.isNull = false := by
        cases v with
        | null => cases hquality
        | _ => rfl
      unfold qualityOf Json.member
      rw [hfind]
      simp only [Option.filter, hnull, Bool.not_false, if_true]
      rw [hquality]
      rfl
    · cases hquality
  · cases hquality

omit [JsonLib] [LogLib] in
theorem datatype_read {sample : Json} :
    (∃ s, datatypeOf sample = .ok s) ↔ TextDatatype sample := by
  unfold datatypeOf TextDatatype Json.member
  cases sample.find "datatype" with
  | none => simp
  | some v => cases v <;> simp [Option.filter, Json.isNull, Json.isString, Json.getString]

omit [LogLib] in
theorem getLong_integer {v : Json} (h : v.isNumberInteger = true) : ∃ n, v.getLong = .ok n := by
  cases v with
  | int n => exact ⟨_, rfl⟩
  | uint n => exact ⟨_, rfl⟩
  | _ => cases h

theorem attempt_tag {sample : Json} {tag : String × String} {x : TagInsert}
    (hnames : Names sample tag) (hgood : Good sample)
    (hincludes : jobIncludesTag job.tags tag.1 tag.2 = true) (hx : attempt job sample = some x) :
    x.tag = tag := by
  obtain ⟨time, htime, _⟩ := hgood.time
  rw [attempt_eq hnames htime hincludes] at hx
  cases hinsert : includedInsert job sample time tag.1 tag.2 with
  | error e =>
    rw [hinsert] at hx
    cases hx
  | ok y =>
    rw [hinsert] at hx
    obtain rfl := Option.some.inj hx
    exact includedInsert_tag hinsert

/-- A verified sample is only left out for its datatype. -/
theorem attempt_sample_iff {sample : Json} {tag : String × String} (hnames : Names sample tag)
    (hgood : Good sample) (hincludes : jobIncludesTag job.tags tag.1 tag.2 = true) :
    (∃ x, attempt job sample = some x) ↔ TextDatatype sample := by
  obtain ⟨time, htime, hinteger⟩ := hgood.time
  rw [attempt_eq hnames htime hincludes, ← datatype_read]
  constructor
  · intro ⟨x, hx⟩
    cases hinsert : includedInsert job sample time tag.1 tag.2 with
    | error e =>
      rw [hinsert] at hx
      cases hx
    | ok y => exact (exists_includedInsert.1 ⟨y, hinsert⟩).2.1
  · intro hdatatype
    obtain ⟨x, hx⟩ := exists_includedInsert.2
      ⟨getLong_integer hinteger, hdatatype, _, quality_read hgood⟩
    rw [hx]
    exact ⟨x, rfl⟩

/-! ## The two together -/

section
variable {rs : List VerifiedRow} {samples : List Json}
  (hrun : RunVerified reply 0 (batches 64 keys) samples rs)

include hrun

omit [LogLib] in
/-- The sample of a verified row is in the answer to one of the batches. -/
theorem row_shown {r : VerifiedRow} (hr : r ∈ rs) :
    ∃ i < (batches 64 keys).length, Shows (reply i) r.sample := by
  have hsample : r.sample ∈ samples := by
    rw [hrun.samples_eq]
    exact List.mem_map_of_mem hr
  obtain ⟨i, hi, hshown⟩ := (hrun.shown r.sample).1 hsample
  rw [Nat.zero_add] at hshown
  exact ⟨i, hi, hshown⟩

omit [LogLib] in
theorem exists_row {i : Nat} {sample : Json} (hi : i < (batches 64 keys).length)
    (hshown : Shows (reply i) sample) : ∃ r ∈ rs, r.sample = sample := by
  have hmem := (hrun.shown sample).2 ⟨i, hi, by rwa [Nat.zero_add]⟩
  rw [hrun.samples_eq] at hmem
  exact List.mem_map.1 hmem

omit [LogLib] in
/-- The verified rows have the keys of the selected tags, each once. -/
theorem verified_keys (h : Answered job tags reply keys) : (rs.map VerifiedRow.key).Nodup ∧
    ∀ key, key ∈ rs.map VerifiedRow.key ↔ ∃ tag, Selects job.tags tags tag ∧ refKey tag = key := by
  have hperm := hrun.keys
  rw [batches_flatten] at hperm
  refine ⟨hperm.nodup_iff.2 (h.selection.sorted.imp fun hlt => ne_of_lt hlt), fun key => ?_⟩
  rw [hperm.mem_iff, h.selection.mem]

omit [LogLib] in
/-- If the keys and the answers are usable, then each selected tag has one verified row. -/
theorem tags_once (h : Answered job tags reply keys) (hu : Usable job tags reply keys) :
    EachOnce job tags (rs.map VerifiedRow.tag) := by
  obtain ⟨hnodup, hmem⟩ := verified_keys hrun h
  have hselects : ∀ r ∈ rs, Selects job.tags tags r.tag := by
    intro r hr
    obtain ⟨i, hi, hshown⟩ := row_shown hrun hr
    obtain ⟨tag, hnames, hselects⟩ := hu.named i hi r.sample hshown
    rwa [names_unique r.names hnames]
  constructor
  · apply List.Nodup.of_map refKey
    rw [List.map_map]
    exact hnodup
  · intro tag
    constructor
    · intro htag
      obtain ⟨r, hr, rfl⟩ := List.mem_map.1 htag
      exact hselects r hr
    · intro htag
      obtain ⟨r, hr, hkey⟩ := List.mem_map.1 ((hmem (refKey tag)).2 ⟨tag, htag, rfl⟩)
      exact List.mem_map.2 ⟨r, hr, hu.distinct _ _ (hselects r hr) htag hkey⟩

/-- The tags of the attempts, if every datatype is a text. -/
theorem attempts_tags (hu : Usable job tags reply keys)
    (honce : EachOnce job tags (rs.map VerifiedRow.tag)) (answer : Nat → Option String) :
    (insertTagsForJob job answer (.array samples)).attempts.map TagInsert.tag =
      rs.map VerifiedRow.tag := by
  rw [attempts_insertTags, hrun.samples_eq, List.filterMap_map, List.map_filterMap,
    ← List.filterMap_eq_map]
  refine List.filterMap_congr fun r hr => ?_
  obtain ⟨i, hi, hshown⟩ := row_shown hrun hr
  have hselects := (honce.mem r.tag).1 (List.mem_map_of_mem hr)
  have hincludes := selects_includes hselects
  obtain ⟨x, hx⟩ := (attempt_sample_iff r.names r.good hincludes).2
    (hu.datatypes i hi r.sample hshown)
  show (attempt job r.sample).map TagInsert.tag = some r.tag
  rw [hx, ← attempt_tag r.names r.good hincludes hx]
  rfl

omit [LogLib] in
theorem refs_of_samples {refs : List (String × String)}
    (hall : List.Forall₂ (fun sample ref => Names sample ref ∧ Good sample) samples refs) :
    refs = rs.map VerifiedRow.tag := by
  rw [hrun.samples_eq] at hall
  clear hrun
  induction rs generalizing refs with
  | nil =>
    cases hall
    rfl
  | cons r rs ih =>
    rw [List.map_cons] at hall
    cases hall with
    | cons hr hrest => rw [List.map_cons, names_unique r.names hr.1, ← ih hrest]

end

/-- Whatever is answered, a run of the job has one sample and one insert for each selected tag, if
and only if the selected tags of a run that is answered in full have different keys, and every
sample names a selected tag and has a text for its datatype. -/
theorem verified_once_iff : VerifiedOnce job tags (fetchVerifiedJobTags job tags reply) ↔
    ∀ keys, Answered job tags reply keys → Usable job tags reply keys := by
  constructor
  · intro hlaw keys h
    obtain ⟨rs, hok, hrun⟩ := fetch_answered h
    obtain ⟨hnodup, -⟩ := verified_keys hrun h
    obtain ⟨refs, honce, hall⟩ := hlaw.accepted hok
    obtain rfl := refs_of_samples hrun hall
    have hselects : ∀ r ∈ rs, Selects job.tags tags r.tag := fun r hr =>
      (honce.mem r.tag).1 (List.mem_map_of_mem hr)
    refine ⟨fun tag tag' htag htag' hkey => ?_, fun i hi sample hshown => ?_,
      fun i hi sample hshown => ?_⟩
    · obtain ⟨r, hr, rfl⟩ := List.mem_map.1 ((honce.mem tag).2 htag)
      obtain ⟨r', hr', rfl⟩ := List.mem_map.1 ((honce.mem tag').2 htag')
      rw [List.inj_on_of_nodup_map hnodup hr hr' hkey]
    · obtain ⟨r, hr, rfl⟩ := exists_row hrun hi hshown
      exact ⟨r.tag, r.names, hselects r hr⟩
    · -- the insert for the tag of the sample comes from the sample itself
      obtain ⟨r, hr, rfl⟩ := exists_row hrun hi hshown
      have hattempted := ((hlaw.inserts hok fun _ => none).mem r.tag).2 (hselects r hr)
      rw [attempts_insertTags, hrun.samples_eq] at hattempted
      obtain ⟨x, hx, htag⟩ := List.mem_map.1 hattempted
      obtain ⟨sample, hsample, hx⟩ := List.mem_filterMap.1 hx
      obtain ⟨r', hr', rfl⟩ := List.mem_map.1 hsample
      have hincludes := selects_includes (hselects r' hr')
      have htag' := attempt_tag r'.names r'.good hincludes hx
      obtain rfl := List.inj_on_of_nodup_map honce.nodup hr' hr (htag'.symm.trans htag)
      exact (attempt_sample_iff r'.names r'.good hincludes).1 ⟨x, hx⟩
  · intro hcond
    refine ⟨fun request hrequest => fetch_requests hrequest, fetch_refused, fun hok => ?_,
      fun hok answer => ?_⟩
    · obtain ⟨keys, h⟩ := fetch_ok_iff.1 hok
      obtain ⟨rs, -, hrun⟩ := fetch_answered h
      refine ⟨_, tags_once hrun h (hcond keys h), ?_⟩
      rw [hrun.samples_eq, List.forall₂_map_left_iff, List.forall₂_map_right_iff]
      exact List.forall₂_same.2 fun r _ => ⟨r.names, r.good⟩
    · obtain ⟨keys, h⟩ := fetch_ok_iff.1 hok
      obtain ⟨rs, -, hrun⟩ := fetch_answered h
      have honce := tags_once hrun h (hcond keys h)
      rw [attempts_tags hrun (hcond keys h) honce answer]
      exact honce

end

section Examples

attribute [local instance] intFloats intJson

/-- Texts without anything to escape, times as they are, and whole numbers. -/
@[reducible] def plainLog : LogLib where
  literal s := "'" ++ s ++ "'"
  datetime n := toString n
  stodAll s := readInteger s.toList
  printFixed x := toString (show Int from x) ++ ".000000"

attribute [local instance] plainLog

theorem plcT_named : "PLC" ≠ "" ∧ "T" ≠ "" := by decide

/-- A job for the tag `T` of `PLC`. -/
def levelJob : LogJob where
  name := "levels"
  tags := ({} : JobTags).addTag "PLC" "T" plcT_named

/-- A good sample of the tag with a datatype. -/
def levelReply (datatype : Json) : Nat → Except String Json := fun _ =>
  .ok (.object [("ok", .bool true), ("tags", .array [.object [("fresh", .bool true),
    ("sample", .object [("connection_id", .string "PLC"), ("name", .string "T"),
      ("datatype", datatype), ("quality", .uint 1), ("timestamp_ms", .uint 1700000000000),
      ("value", .uint 7)])]])])

def levelRun (datatype : Json) : FetchRun :=
  fetchVerifiedJobTags levelJob (.failed "") (levelReply datatype)

example : (insertTagsForJob levelJob (fun _ => none)
    (.array (levelRun (.string "int16")).samples)).inserted = 1 := by decide +kernel

/-- A verified sample with a number for its datatype is not inserted. -/
theorem level_left_out : ¬ VerifiedOnce levelJob (.failed "") (levelRun (.uint 5)) := by
  intro hlaw
  have hok : (levelRun (.uint 5)).ok = true := by decide +kernel
  have hnone : (insertTagsForJob levelJob (fun _ => none)
      (.array (levelRun (.uint 5)).samples)).attempts = [] :=
    List.eq_nil_of_length_eq_zero (by decide +kernel)
  have hselects : Selects levelJob.tags (.failed "") ("PLC", "T") :=
    .inl ⟨makeTagKey "PLC" "T", by decide, by decide⟩
  have hmem := ((hlaw.inserts hok fun _ => none).mem _).2 hselects
  rw [hnone] at hmem
  cases hmem

end Examples

end OpcBridge.Logger
