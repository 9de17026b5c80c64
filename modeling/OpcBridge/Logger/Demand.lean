import OpcBridge.Logger.JobTags

/-!
# Logged tags are demanded

The scope of a base URL is the union of the selections of its jobs (`demandScopes_eq`), so what is
logged from there is demanded if the message is accepted. A key is cut at its first separator: that
gives back the tag unless the connection id has a separator, and the message is refused if the
connection id begins with a colon or a separator (`agrees_iff`).
-/

namespace OpcBridge.Logger

open Lib

/-! ## The jobs of a base URL -/

namespace LoggerService

variable (s : LoggerService) (base : String)

def jobsAt : List JobTags :=
  ((s.demanding.filter fun entry => jobHasLiveTagSelection entry.2).filter fun entry =>
    entry.1 = base).map Prod.snd

def keysAt : List String := (s.jobsAt base).flatMap JobTags.tagKeys

def patternsAt : List (String × String) := (s.jobsAt base).flatMap JobTags.patterns

/-- A job of the base URL logs the tag. -/
def Logs (cid name : String) : Prop :=
  ∃ entry ∈ s.demanding, entry.1 = base ∧ jobIncludesTag entry.2 cid name = true

end LoggerService

variable {s : LoggerService} {base cid name : String}

theorem lookup_iff_mem {globs : List (String × List String)} (hnodup : (globs.map Prod.fst).Nodup)
    {patterns : List String} : globs.lookup cid = some patterns ↔ (cid, patterns) ∈ globs := by
  induction globs with
  | nil => simp
  | cons g globs ih =>
    obtain ⟨c, names⟩ := g
    simp only [List.map_cons, List.nodup_cons] at hnodup
    by_cases hc : cid = c
    · subst hc
      have hno : (cid, patterns) ∉ globs := fun h => hnodup.1 (List.mem_map_of_mem h)
      simp [hno, eq_comm]
    · have hbeq : (cid == c) = false := by simpa using hc
      simp [List.lookup_cons, hbeq, hc, ih hnodup.2]

theorem mem_patterns {job : JobTags} {pattern : String × String} :
    pattern ∈ job.patterns ↔ ∃ patterns, job.globs.lookup pattern.1 = some patterns ∧
      pattern.2 ∈ patterns := by
  simp only [JobTags.patterns, List.mem_flatMap, List.mem_map, lookup_iff_mem job.globs_nodup]
  constructor
  · rintro ⟨g, hg, p, hp, rfl⟩
    exact ⟨g.2, hg, hp⟩
  · intro ⟨patterns, hg, hp⟩
    exact ⟨_, hg, _, hp, rfl⟩

theorem jobIncludesTag_iff {job : JobTags} :
    jobIncludesTag job cid name = true ↔
      job.logAll = true ∨ makeTagKey cid name ∈ job.tagKeys ∨
        ∃ pattern ∈ job.patterns, pattern.1 = cid ∧ globMatch pattern.2 name = true := by
  unfold jobIncludesTag
  rw [Bool.or_eq_true, Bool.or_eq_true, List.contains_iff_mem, or_assoc]
  refine or_congr_right (or_congr_right ?_)
  simp only [mem_patterns]
  cases hlookup : job.globs.lookup cid with
  | none =>
    constructor
    · intro h
      cases h
    · rintro ⟨pattern, ⟨patterns, hp, -⟩, rfl, -⟩
      rw [hlookup] at hp
      cases hp
  | some patterns =>
    simp only [List.any_eq_true]
    constructor
    · intro ⟨p, hp, hmatch⟩
      exact ⟨(cid, p), ⟨patterns, hlookup, hp⟩, rfl, hmatch⟩
    · rintro ⟨pattern, ⟨patterns', hp, hmem⟩, rfl, hmatch⟩
      rw [hlookup, Option.some.injEq] at hp
      subst hp
      exact ⟨_, hmem, hmatch⟩

/-- A job that logs a tag has a selection. -/
theorem jobHasLive_of_includes {job : JobTags} (h : jobIncludesTag job cid name = true) :
    jobHasLiveTagSelection job = true := by
  unfold jobHasLiveTagSelection
  obtain hall | hkey | ⟨pattern, hp, -⟩ := jobIncludesTag_iff.1 h
  · simp [hall]
  · simp [List.ne_nil_of_mem hkey]
  · have hglobs : job.globs ≠ [] := by
      intro hnil
      simp [JobTags.patterns, hnil] at hp
    simp [hglobs]

theorem mem_jobsAt {job : JobTags} : job ∈ s.jobsAt base ↔
    (base, job) ∈ s.demanding ∧ jobHasLiveTagSelection job = true := by
  simp [LoggerService.jobsAt]

/-- A job of the base URL logs the tag by one of its three kinds of selection. -/
theorem logs_iff :
    s.Logs base cid name ↔
      (s.jobsAt base).any JobTags.logAll = true ∨ makeTagKey cid name ∈ s.keysAt base ∨
        ∃ pattern ∈ s.patternsAt base, pattern.1 = cid ∧ globMatch pattern.2 name = true := by
  have hjobs : s.Logs base cid name ↔ ∃ job ∈ s.jobsAt base, jobIncludesTag job cid name = true := by
    constructor
    · rintro ⟨entry, he, rfl, h⟩
      exact ⟨entry.2, mem_jobsAt.2 ⟨he, jobHasLive_of_includes h⟩, h⟩
    · intro ⟨job, hjob, h⟩
      exact ⟨_, (mem_jobsAt.1 hjob).1, rfl, h⟩
  rw [hjobs]
  simp only [jobIncludesTag_iff, LoggerService.keysAt, LoggerService.patternsAt, List.any_eq_true,
    List.mem_flatMap]
  constructor
  · rintro ⟨job, hjob, hall | hkey | ⟨pattern, hp, hmatch⟩⟩
    · exact .inl ⟨job, hjob, hall⟩
    · exact .inr (.inl ⟨job, hjob, hkey⟩)
    · exact .inr (.inr ⟨pattern, ⟨job, hjob, hp⟩, hmatch⟩)
  · rintro (⟨job, hjob, hall⟩ | ⟨job, hjob, hkey⟩ | ⟨pattern, ⟨job, hjob, hp⟩, hmatch⟩)
    · exact ⟨job, hjob, .inl hall⟩
    · exact ⟨job, hjob, .inr (.inl hkey)⟩
    · exact ⟨job, hjob, .inr (.inr ⟨pattern, hp, hmatch⟩)⟩

/-! ## The scope -/

/-- The selections of some jobs together. -/
def unionScope (jobs : List JobTags) : DemandScope where
  allTags := jobs.any JobTags.logAll
  tags := (jobs.flatMap JobTags.tagKeys).filterMap wireKey
  patterns := jobs.flatMap JobTags.patterns

theorem foldl_add (jobs : List JobTags) (scope : DemandScope) :
    jobs.foldl DemandScope.add scope =
      ⟨scope.allTags || (unionScope jobs).allTags, scope.tags ++ (unionScope jobs).tags,
        scope.patterns ++ (unionScope jobs).patterns⟩ := by
  induction jobs generalizing scope with
  | nil => simp [unionScope]
  | cons job jobs ih =>
    rw [List.foldl_cons, ih]
    simp [unionScope, DemandScope.add, Bool.or_assoc]

theorem foldl_addDemand (entries : List (String × JobTags)) (scopes : String → Option DemandScope) :
    entries.foldl addDemand scopes base =
      if (entries.filter fun entry => entry.1 = base) = [] then scopes base
      else some (((entries.filter fun entry => entry.1 = base).map Prod.snd).foldl DemandScope.add
        ((scopes base).getD {})) := by
  induction entries generalizing scopes with
  | nil => simp
  | cons entry entries ih =>
    rw [List.foldl_cons, ih]
    by_cases h : entry.1 = base
    · subst h
      by_cases hnil : (entries.filter fun e => e.1 = entry.1) = []
      · simp [addDemand, hnil]
      · simp [addDemand, hnil]
    · have hsame : addDemand scopes entry base = scopes base :=
        Function.update_of_ne (Ne.symm h) _ _
      rw [hsame, List.filter_cons_of_neg (by simpa using h)]

theorem demandScopes_eq :
    s.demandScopes base =
      if s.jobsAt base = [] then none else some (unionScope (s.jobsAt base)).sorted := by
  unfold LoggerService.demandScopes LoggerService.jobsAt
  rw [foldl_addDemand]
  by_cases hnil : ((s.demanding.filter fun entry => jobHasLiveTagSelection entry.2).filter
      fun entry => entry.1 = base) = []
  · rw [if_pos hnil, hnil]
    rfl
  · rw [if_neg hnil, foldl_add, if_neg (by simpa using hnil)]
    simp

@[simp] theorem mem_sortUnique {α : Type} [LinearOrder α] {l : List α} {a : α} :
    a ∈ sortUnique l ↔ a ∈ l := by
  simp [sortUnique]

@[simp] theorem length_sortUnique {α : Type} [LinearOrder α] (l : List α) :
    (sortUnique l).length = l.toFinset.card := by
  simp [sortUnique]

/-! ## Keys -/

theorem makeTagKey_toList (conn name : String) :
    (makeTagKey conn name).toList = conn.toList ++ tagKeySep :: name.toList := by
  simp [makeTagKey]

/-- The cut of a key at its first separator. -/
theorem cutAt_makeTagKey {conn name : String} (hname : name ≠ "") :
    ∃ a b, cutAt tagKeySep (makeTagKey conn name) = some (a, b) ∧ b ≠ "" := by
  by_cases hsep : tagKeySep ∈ conn.toList
  · obtain ⟨a, b, hcut⟩ := exists_splitFirst hsep
    obtain ⟨hno, heq⟩ := splitFirst_eq_some.1 hcut
    refine ⟨String.ofList a, String.ofList (b ++ tagKeySep :: name.toList), ?_, by simp⟩
    rw [cutAt_eq_some, makeTagKey_toList, heq]
    simp [hno]
  · exact ⟨conn, name, cutAt_eq_some.2 ⟨hsep, makeTagKey_toList conn name⟩, hname⟩

theorem wireKey_eq_some {key wire : String} :
    wireKey key = some wire ↔
      ∃ a b, cutAt tagKeySep key = some (a, b) ∧ OpcBridge.makeTagKey a b = wire := by
  unfold wireKey OpcBridge.makeTagKey
  rw [Option.map_eq_some_iff, Prod.exists]

/-- A key is accepted with a colon for its separator unless it begins with one of them. -/
theorem wireKey_valid {key : String} (h : key ∈ s.keysAt base) :
    ∃ wire, wireKey key = some wire ∧ (demandKeyValid wire = true ↔
      key.toList.head? ≠ some ':' ∧ key.toList.head? ≠ some tagKeySep) := by
  obtain ⟨job, -, hkey⟩ := List.mem_flatMap.1 h
  obtain ⟨conn, name, -, hname, rfl⟩ := job.keys_named key hkey
  obtain ⟨a, b, hcut, hb⟩ := @cutAt_makeTagKey conn name hname
  refine ⟨_, wireKey_eq_some.2 ⟨a, b, hcut, rfl⟩, ?_⟩
  obtain ⟨hno, heq⟩ := cutAt_eq_some.1 hcut
  rw [heq]
  by_cases ha : a = ""
  · subst ha
    have hinvalid : ¬ demandKeyValid (OpcBridge.makeTagKey "" b) = true := by
      rw [demandKeyValid_iff]
      rintro ⟨a, b', hcolon, ha, -⟩
      have hcut : cutAt ':' (OpcBridge.makeTagKey "" b) = some ("", b) :=
        cutAt_eq_some.2 ⟨by simp, OpcBridge.makeTagKey_toList "" b⟩
      rw [hcut, Option.some.injEq, Prod.mk.injEq] at hcolon
      exact ha hcolon.1.symm
    simp [hinvalid]
  · rw [demandKeyValid_makeTagKey ha hb]
    cases hlist : a.toList with
    | nil => exact absurd (by simpa using hlist) ha
    | cons c cs =>
      have hc : tagKeySep ≠ c := fun heq => hno (by simp [hlist, heq])
      simp [Ne.symm hc]

/-! ## Agreement -/

namespace LoggerService

variable (s : LoggerService) (base : String)

/-- The keys of the scope. -/
def wireKeysAt : List String := (s.keysAt base).filterMap wireKey

section
variable [Floats]

/-- The registered scope demands the tag. -/
def Demands (cid name : String) : Prop :=
  ∃ scope, s.demandScopes base = some scope ∧ MessageDemands scope.message cid name

/-- The scope of the base URL is accepted and demands what is logged from there, and no more if
connection ids have no colons. -/
structure Agrees : Prop where
  accepted : ∀ scope, s.demandScopes base = some scope →
    (({} : ConsumerDemand).apply scope.message).isSome = true
  demanded : ∀ cid name, s.Logs base cid name → s.Demands base cid name
  logged : (∀ key ∈ s.keysAt base, ∀ cut, cutAt tagKeySep key = some cut → ':' ∉ cut.1.toList) →
    ∀ cid name, ':' ∉ cid.toList → s.Demands base cid name → s.Logs base cid name

end

/-- The message is accepted, and a tag whose connection id has the separator is demanded in another
way. -/
structure Fits : Prop where
  begins : ∀ key ∈ s.keysAt base,
    key.toList.head? ≠ some ':' ∧ key.toList.head? ≠ some tagKeySep
  fewTags : (s.wireKeysAt base).toFinset.card ≤ 100000
  fewPatterns : (s.patternsAt base).toFinset.card ≤ 100000
  separators : ∀ cid name, makeTagKey cid name ∈ s.keysAt base → tagKeySep ∈ cid.toList →
    (s.jobsAt base).any JobTags.logAll = true ∨
      OpcBridge.makeTagKey cid name ∈ s.wireKeysAt base ∨
      ∃ pattern ∈ s.patternsAt base, pattern.1 = cid ∧ globMatch pattern.2 name = true

end LoggerService

section
variable [Floats]

omit [Floats] in
theorem patterns_named {pattern : String × String} (h : pattern ∈ s.patternsAt base) :
    pattern.1 ≠ "" ∧ pattern.2 ≠ "" := by
  obtain ⟨job, -, hp⟩ := List.mem_flatMap.1 h
  obtain ⟨g, hg, hp⟩ := List.mem_flatMap.1 hp
  obtain ⟨p, hmem, rfl⟩ := List.mem_map.1 hp
  obtain ⟨hcid, hnames⟩ := job.globs_named g hg
  exact ⟨hcid, hnames p hmem⟩

theorem registeredScope_message {scope : DemandScope}
    (hnamed : ∀ pattern ∈ scope.patterns, pattern.1 ≠ "" ∧ pattern.2 ≠ "") :
    registeredScope scope.message =
      if KeysAccepted scope.tags ∧ scope.patterns.length ≤ 100000 then
        some ⟨scope.allTags, scope.tags.toFinset, scope.patterns⟩
      else none :=
  registeredScope_eq rfl rfl (.inl rfl) hnamed

variable (s base) in
/-- The scope of the base URL as it is sent. -/
def scopeAt : DemandScope := (unionScope (s.jobsAt base)).sorted

omit [Floats] in
@[simp] theorem mem_scopeAt_tags {key : String} :
    key ∈ (scopeAt s base).tags ↔ key ∈ s.wireKeysAt base := mem_sortUnique

omit [Floats] in
@[simp] theorem mem_scopeAt_patterns {pattern : String × String} :
    pattern ∈ (scopeAt s base).patterns ↔ pattern ∈ s.patternsAt base := by
  unfold scopeAt DemandScope.sorted
  rw [List.mem_map]
  constructor
  · rintro ⟨q, hq, rfl⟩
    obtain ⟨p, hp, rfl⟩ := List.mem_map.1 (mem_sortUnique.1 hq)
    exact hp
  · intro hp
    exact ⟨toLex pattern, mem_sortUnique.2 (List.mem_map_of_mem hp), rfl⟩

omit [Floats] in
theorem scopeAt_patterns_length :
    (scopeAt s base).patterns.length = (s.patternsAt base).toFinset.card := by
  unfold scopeAt DemandScope.sorted
  rw [List.length_map, length_sortUnique]
  have himage : ((unionScope (s.jobsAt base)).patterns.map toLex).toFinset =
      (s.patternsAt base).toFinset.image toLex := by
    ext pattern
    simp [unionScope, LoggerService.patternsAt]
  rw [himage, Finset.card_image_of_injective _ toLex.injective]

omit [Floats] in
/-- When the message is accepted. -/
theorem scopeAt_accepted :
    (KeysAccepted (scopeAt s base).tags ∧ (scopeAt s base).patterns.length ≤ 100000) ↔
      (∀ key ∈ s.keysAt base, key.toList.head? ≠ some ':' ∧ key.toList.head? ≠ some tagKeySep) ∧
      (s.wireKeysAt base).toFinset.card ≤ 100000 ∧ (s.patternsAt base).toFinset.card ≤ 100000 := by
  have hlength : (scopeAt s base).tags.length = (s.wireKeysAt base).toFinset.card :=
    length_sortUnique _
  have hvalid : (∀ key ∈ (scopeAt s base).tags, demandKeyValid key = true) ↔
      ∀ key ∈ s.keysAt base,
        key.toList.head? ≠ some ':' ∧ key.toList.head? ≠ some tagKeySep := by
    constructor
    · intro h key hkey
      obtain ⟨wire, hwire, hiff⟩ := wireKey_valid hkey
      exact hiff.1 (h wire (mem_scopeAt_tags.2 (List.mem_filterMap.2 ⟨key, hkey, hwire⟩)))
    · intro h wire hmem
      obtain ⟨key, hkey, hwire⟩ := List.mem_filterMap.1 (mem_scopeAt_tags.1 hmem)
      obtain ⟨wire', hwire', hiff⟩ := wireKey_valid hkey
      rw [hwire, Option.some.injEq] at hwire'
      subst hwire'
      exact hiff.2 (h key hkey)
  rw [scopeAt_patterns_length, ← hvalid, ← hlength]
  constructor
  · intro ⟨hkeys, hpatterns⟩
    exact ⟨hkeys.valid, hkeys.few, hpatterns⟩
  · intro ⟨hkeys, hfew, hpatterns⟩
    exact ⟨⟨hfew, hkeys⟩, hpatterns⟩

/-- What is demanded: what the scope covers, if it is accepted. -/
theorem demands_iff (hjobs : s.jobsAt base ≠ []) :
    s.Demands base cid name ↔
      (KeysAccepted (scopeAt s base).tags ∧ (scopeAt s base).patterns.length ≤ 100000) ∧
      ((s.jobsAt base).any JobTags.logAll = true ∨
        OpcBridge.makeTagKey cid name ∈ s.wireKeysAt base ∨
        ∃ pattern ∈ s.patternsAt base, pattern.1 = cid ∧ globMatch pattern.2 name = true) := by
  have hscope : s.demandScopes base = some (scopeAt s base) := by
    rw [demandScopes_eq, if_neg hjobs]
    rfl
  unfold LoggerService.Demands
  rw [hscope]
  simp only [Option.some.injEq, exists_eq_left']
  rw [messageDemands_iff rfl (by decide) rfl,
    registeredScope_message fun pattern hp => patterns_named (mem_scopeAt_patterns.1 hp)]
  by_cases hacc : KeysAccepted (scopeAt s base).tags ∧ (scopeAt s base).patterns.length ≤ 100000
  · rw [if_pos hacc]
    simp only [Option.some.injEq, exists_eq_left', hacc, true_and, ConsumerScope.Covers,
      List.mem_toFinset, mem_scopeAt_tags, mem_scopeAt_patterns]
    rfl
  · rw [if_neg hacc]
    simp [hacc]

omit [Floats] in
/-- Without a colon in the connection ids a key names one tag. -/
theorem key_of_wire (hcolon : ∀ key ∈ s.keysAt base, ∀ cut, cutAt tagKeySep key = some cut →
    ':' ∉ cut.1.toList) (hcid : ':' ∉ cid.toList)
    (h : OpcBridge.makeTagKey cid name ∈ s.wireKeysAt base) : makeTagKey cid name ∈ s.keysAt base := by
  obtain ⟨key, hkey, hwire⟩ := List.mem_filterMap.1 h
  obtain ⟨a, b, hcut, heq⟩ := wireKey_eq_some.1 hwire
  have hlists := congrArg String.toList heq
  rw [OpcBridge.makeTagKey_toList, OpcBridge.makeTagKey_toList] at hlists
  obtain ⟨ha, hb⟩ := cut_inj (hcolon key hkey _ hcut) hcid hlists
  obtain ⟨-, htext⟩ := cutAt_eq_some.1 hcut
  rw [ha, hb, ← makeTagKey_toList] at htext
  rw [← String.toList_inj.1 htext]
  exact hkey

/-- Without a job there is no message. -/
theorem agrees_of_no_jobs (hjobs : s.jobsAt base = []) : s.Agrees base := by
  have hscope : s.demandScopes base = none := by rw [demandScopes_eq, if_pos hjobs]
  refine ⟨?_, fun cid name h => ?_, ?_⟩
  · intro scope h
    rw [hscope] at h
    cases h
  · simp [logs_iff, LoggerService.keysAt, LoggerService.patternsAt, hjobs] at h
  · rintro _ cid name _ ⟨scope, h, -⟩
    rw [hscope] at h
    cases h

omit [Floats] in
theorem demandScopes_of_jobs (hjobs : s.jobsAt base ≠ []) :
    s.demandScopes base = some (scopeAt s base) := by
  rw [demandScopes_eq, if_neg hjobs]
  rfl

theorem apply_scopeAt :
    (({} : ConsumerDemand).apply (scopeAt s base).message).isSome = true ↔
      KeysAccepted (scopeAt s base).tags ∧ (scopeAt s base).patterns.length ≤ 100000 := by
  rw [apply_register rfl (by decide) rfl,
    registeredScope_message fun pattern hp => patterns_named (mem_scopeAt_patterns.1 hp)]
  by_cases hacc : KeysAccepted (scopeAt s base).tags ∧ (scopeAt s base).patterns.length ≤ 100000
  · simp [hacc]
  · rw [if_neg hacc]
    simp [hacc]

theorem agrees_of_fits (h : s.Fits base) : s.Agrees base := by
  by_cases hjobs : s.jobsAt base = []
  · exact agrees_of_no_jobs hjobs
  have hacc := scopeAt_accepted.2 ⟨h.begins, h.fewTags, h.fewPatterns⟩
  refine ⟨fun scope hs => ?_, fun cid name hlogs => (demands_iff hjobs).2 ⟨hacc, ?_⟩, ?_⟩
  · rw [demandScopes_of_jobs hjobs, Option.some.injEq] at hs
    rw [← hs]
    exact apply_scopeAt.2 hacc
  · obtain hall | hkey | hglob := logs_iff.1 hlogs
    · exact .inl hall
    · by_cases hsep : tagKeySep ∈ cid.toList
      · exact h.separators cid name hkey hsep
      · have hcut := cutAt_eq_some.2 ⟨hsep, makeTagKey_toList cid name⟩
        exact .inr (.inl (List.mem_filterMap.2
          ⟨_, hkey, wireKey_eq_some.2 ⟨cid, name, hcut, rfl⟩⟩))
    · exact .inr (.inr hglob)
  · intro hcolon cid name hcid hdemands
    obtain hall | hwire | hglob := ((demands_iff hjobs).1 hdemands).2
    · exact logs_iff.2 (.inl hall)
    · exact logs_iff.2 (.inr (.inl (key_of_wire hcolon hcid hwire)))
    · exact logs_iff.2 (.inr (.inr hglob))

theorem fits_of_agrees (h : s.Agrees base) : s.Fits base := by
  by_cases hjobs : s.jobsAt base = []
  · have hkeys : s.keysAt base = [] := by simp [LoggerService.keysAt, hjobs]
    have hpatterns : s.patternsAt base = [] := by simp [LoggerService.patternsAt, hjobs]
    constructor
    · simp [hkeys]
    · simp [LoggerService.wireKeysAt, hkeys]
    · simp [hpatterns]
    · simp [hkeys]
  have hacc := apply_scopeAt.1 (h.accepted _ (demandScopes_of_jobs hjobs))
  obtain ⟨hbegins, htags, hpatterns⟩ := scopeAt_accepted.1 hacc
  refine ⟨hbegins, htags, hpatterns, fun cid name hkey _ => ?_⟩
  exact ((demands_iff hjobs).1 (h.demanded cid name (logs_iff.2 (.inr (.inl hkey))))).2

/-- **What is logged is demanded, and nothing else**, exactly if the message is accepted and no
connection id with a separator stands alone. -/
theorem agrees_iff : s.Agrees base ↔ s.Fits base := ⟨fits_of_agrees, agrees_of_fits⟩

end

end OpcBridge.Logger
