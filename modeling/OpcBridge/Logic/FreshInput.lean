import OpcBridge.Demand.Observations
import OpcBridge.Logic.Freshness

/-!
# What a fresh input rests on

`check_fresh_input` walks from a tag over its sources to the physical one before it looks at the
sample. `SourceChain` is that way and `AcceptedChain` says which ways are good; the walk accepts
these and no others (`freshSources_iff`), and its loop ends on every input (`walk_ends`). An answer
"fresh" rests on an accepted chain and a good sample of the current epoch, and read demand is
registered for accepted chains only (`fresh_input_ok`).
-/

namespace OpcBridge

open Lib

section
variable [Floats]

/-! ## Demand -/

/-- `g_tagDemand` after `checkFreshInput`: every tag of the walk is read. -/
def freshInputDemand (drivers : List DriverContext) (index : TagRuntimeIndex) (cid name : String)
    (nativeMemory : Bool) (now : Nat) (registry : DemandRegistry) : DemandRegistry :=
  match index (makeTagKey cid name) with
  | none => registry
  | some (d, t) =>
    match drivers[d]? with
    | none => registry
    | some driver =>
      match driver.tags[t]? with
      | none => registry
      | some tag =>
        if !tag.cfg.enabled then registry
        else
          let authoritativeMemory := nativeMemory && isMemoryTag tag.cfg
          match if authoritativeMemory then .ok []
              else freshSources driver index d cid 65 tag [] false with
          | .error _ => registry
          | .ok dependencies => dependencies.foldl
              (fun registry dep => registry.httpRead (uaTagNodeidString cid dep) now) registry

/-! ## The loop -/

/-- The variables of the loop. -/
structure FreshWalk [Floats] where
  source : TagRuntime
  visited : List String := []
  throughElement : Bool := false

section
variable (driver : DriverContext) (index : TagRuntimeIndex) (d : Nat) (cid : String)

/-- One iteration: it leaves the loop or goes on. -/
def FreshWalk.next (w : FreshWalk) : Except String (List String) ⊕ FreshWalk :=
  if !w.source.cfg.enabled then .inl (.error "source_unavailable")
  else if w.source.name ∈ w.visited then .inl (.error "source_cycle")
  else if 64 < w.visited.length + 1 then .inl (.error "dependency_too_deep")
  else if driver.conn.driver ≠ "ab_eip" ∨ isMemoryConnectionId driver.conn.id ∨
      isMemoryTag w.source.cfg then .inl (.error "unsupported_source")
  else match w.source.parent with
    | none =>
      if 1 < w.source.cfg.elemCount ∧ !w.throughElement then .inl (.error "unsupported_source")
      else .inl (.ok (w.visited ++ [w.source.name]))
    | some parentName =>
      match index (makeTagKey cid parentName) with
      | none => .inl (.error "source_unavailable")
      | some (d', t') =>
        if d' ≠ d then .inl (.error "source_unavailable")
        else match driver.tags[t']? with
          | none => .inl (.error "source_unavailable")
          | some parent => .inr {
              source := parent
              visited := w.visited ++ [w.source.name]
              throughElement := w.throughElement || w.source.pollSource != "" }

/-- The loop is left after so many iterations. -/
inductive WalkEnds : FreshWalk → Nat → Except String (List String) → Prop
  | leave {w : FreshWalk} {r : Except String (List String)}
      (h : w.next driver index d cid = .inl r) : WalkEnds w 1 r
  | goOn {w w' : FreshWalk} {n : Nat} {r : Except String (List String)}
      (h : w.next driver index d cid = .inr w') (hrest : WalkEnds w' n r) : WalkEnds w (n + 1) r

end

section
variable {driver : DriverContext} {index : TagRuntimeIndex} {d : Nat} {cid : String}

theorem freshSources_succ (n : Nat) (w : FreshWalk) :
    freshSources driver index d cid (n + 1) w.source w.visited w.throughElement =
      match w.next driver index d cid with
      | .inl r => r
      | .inr w' => freshSources driver index d cid n w'.source w'.visited w'.throughElement := by
  rw [freshSources]
  unfold FreshWalk.next
  split
  · rfl
  split
  · rfl
  split
  · rfl
  split
  · rfl
  cases w.source.parent with
  | none =>
    dsimp only
    split <;> rfl
  | some parentName =>
    dsimp only
    cases index (makeTagKey cid parentName) with
    | none => rfl
    | some place =>
      dsimp only
      split
      · rfl
      cases driver.tags[place.2]? <;> rfl

/-- A walk that goes on is at a tag it has not visited. -/
theorem visited_next {w w' : FreshWalk} (h : w.next driver index d cid = .inr w') :
    w'.visited.length = w.visited.length + 1 ∧ w.visited.length + 1 ≤ 64 := by
  unfold FreshWalk.next at h
  split at h
  · cases h
  split at h
  · cases h
  split at h
  · cases h
  rename_i hdeep
  split at h
  · cases h
  cases hparent : w.source.parent with
  | none =>
    rw [hparent] at h
    dsimp only at h
    split at h <;> cases h
  | some parentName =>
    rw [hparent] at h
    dsimp only at h
    cases hindex : index (makeTagKey cid parentName) with
    | none =>
      rw [hindex] at h
      cases h
    | some place =>
      rw [hindex] at h
      dsimp only at h
      split at h
      · cases h
      cases htag : driver.tags[place.2]? with
      | none =>
        rw [htag] at h
        cases h
      | some parent =>
        rw [htag] at h
        cases h
        exact ⟨by simp, by omega⟩

/-- The loop ends, with what the walk of the model gives. -/
theorem walk_ends {n : Nat} {w : FreshWalk} (hn : w.visited.length + (n + 1) = 65) :
    ∃ k ≤ n + 1, WalkEnds driver index d cid w k
      (freshSources driver index d cid (n + 1) w.source w.visited w.throughElement) := by
  induction n generalizing w with
  | zero =>
    cases hnext : w.next driver index d cid with
    | inl r =>
      refine ⟨1, le_rfl, ?_⟩
      rw [freshSources_succ, hnext]
      exact .leave hnext
    | inr w' =>
      have hvisited := (visited_next hnext).2
      omega
  | succ n ih =>
    cases hnext : w.next driver index d cid with
    | inl r =>
      refine ⟨1, by omega, ?_⟩
      rw [freshSources_succ, hnext]
      exact .leave hnext
    | inr w' =>
      have hvisited := (visited_next hnext).1
      obtain ⟨k, hk, hends⟩ := @ih w' (by omega)
      refine ⟨k + 1, by omega, ?_⟩
      rw [freshSources_succ, hnext]
      exact .goOn hnext hends

end

/-! ## Chains -/

section
variable (driver : DriverContext) (index : TagRuntimeIndex) (d : Nat) (cid : String)

/-- The way from a tag over its sources to one that has none, every source a tag of the driver. -/
inductive SourceChain : TagRuntime → List TagRuntime → Prop
  | root {source : TagRuntime} (h : source.parent = none) : SourceChain source [source]
  | link {source parent : TagRuntime} {parentName : String} {t : Nat} {rest : List TagRuntime}
      (h : source.parent = some parentName)
      (hindex : index (makeTagKey cid parentName) = some (d, t))
      (htag : driver.tags[t]? = some parent) (hrest : SourceChain parent rest) :
      SourceChain source (source :: rest)

end

/-- A way that the walk may take after the visited tags. -/
structure AcceptedFrom (driver : DriverContext) (visited : List String) (throughElement : Bool)
    (chain : List TagRuntime) : Prop where
  enabled : ∀ source ∈ chain, source.cfg.enabled = true
  fresh : ∀ source ∈ chain, source.name ∉ visited
  acyclic : (chain.map TagRuntime.name).Nodup
  bounded : visited.length + chain.length ≤ 64
  driver : driver.conn.driver = "ab_eip" ∧ isMemoryConnectionId driver.conn.id = false
  physical : ∀ source ∈ chain, isMemoryTag source.cfg = false
  root : ∀ root, chain.getLast? = some root → root.cfg.elemCount ≤ 1 ∨ throughElement = true ∨
    ∃ source ∈ chain, source.pollSource ≠ ""

/-- Enabled tags without a circle, at most 64, in one `ab_eip` driver that is not the memory; the
root is a scalar or is reached through a generated array element. -/
structure AcceptedChain (driver : DriverContext) (chain : List TagRuntime) : Prop where
  enabled : ∀ source ∈ chain, source.cfg.enabled = true
  acyclic : (chain.map TagRuntime.name).Nodup
  bounded : chain.length ≤ 64
  driver : driver.conn.driver = "ab_eip" ∧ isMemoryConnectionId driver.conn.id = false
  physical : ∀ source ∈ chain, isMemoryTag source.cfg = false
  root : ∀ root, chain.getLast? = some root → root.cfg.elemCount ≤ 1 ∨
    ∃ source ∈ chain, source.pollSource ≠ ""

theorem acceptedFrom_nil {driver : DriverContext} {chain : List TagRuntime} :
    AcceptedFrom driver [] false chain ↔ AcceptedChain driver chain := by
  constructor
  · intro h
    refine ⟨h.enabled, h.acyclic, ?_, h.driver, h.physical, fun root hroot => ?_⟩
    · have hbounded := h.bounded
      simpa using hbounded
    · simpa using h.root root hroot
  · intro h
    refine ⟨h.enabled, fun _ _ => by simp, h.acyclic, ?_, h.driver, h.physical,
      fun root hroot => ?_⟩
    · have hbounded := h.bounded
      simpa using hbounded
    · simpa using h.root root hroot

section
variable {driver : DriverContext} {index : TagRuntimeIndex} {d : Nat} {cid : String}

theorem SourceChain.eq_cons {source : TagRuntime} {chain : List TagRuntime}
    (h : SourceChain driver index d cid source chain) : ∃ rest, chain = source :: rest := by
  cases h with
  | root => exact ⟨[], rfl⟩
  | link => exact ⟨_, rfl⟩

/-- A tag with a source goes on with it. -/
theorem acceptedFrom_cons {visited : List String} {through : Bool} {source : TagRuntime}
    {rest : List TagRuntime} (hrest : rest ≠ []) :
    AcceptedFrom driver visited through (source :: rest) ↔
      source.cfg.enabled = true ∧ source.name ∉ visited ∧ isMemoryTag source.cfg = false ∧
        AcceptedFrom driver (visited ++ [source.name]) (through || source.pollSource != "")
          rest := by
  have hlast : (source :: rest).getLast? = rest.getLast? := by
    rw [List.getLast?_cons_of_ne_nil hrest]
  constructor
  · intro h
    obtain ⟨hnew, hacyclic⟩ := List.nodup_cons.1 h.acyclic
    refine ⟨h.enabled source List.mem_cons_self, h.fresh source List.mem_cons_self,
      h.physical source List.mem_cons_self, ⟨fun s hs => h.enabled s (List.mem_cons_of_mem _ hs),
        fun s hs hvisited => ?_, hacyclic, ?_, h.driver,
        fun s hs => h.physical s (List.mem_cons_of_mem _ hs), fun root hroot => ?_⟩⟩
    · rcases List.mem_append.1 hvisited with hold | hsource
      · exact h.fresh s (List.mem_cons_of_mem _ hs) hold
      · rw [List.mem_singleton.1 hsource |>.symm] at hnew
        exact hnew (List.mem_map_of_mem hs)
    · have hbounded := h.bounded
      rw [List.length_append, List.length_singleton]
      rw [List.length_cons] at hbounded
      omega
    · rcases h.root root (hlast.trans hroot) with hscalar | hthrough | ⟨s, hs, hpoll⟩
      · exact .inl hscalar
      · exact .inr (.inl (by rw [hthrough, Bool.true_or]))
      · rcases List.mem_cons.1 hs with rfl | hs
        · exact .inr (.inl (by simp [hpoll]))
        · exact .inr (.inr ⟨s, hs, hpoll⟩)
  · rintro ⟨henabled, hnew, hphysical, h⟩
    have hothers : ∀ s ∈ rest, s.name ∉ visited ∧ s.name ≠ source.name := by
      intro s hs
      have hfresh := h.fresh s hs
      rw [List.mem_append, List.mem_singleton, not_or] at hfresh
      exact hfresh
    refine ⟨fun s hs => ?_, fun s hs => ?_, ?_, ?_, h.driver, fun s hs => ?_,
      fun root hroot => ?_⟩
    · rcases List.mem_cons.1 hs with rfl | hs
      · exact henabled
      · exact h.enabled s hs
    · rcases List.mem_cons.1 hs with rfl | hs
      · exact hnew
      · exact (hothers s hs).1
    · refine List.nodup_cons.2 ⟨fun hmem => ?_, h.acyclic⟩
      obtain ⟨s, hs, hname⟩ := List.mem_map.1 hmem
      exact (hothers s hs).2 hname
    · have hbounded := h.bounded
      rw [List.length_append, List.length_singleton] at hbounded
      rw [List.length_cons]
      omega
    · rcases List.mem_cons.1 hs with rfl | hs
      · exact hphysical
      · exact h.physical s hs
    · rcases h.root root (hlast.symm.trans hroot) with hscalar | hthrough | ⟨s, hs, hpoll⟩
      · exact .inl hscalar
      · rw [Bool.or_eq_true, bne_iff_ne] at hthrough
        rcases hthrough with hthrough | hpoll
        · exact .inr (.inl hthrough)
        · exact .inr (.inr ⟨source, List.mem_cons_self, hpoll⟩)
      · exact .inr (.inr ⟨s, List.mem_cons_of_mem _ hs, hpoll⟩)

/-- A tag without a source ends the way. -/
theorem acceptedFrom_singleton {visited : List String} {through : Bool} {source : TagRuntime}
    (hparent : source.parent = none) : AcceptedFrom driver visited through [source] ↔
      source.cfg.enabled = true ∧ source.name ∉ visited ∧ visited.length + 1 ≤ 64 ∧
        (driver.conn.driver = "ab_eip" ∧ isMemoryConnectionId driver.conn.id = false) ∧
        isMemoryTag source.cfg = false ∧ (source.cfg.elemCount ≤ 1 ∨ through = true) := by
  have hpoll : source.pollSource = "" := by
    by_contra hpoll
    unfold TagRuntime.parent at hparent
    rw [if_pos hpoll] at hparent
    cases hparent
  constructor
  · intro h
    refine ⟨h.enabled source (by simp), h.fresh source (by simp), h.bounded, h.driver,
      h.physical source (by simp), ?_⟩
    rcases h.root source rfl with hscalar | hthrough | ⟨s, hs, hs'⟩
    · exact .inl hscalar
    · exact .inr hthrough
    · rw [List.mem_singleton.1 hs] at hs'
      exact absurd hpoll hs'
  · rintro ⟨henabled, hnew, hbounded, hdriver, hphysical, hroot⟩
    refine ⟨by simpa using henabled, by simpa using hnew, by simp, hbounded, hdriver,
      by simpa using hphysical, fun root hlast => ?_⟩
    obtain rfl := Option.some.inj hlast
    exact hroot.imp_right .inl

/-- What the walk accepts. -/
theorem freshSources_iff {n : Nat} {source : TagRuntime} {visited : List String} {through : Bool}
    {names : List String} (hn : 65 ≤ visited.length + n) :
    freshSources driver index d cid n source visited through = .ok names ↔
      ∃ chain, SourceChain driver index d cid source chain ∧
        AcceptedFrom driver visited through chain ∧
        names = visited ++ chain.map TagRuntime.name := by
  induction n generalizing source visited through with
  | zero =>
    refine iff_of_false (by simp [freshSources]) ?_
    rintro ⟨chain, -, haccepted, -⟩
    have hbounded := haccepted.bounded
    omega
  | succ n ih =>
    rw [freshSources]
    by_cases henabled : source.cfg.enabled = true
    swap
    · rw [if_pos (by simpa using henabled)]
      refine iff_of_false (by simp) ?_
      rintro ⟨chain, hchain, haccepted, -⟩
      obtain ⟨rest, rfl⟩ := hchain.eq_cons
      exact henabled (haccepted.enabled source List.mem_cons_self)
    rw [if_neg (by simpa using henabled)]
    by_cases hvisited : source.name ∈ visited
    · rw [if_pos hvisited]
      refine iff_of_false (by simp) ?_
      rintro ⟨chain, hchain, haccepted, -⟩
      obtain ⟨rest, rfl⟩ := hchain.eq_cons
      exact haccepted.fresh source List.mem_cons_self hvisited
    rw [if_neg hvisited]
    by_cases hdeep : 64 < visited.length + 1
    · rw [if_pos hdeep]
      refine iff_of_false (by simp) ?_
      rintro ⟨chain, hchain, haccepted, -⟩
      obtain ⟨rest, rfl⟩ := hchain.eq_cons
      have hbounded := haccepted.bounded
      rw [List.length_cons] at hbounded
      omega
    rw [if_neg hdeep]
    by_cases hkind : driver.conn.driver ≠ "ab_eip" ∨ isMemoryConnectionId driver.conn.id = true ∨
        isMemoryTag source.cfg = true
    · rw [if_pos hkind]
      refine iff_of_false (by simp) ?_
      rintro ⟨chain, hchain, haccepted, -⟩
      obtain ⟨rest, rfl⟩ := hchain.eq_cons
      rcases hkind with hother | hmemory | hmemory
      · exact hother haccepted.driver.1
      · rw [haccepted.driver.2] at hmemory
        cases hmemory
      · rw [haccepted.physical source List.mem_cons_self] at hmemory
        cases hmemory
    rw [if_neg hkind]
    push Not at hkind
    obtain ⟨hdriver, hconnection, hsource⟩ := hkind
    have hconn : isMemoryConnectionId driver.conn.id = false := Bool.eq_false_iff.2 hconnection
    have hphysical : isMemoryTag source.cfg = false := Bool.eq_false_iff.2 hsource
    cases hparent : source.parent with
    | none =>
      have hchains : (∃ chain, SourceChain driver index d cid source chain ∧
          AcceptedFrom driver visited through chain ∧
          names = visited ++ chain.map TagRuntime.name) ↔
          AcceptedFrom driver visited through [source] ∧ names = visited ++ [source.name] := by
        constructor
        · rintro ⟨chain, hchain, haccepted, rfl⟩
          cases hchain with
          | root => exact ⟨haccepted, rfl⟩
          | link hlink =>
            rw [hparent] at hlink
            cases hlink
        · rintro ⟨haccepted, rfl⟩
          exact ⟨[source], .root hparent, haccepted, rfl⟩
      rw [hchains, acceptedFrom_singleton hparent]
      dsimp only
      by_cases hroot : 1 < source.cfg.elemCount ∧ (!through) = true
      · rw [if_pos hroot]
        refine iff_of_false (by simp) ?_
        rintro ⟨⟨-, -, -, -, -, hscalar | hthrough⟩, -⟩
        · omega
        · rw [hthrough] at hroot
          exact absurd hroot.2 (by decide)
      · rw [if_neg hroot]
        have hscalar : source.cfg.elemCount ≤ 1 ∨ through = true := by
          by_cases hthrough : through = true
          · exact .inr hthrough
          · refine .inl (not_lt.1 fun hlt => hroot ⟨hlt, by simpa using hthrough⟩)
        simp only [Except.ok.injEq, henabled, hvisited, hdriver, hconn, hphysical, hscalar,
          not_false_eq_true, true_and, and_true]
        constructor
        · rintro rfl
          exact ⟨by omega, rfl⟩
        · rintro ⟨-, rfl⟩
          rfl
    | some parentName =>
      dsimp only
      -- the only way goes on with what the index has for the name
      have hlinks : ∀ chain, SourceChain driver index d cid source chain → ∃ t parent rest,
          index (makeTagKey cid parentName) = some (d, t) ∧ driver.tags[t]? = some parent ∧
            SourceChain driver index d cid parent rest ∧ chain = source :: rest := by
        intro chain hchain
        cases hchain with
        | root hroot =>
          rw [hparent] at hroot
          cases hroot
        | link hlink hindex htag hrest =>
          obtain rfl : _ = _ := Option.some.inj (hparent.symm.trans hlink)
          exact ⟨_, _, _, hindex, htag, hrest, rfl⟩
      cases hindex : index (makeTagKey cid parentName) with
      | none =>
        refine iff_of_false (by simp) ?_
        rintro ⟨chain, hchain, -, -⟩
        obtain ⟨t, parent, rest, hfound, -⟩ := hlinks chain hchain
        rw [hindex] at hfound
        cases hfound
      | some place =>
        obtain ⟨d', t'⟩ := place
        dsimp only
        by_cases hother : d' ≠ d
        · rw [if_pos hother]
          refine iff_of_false (by simp) ?_
          rintro ⟨chain, hchain, -, -⟩
          obtain ⟨t, parent, rest, hfound, -⟩ := hlinks chain hchain
          rw [hindex] at hfound
          exact hother (congrArg Prod.fst (Option.some.inj hfound))
        rw [if_neg hother]
        push Not at hother
        subst hother
        cases htag : driver.tags[t']? with
        | none =>
          refine iff_of_false (by simp) ?_
          rintro ⟨chain, hchain, -, -⟩
          obtain ⟨t, parent, rest, hfound, hparent', -⟩ := hlinks chain hchain
          rw [hindex] at hfound
          obtain rfl := congrArg Prod.snd (Option.some.inj hfound)
          rw [htag] at hparent'
          cases hparent'
        | some parent =>
          dsimp only
          rw [ih (by rw [List.length_append, List.length_singleton]; omega)]
          constructor
          · rintro ⟨rest, hrest, haccepted, rfl⟩
            obtain ⟨rest', rfl⟩ := hrest.eq_cons
            refine ⟨source :: parent :: rest', .link hparent hindex htag hrest, ?_, by simp⟩
            exact (acceptedFrom_cons (by simp)).2 ⟨henabled, hvisited, hphysical, haccepted⟩
          · rintro ⟨chain, hchain, haccepted, rfl⟩
            obtain ⟨t, parent', rest, hfound, hparent', hrest, rfl⟩ := hlinks chain hchain
            rw [hindex] at hfound
            obtain rfl := congrArg Prod.snd (Option.some.inj hfound)
            obtain rfl : parent = parent' := Option.some.inj (htag.symm.trans hparent')
            obtain ⟨rest', rfl⟩ := hrest.eq_cons
            exact ⟨parent :: rest', hrest, ((acceptedFrom_cons (by simp)).1 haccepted).2.2.2,
              by simp⟩

end

/-! ## The answer -/

/-- The tag that the index has for an input. -/
structure InputTag (drivers : List DriverContext) (index : TagRuntimeIndex) (cid name : String)
    (d : Nat) (driver : DriverContext) (tag : TagRuntime) : Prop where
  driverAt : drivers[d]? = some driver
  tagAt : ∃ t, index (makeTagKey cid name) = some (d, t) ∧ driver.tags[t]? = some tag

section
variable {drivers : List DriverContext} {table : TagTable} {index : TagRuntimeIndex}
  {cid name : String} {requested : Nat} {maxAge : F64} {nativeMemory : Bool} {now : Nat}

/-- An input without a tag is not found. -/
theorem checkFreshInput_of_not_inputTag
    (h : ∀ d driver tag, ¬ InputTag drivers index cid name d driver tag) :
    (checkFreshInput drivers table index cid name requested maxAge nativeMemory now).reason
        = "not_found" := by
  unfold checkFreshInput
  cases hindex : index (makeTagKey cid name) with
  | none => rfl
  | some place =>
    dsimp only
    cases hdriver : drivers[place.1]? with
    | none => rfl
    | some driver =>
      dsimp only
      cases htag : driver.tags[place.2]? with
      | none => rfl
      | some tag => exact absurd ⟨hdriver, _, hindex, htag⟩ (h place.1 driver tag)

/-- It is no demand either. -/
theorem freshInputDemand_of_not_inputTag
    (h : ∀ d driver tag, ¬ InputTag drivers index cid name d driver tag)
    (registry : DemandRegistry) :
    freshInputDemand drivers index cid name nativeMemory now registry = registry := by
  unfold freshInputDemand
  cases hindex : index (makeTagKey cid name) with
  | none => rfl
  | some place =>
    dsimp only
    cases hdriver : drivers[place.1]? with
    | none => rfl
    | some driver =>
      dsimp only
      cases htag : driver.tags[place.2]? with
      | none => rfl
      | some tag => exact absurd ⟨hdriver, _, hindex, htag⟩ (h place.1 driver tag)

/-- The walk starts at an enabled tag that is not a memory tag with its own value. -/
def Walks (nativeMemory : Bool) (tag : TagRuntime) : Prop :=
  tag.cfg.enabled = true ∧ (nativeMemory && isMemoryTag tag.cfg) = false

variable {d : Nat} {driver : DriverContext} {tag : TagRuntime}

theorem checkFreshInput_iff (h : InputTag drivers index cid name d driver tag) :
    (checkFreshInput drivers table index cid name requested maxAge nativeMemory now).reason
        = "fresh" ↔
      tag.cfg.enabled = true ∧ ∃ cached, table (makeTagKey cid name) = some cached ∧
        cached.quality = 1 ∧ ((nativeMemory && isMemoryTag tag.cfg) = true ∨
          (∃ names, freshSources driver index d cid 65 tag [] false = .ok names) ∧
            cached.pollRead.satisfiesAge requested maxAge true now driver.freshnessEpoch
              = true) := by
  obtain ⟨t, hindex, htag⟩ := h.tagAt
  unfold checkFreshInput
  rw [hindex]
  dsimp only
  rw [h.driverAt]
  dsimp only
  rw [htag]
  dsimp only
  by_cases henabled : tag.cfg.enabled = true
  swap
  · rw [if_pos (by simpa using henabled)]
    refine iff_of_false (by simp) fun hfresh => henabled hfresh.1
  rw [if_neg (by simpa using henabled)]
  cases hmemory : nativeMemory && isMemoryTag tag.cfg with
  | true =>
    rw [if_pos rfl]
    dsimp only
    cases htable : table (makeTagKey cid name) with
    | none => simp
    | some cached =>
      dsimp only
      by_cases hquality : cached.quality = 1 <;> simp [hquality, henabled]
  | false =>
    rw [if_neg (by decide)]
    cases hsources : freshSources driver index d cid 65 tag [] false with
    | error reason =>
      refine iff_of_false (freshSources_error hsources) ?_
      rintro ⟨-, cached, -, -, hmem | ⟨⟨names, hnames⟩, -⟩⟩
      · cases hmem
      · cases hnames
    | ok names =>
      dsimp only
      cases htable : table (makeTagKey cid name) with
      | none => simp
      | some cached =>
        dsimp only
        by_cases hquality : cached.quality = 1 <;>
          by_cases hage : cached.pollRead.satisfiesAge requested maxAge true now
            driver.freshnessEpoch = true <;> simp [hquality, hage, henabled]

theorem freshInputDemand_of_inputTag (h : InputTag drivers index cid name d driver tag)
    (registry : DemandRegistry) :
    (∀ names, Walks nativeMemory tag → freshSources driver index d cid 65 tag [] false = .ok names →
      freshInputDemand drivers index cid name nativeMemory now registry = names.foldl
        (fun registry dep => registry.httpRead (uaTagNodeidString cid dep) now) registry) ∧
      ((∀ names, Walks nativeMemory tag →
          freshSources driver index d cid 65 tag [] false ≠ .ok names) →
        freshInputDemand drivers index cid name nativeMemory now registry = registry) := by
  obtain ⟨t, hindex, htag⟩ := h.tagAt
  unfold freshInputDemand
  rw [hindex]
  dsimp only
  rw [h.driverAt]
  dsimp only
  rw [htag]
  dsimp only
  unfold Walks
  by_cases henabled : tag.cfg.enabled = true
  swap
  · rw [if_pos (by simpa using henabled)]
    exact ⟨fun _ hwalks => absurd hwalks.1 henabled, fun _ => rfl⟩
  rw [if_neg (by simpa using henabled)]
  cases hmemory : nativeMemory && isMemoryTag tag.cfg with
  | true =>
    refine ⟨fun _ hwalks => ?_, fun _ => rfl⟩
    cases hwalks.2
  | false =>
    rw [if_neg (by decide)]
    cases hsources : freshSources driver index d cid 65 tag [] false with
    | error reason =>
      refine ⟨fun _ _ hnames => ?_, fun _ => rfl⟩
      cases hnames
    | ok names =>
      refine ⟨fun names' _ hnames => ?_, fun hnone => absurd rfl (hnone names ⟨henabled, rfl⟩)⟩
      cases hnames
      rfl

/-- The reads of the nodes of the names, and nothing else. -/
theorem entries_foldl_httpRead {names : List String} {registry : DemandRegistry} (node : String) :
    (names.foldl (fun registry dep => registry.httpRead (uaTagNodeidString cid dep) now)
        registry).entries node =
      if node ∈ names.map (uaTagNodeidString cid) then
        some { (registry.entries node).getD {} with httpUntil := now + 30000000000 }
      else registry.entries node := by
  induction names generalizing registry with
  | nil => rfl
  | cons first names ih =>
    rw [List.foldl_cons, ih]
    unfold DemandRegistry.httpRead DemandRegistry.update
    dsimp only
    by_cases hnode : node = uaTagNodeidString cid first
    · subst hnode
      rw [Function.update_self]
      by_cases hmem : uaTagNodeidString cid first ∈ names.map (uaTagNodeidString cid)
      · rw [if_pos hmem, List.map_cons, if_pos (List.mem_cons_of_mem _ hmem)]
        rfl
      · rw [if_neg hmem, List.map_cons, if_pos List.mem_cons_self]
    · rw [Function.update_of_ne hnode, List.map_cons]
      simp only [List.mem_cons, hnode, false_or]

end

/-- **A fresh input**: the walk ends after at most 65 tags. The answer is "fresh" only for an
enabled tag with a good sample that is an authoritative memory tag or starts an accepted chain, in which
case the sample is of the current epoch of the driver and satisfies the times. The tags of an
accepted chain are read, and nothing is where there is none. -/
theorem fresh_input_ok (drivers : List DriverContext) (table : TagTable) (index : TagRuntimeIndex)
    (cid name : String) (requested : Nat) (maxAge : F64) (nativeMemory : Bool) (now : Nat)
    (registry : DemandRegistry) :
    (∀ driver d source, ∃ k ≤ 65, WalkEnds driver index d cid { source := source } k
      (freshSources driver index d cid 65 source [] false)) ∧
    ((checkFreshInput drivers table index cid name requested maxAge nativeMemory now).reason
        = "fresh" ↔
      ∃ d driver tag cached, InputTag drivers index cid name d driver tag ∧
        tag.cfg.enabled = true ∧ table (makeTagKey cid name) = some cached ∧ cached.quality = 1 ∧
        ((nativeMemory = true ∧ isMemoryTag tag.cfg = true) ∨
          (∃ chain, SourceChain driver index d cid tag chain ∧ AcceptedChain driver chain) ∧
            cached.pollRead.sourceEpoch = driver.freshnessEpoch ∧
            cached.pollRead.satisfiesAge requested maxAge true now driver.freshnessEpoch
              = true)) ∧
    (∀ d driver tag chain, InputTag drivers index cid name d driver tag →
      Walks nativeMemory tag → SourceChain driver index d cid tag chain →
      AcceptedChain driver chain → ∀ node,
        (freshInputDemand drivers index cid name nativeMemory now registry).entries node =
          if node ∈ chain.map (fun source => uaTagNodeidString cid source.name) then
            some { (registry.entries node).getD {} with httpUntil := now + 30000000000 }
          else registry.entries node) ∧
    ((∀ d driver tag chain, InputTag drivers index cid name d driver tag →
        Walks nativeMemory tag → SourceChain driver index d cid tag chain →
        ¬ AcceptedChain driver chain) →
      freshInputDemand drivers index cid name nativeMemory now registry = registry) := by
  have haccepted : ∀ driver d tag names,
      freshSources driver index d cid 65 tag [] false = .ok names ↔ ∃ chain, SourceChain driver index d cid tag chain ∧ AcceptedChain driver chain ∧
        names = chain.map TagRuntime.name := by
    intro driver d tag names
    rw [freshSources_iff (by simp)]
    simp only [acceptedFrom_nil, List.nil_append]
  refine ⟨fun driver d source => ?_, ?_, ?_, ?_⟩
  · exact walk_ends (w := { source := source }) (by simp)
  · constructor
    · intro hfresh
      by_cases hinput : ∃ d driver tag, InputTag drivers index cid name d driver tag
      swap
      · push Not at hinput
        rw [checkFreshInput_of_not_inputTag hinput] at hfresh
        exact absurd hfresh (by decide)
      obtain ⟨d, driver, tag, hinput⟩ := hinput
      obtain ⟨henabled, cached, htable, hquality, hrest⟩ := (checkFreshInput_iff hinput).1 hfresh
      refine ⟨d, driver, tag, cached, hinput, henabled, htable, hquality, ?_⟩
      rcases hrest with hmemory | ⟨⟨names, hnames⟩, hage⟩
      · exact .inl (Bool.and_eq_true_iff.1 hmemory)
      · obtain ⟨chain, hchain, haccept, -⟩ := (haccepted driver d tag names).1 hnames
        exact .inr ⟨⟨chain, hchain, haccept⟩, (PollReadStamp.of_satisfiesAge hage).2.1, hage⟩
    · rintro ⟨d, driver, tag, cached, hinput, henabled, htable, hquality, hrest⟩
      refine (checkFreshInput_iff hinput).2 ⟨henabled, cached, htable, hquality, ?_⟩
      rcases hrest with hmemory | ⟨⟨chain, hchain, haccept⟩, -, hage⟩
      · exact .inl (Bool.and_eq_true_iff.2 hmemory)
      · exact .inr ⟨⟨_, (haccepted driver d tag _).2 ⟨chain, hchain, haccept, rfl⟩⟩, hage⟩
  · intro d driver tag chain hinput hwalks hchain haccept node
    have hnames := (haccepted driver d tag _).2 ⟨chain, hchain, haccept, rfl⟩
    rw [(freshInputDemand_of_inputTag hinput registry).1 _ hwalks hnames, entries_foldl_httpRead,
      List.map_map]
    rfl
  · intro hnone
    by_cases hinput : ∃ d driver tag, InputTag drivers index cid name d driver tag
    · obtain ⟨d, driver, tag, hinput⟩ := hinput
      refine (freshInputDemand_of_inputTag hinput registry).2 fun names hwalks hnames => ?_
      obtain ⟨chain, hchain, haccept, -⟩ := (haccepted driver d tag names).1 hnames
      exact hnone d driver tag chain hinput hwalks hchain haccept
    · push Not at hinput
      exact freshInputDemand_of_not_inputTag hinput registry

end

end OpcBridge
