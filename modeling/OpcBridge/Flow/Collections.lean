import OpcBridge.Flow.Deployed
import OpcBridge.Lib.Run
import Mathlib.Data.List.Permutation

/-!
# The flow collections

`save_draft`, `remove_draft`, `deploy` and `disable`, called by concurrent threads. A draft call
edits the drafts under the lock and then saves them; `deploy` and `disable` copy the deployed flows
with their change, save the copy and install it. A save writes the temporary file, which all saves
of a collection share, and renames it. The steps of the calls may come in any order, and a save may
fail before or after the temporary file was touched.

`collections_linear` says when the collections are what the successful calls make of them in some
order, and the files hold them; `collections_vetted`, that no flow gets past the validation.
`save_collection` reads the drafts without the lock; the model reads them at one moment. `edits`,
`draftsSaved`, `saves` and `installed` are not in the program: they number the edits and the saves
of the deployed flows.
-/

namespace OpcBridge.Flow

open OpcBridge OpcBridge.Alarms OpcBridge.Alarms.Json Lib

/-! ## Calls in sequence -/

abbrev Collection [Floats] := String → Option Json

section
variable [Floats] [JsonLib] [FlowLib]

inductive FlowRequest
  | saveDraft (flow : Json)
  | removeDraft (id : String)
  /-- `now` is the time that the call will read. -/
  | deploy (id : String) (now : Int)
  | disable (id : String)

structure Collections where
  drafts : Collection
  deployed : Collection

/-- `flow["id"]` -/
def flowId (flow : Json) : String := jsonStringOrEmpty flow "id"

def stamped (flow : Json) (now : Int) : Json := setField flow "deployed_ms" (.int now)

/-- What a call does when no other call is going; `none` is a refused call. -/
def FlowRequest.apply (c : Collections) : FlowRequest → Option Collections
  | .saveDraft flow =>
    match normalizeAndValidate flow with
    | .error _ => none
    | .ok flow => some { c with drafts := Function.update c.drafts (flowId flow) (some flow) }
  | .removeDraft id =>
    if (c.deployed id).isSome then none
    else if (c.drafts id).isNone then none
    else some { c with drafts := Function.update c.drafts id none }
  | .deploy id now =>
    match c.drafts id with
    | none => none
    | some draft =>
      match normalizeAndValidate draft with
      | .error _ => none
      | .ok flow =>
        some { c with deployed := Function.update c.deployed id (some (stamped flow now)) }
  | .disable id =>
    if (c.deployed id).isNone then none
    else some { c with deployed := Function.update c.deployed id none }

/-! ## The state -/

/-- Where a call stands. -/
inductive Progress
  | asked
  /-- `deploy` with its copy of the draft. -/
  | read (draft : Json)
  /-- A draft call before its save. -/
  | edited
  /-- The temporary file of the drafts is written, with the drafts after `version` edits. -/
  | draftStaged (content : Collection) (version : Nat)
  /-- `deploy` or `disable` with its copy of the deployed flows. -/
  | copied (next : Collection)
  | staged (next : Collection)
  /-- The file is saved, the copy is not installed yet. -/
  | saved (next : Collection) (version : Nat)
  | returned (ok : Bool)

structure CollectionState where
  drafts : Collection
  deployed : Collection
  /-- `none` is a damaged file. -/
  draftsFile : Option Collection
  deployedFile : Option Collection
  /-- `none` is a missing file, `some none` a damaged one. -/
  draftsTmp : Option (Option Collection) := none
  deployedTmp : Option (Option Collection) := none
  edits : Nat := 0
  draftsSaved : Nat := 0
  saves : Nat := 0
  installed : Nat := 0
  calls : List (FlowRequest × Progress) := []

/-- `load_all` -/
def CollectionState.load (c : Collections) : CollectionState :=
  { drafts := c.drafts, deployed := c.deployed, draftsFile := some c.drafts,
    deployedFile := some c.deployed }

/-- How an operation on a file ends. -/
inductive Outcome
  | done
  | failed
  /-- The temporary file was opened but not written to its end. -/
  | damaged
  deriving DecidableEq

inductive CallStep
  | call (r : FlowRequest)
  /-- The next section or file operation of a call. -/
  | advance (i : Nat) (outcome : Outcome)

/-! ## Steps -/

/-- The temporary file after it was opened and written. -/
def written (tmp : Option (Option Collection)) (content : Collection) :
    Outcome → Option (Option Collection)
  | .done => some (some content)
  | .failed => tmp
  | .damaged => some none

/-- The first section of a call. -/
def CollectionState.begin (s : CollectionState) : FlowRequest → CollectionState × Progress
  | .saveDraft flow =>
    match normalizeAndValidate flow with
    | .error _ => (s, .returned false)
    | .ok flow =>
      ({ s with
        drafts := Function.update s.drafts (flowId flow) (some flow), edits := s.edits + 1 },
        .edited)
  | .removeDraft id =>
    if (s.deployed id).isSome then (s, .returned false)
    else if (s.drafts id).isNone then (s, .returned false)
    else ({ s with drafts := Function.update s.drafts id none, edits := s.edits + 1 }, .edited)
  | .deploy id _ =>
    match s.drafts id with
    | none => (s, .returned false)
    | some draft => (s, .read draft)
  | .disable id =>
    if (s.deployed id).isNone then (s, .returned false)
    else (s, .copied (Function.update s.deployed id none))

/-- The second section of `deploy`, after the validation. -/
def CollectionState.copy (s : CollectionState) (r : FlowRequest) (draft : Json) :
    CollectionState × Progress :=
  match r with
  | .deploy id now =>
    match normalizeAndValidate draft with
    | .error _ => (s, .returned false)
    | .ok flow => (s, .copied (Function.update s.deployed id (some (stamped flow now))))
  | _ => (s, .read draft)

def CollectionState.move (s : CollectionState) (r : FlowRequest) (outcome : Outcome) :
    Progress → CollectionState × Progress
  | .asked => s.begin r
  | .read draft => s.copy r draft
  | .edited =>
    ({ s with draftsTmp := written s.draftsTmp s.drafts outcome },
      if outcome = .done then .draftStaged s.drafts s.edits else .returned false)
  | .draftStaged _ version =>
    match s.draftsTmp with
    | none => (s, .returned false)
    | some file =>
      if outcome = .done then
        ({ s with draftsFile := file, draftsTmp := none, draftsSaved := version }, .returned true)
      else (s, .returned false)
  | .copied next =>
    ({ s with deployedTmp := written s.deployedTmp next outcome },
      if outcome = .done then .staged next else .returned false)
  | .staged next =>
    match s.deployedTmp with
    | none => (s, .returned false)
    | some file =>
      if outcome = .done then
        ({ s with deployedFile := file, deployedTmp := none, saves := s.saves + 1 },
          .saved next (s.saves + 1))
      else (s, .returned false)
  | .saved next version =>
    ({ s with deployed := next, installed := version }, .returned true)
  | .returned ok => (s, .returned ok)

def CollectionState.step (s : CollectionState) : CallStep → CollectionState
  | .call r => { s with calls := s.calls ++ [(r, .asked)] }
  | .advance i outcome =>
    match s.calls[i]? with
    | none => s
    | some (r, p) =>
      let (s, p) := s.move r outcome p
      { s with calls := s.calls.set i (r, p) }

/-! ## What is asked of a run -/

/-- A successful call. -/
def succeeded : FlowRequest × Progress → Option FlowRequest
  | (r, .returned true) => some r
  | _ => none

def CollectionState.AllReturned (s : CollectionState) : Prop :=
  ∀ x ∈ s.calls, ∃ ok, x.2 = .returned ok

/-- The collections are what the successful calls make of them in some order, and the files hold
the collections. -/
def CollectionState.Linear (c : Collections) (s : CollectionState) : Prop :=
  (∃ order : List FlowRequest, order.Perm (s.calls.filterMap succeeded) ∧
    order.foldlM FlowRequest.apply c = some ⟨s.drafts, s.deployed⟩) ∧
  s.draftsFile = some s.drafts ∧ s.deployedFile = some s.deployed

/-- The copy to install has the flow's draft as it is now and the other flows as they are now. -/
def CollectionState.Current (s : CollectionState) (next : Collection) : FlowRequest → Prop
  | .deploy id now => (∃ draft flow, s.drafts id = some draft ∧
      normalizeAndValidate draft = .ok flow ∧ next id = some (stamped flow now)) ∧
      ∀ other, other ≠ id → next other = s.deployed other
  | .disable id => (s.deployed id).isSome ∧ ∀ other, other ≠ id → next other = s.deployed other
  | _ => True

/-- A draft call can save, a save renames the file that it wrote, files are saved and installed in
one order, and no installation is based on an old copy. -/
def CollectionState.Admits (s : CollectionState) : CallStep → Prop
  | .call _ => True
  | .advance i outcome =>
    match s.calls[i]? with
    | some (_, .edited) => outcome = .done
    | some (_, .draftStaged content version) =>
      outcome = .done ∧ s.draftsTmp = some (some content) ∧ s.draftsSaved ≤ version
    | some (_, .staged next) =>
      outcome = .done → ∀ file, s.deployedTmp = some file → file = some next
    | some (r, .saved next version) => s.Current next r ∧ s.installed ≤ version
    | _ => True

/-! ## What a step does -/

/-- The call has changed the collections, or will not fail any more. -/
def effective : FlowRequest × Progress → Option FlowRequest
  | (r, .edited) => some r
  | (r, .draftStaged ..) => some r
  | (r, .returned true) => some r
  | _ => none

/-- The copy that the call will install. -/
def Progress.next : Progress → Option Collection
  | .copied next => some next
  | .staged next => some next
  | .saved next _ => some next
  | _ => none

/-- Only `deploy` and `disable` have a copy, and that of `disable` is without its flow. -/
def Copies : FlowRequest × Progress → Prop
  | (.deploy .., _) => True
  | (.disable id, p) => ∀ next, p.next = some next → next id = none
  | (_, p) => p.next = none

/-- The call will save the drafts after all edits. -/
def Progress.WillSave (edits : Nat) : Progress → Prop
  | .edited => True
  | .draftStaged _ version => version = edits
  | _ => False

/-- What one step of a call does to the state, and where the call stands after it. -/
inductive Moved (s : CollectionState) (r : FlowRequest) :
    Progress → CollectionState × Progress → Prop
  /-- The collections and their files stay. -/
  | quiet {p p' : Progress} (draftsTmp deployedTmp : Option (Option Collection))
      (hp : ∀ n, ¬ p.WillSave n) (hsaved : ∀ next version, p ≠ .saved next version)
      (hsame : effective (r, p') = effective (r, p)) (hp' : ∀ c v, p' ≠ .draftStaged c v)
      (hp'' : ∀ c v, p' ≠ .saved c v) (hcopies : Copies (r, p) → Copies (r, p')) :
      Moved s r p ({ s with draftsTmp, deployedTmp }, p')
  | edit {drafts : Collection}
      (happly : r.apply ⟨s.drafts, s.deployed⟩ = some ⟨drafts, s.deployed⟩) :
      Moved s r .asked ({ s with drafts, edits := s.edits + 1 }, .edited)
  | stage {draftsTmp : Option (Option Collection)} :
      Moved s r .edited ({ s with draftsTmp }, .draftStaged s.drafts s.edits)
  | save {content : Collection} {version : Nat} (hle : s.draftsSaved ≤ version) :
      Moved s r (.draftStaged content version) ({ s with
        draftsFile := some content, draftsTmp := none, draftsSaved := version }, .returned true)
  | saveCopy {next : Collection} :
      Moved s r (.staged next) ({ s with
        deployedFile := some next, deployedTmp := none, saves := s.saves + 1 },
        .saved next (s.saves + 1))
  | install {next : Collection} {version : Nat} (hcurrent : s.Current next r)
      (hle : s.installed ≤ version) :
      Moved s r (.saved next version) ({ s with deployed := next, installed := version },
        .returned true)

theorem begin_moved (s : CollectionState) (r : FlowRequest) : Moved s r .asked (s.begin r) := by
  have hquiet : ∀ {p' : Progress}, effective (r, p') = none → (∀ c v, p' ≠ .draftStaged c v) →
      (∀ c v, p' ≠ .saved c v) → Copies (r, p') → Moved s r .asked (s, p') := by
    intro p' h1 h2 h3 h4
    exact .quiet (s := s) s.draftsTmp s.deployedTmp (fun _ h => h) (fun _ _ h => by cases h) h1 h2
      h3 fun _ => h4
  have hrefused : Moved s r .asked (s, .returned false) := by
    refine hquiet rfl (fun _ _ h => by cases h) (fun _ _ h => by cases h) ?_
    cases r with
    | deploy id now => trivial
    | disable id => exact fun _ h => by cases h
    | _ => rfl
  cases r with
  | saveDraft flow =>
    unfold CollectionState.begin
    dsimp only
    split
    · exact hrefused
    · rename_i flow' hflow
      refine .edit ?_
      unfold FlowRequest.apply
      dsimp only
      rw [hflow]
  | removeDraft id =>
    unfold CollectionState.begin
    dsimp only
    split
    · exact hrefused
    · split
      · exact hrefused
      · rename_i h1 h2
        refine .edit ?_
        unfold FlowRequest.apply
        dsimp only
        rw [if_neg h1, if_neg h2]
  | deploy id now =>
    unfold CollectionState.begin
    dsimp only
    split
    · exact hrefused
    · exact hquiet rfl (fun _ _ h => by cases h) (fun _ _ h => by cases h) trivial
  | disable id =>
    unfold CollectionState.begin
    dsimp only
    split
    · exact hrefused
    · refine hquiet rfl (fun _ _ h => by cases h) (fun _ _ h => by cases h) fun next hnext => ?_
      rw [← Option.some.inj hnext]
      exact Function.update_self ..

theorem copy_moved (s : CollectionState) (r : FlowRequest) (draft : Json) :
    Moved s r (.read draft) (s.copy r draft) := by
  have hquiet : ∀ {p' : Progress}, effective (r, p') = none → (∀ c v, p' ≠ .draftStaged c v) →
      (∀ c v, p' ≠ .saved c v) → (Copies (r, .read draft) → Copies (r, p')) →
      Moved s r (.read draft) (s, p') := by
    intro p' h1 h2 h3 h4
    exact .quiet (s := s) s.draftsTmp s.deployedTmp (fun _ h => h) (fun _ _ h => by cases h) h1 h2
      h3 h4
  unfold CollectionState.copy
  split
  · split
    · exact hquiet rfl (fun _ _ h => by cases h) (fun _ _ h => by cases h) id
    · exact hquiet rfl (fun _ _ h => by cases h) (fun _ _ h => by cases h) id
  · exact hquiet rfl (fun _ _ h => by cases h) (fun _ _ h => by cases h) id

omit [JsonLib] [FlowLib] in
/-- A copy that is staged or given up. -/
theorem copies_next {r : FlowRequest} {p p' : Progress}
    (h : ∀ next, p'.next = some next → p.next = some next) (hc : Copies (r, p)) :
    Copies (r, p') := by
  have hnone : p.next = none → p'.next = none := by
    intro hp
    cases hp' : p'.next with
    | none => rfl
    | some next => rw [← hp, h next hp']
  cases r with
  | deploy id now => trivial
  | disable id => exact fun next hnext => hc next (h next hnext)
  | saveDraft flow => exact hnone hc
  | removeDraft id => exact hnone hc

/-- **Steps of a call.** -/
theorem move_moved {s : CollectionState} {i : Nat} {r : FlowRequest} {p : Progress}
    {outcome : Outcome} (hi : s.calls[i]? = some (r, p)) (hok : s.Admits (.advance i outcome)) :
    Moved s r p (s.move r outcome p) := by
  unfold CollectionState.Admits at hok
  dsimp only at hok
  rw [hi] at hok
  cases p with
  | asked => exact begin_moved s r
  | read draft => exact copy_moved s r draft
  | edited =>
    obtain rfl : outcome = .done := hok
    exact .stage
  | draftStaged content version =>
    obtain ⟨rfl, htmp, hle⟩ := hok
    unfold CollectionState.move
    dsimp only
    rw [htmp]
    exact .save hle
  | copied next =>
    unfold CollectionState.move
    dsimp only
    split
    · exact .quiet s.draftsTmp _ (fun _ h => h) (fun _ _ h => by cases h) rfl
        (fun _ _ h => by cases h) (fun _ _ h => by cases h) (copies_next fun _ h => h)
    · exact .quiet s.draftsTmp _ (fun _ h => h) (fun _ _ h => by cases h) rfl
        (fun _ _ h => by cases h) (fun _ _ h => by cases h) (copies_next fun _ h => by cases h)
  | staged next =>
    have hrefused : Moved s r (.staged next) (s, .returned false) :=
      .quiet (s := s) s.draftsTmp s.deployedTmp (fun _ h => h) (fun _ _ h => by cases h) rfl
        (fun _ _ h => by cases h) (fun _ _ h => by cases h) (copies_next fun _ h => by cases h)
    unfold CollectionState.move
    dsimp only
    split
    · exact hrefused
    · rename_i file hfile
      split
      · rename_i hdone
        rw [hok hdone file hfile]
        exact .saveCopy
      · exact hrefused
  | saved next version => exact .install hok.1 hok.2
  | returned ok =>
    exact .quiet (s := s) s.draftsTmp s.deployedTmp (fun _ h => h) (fun _ _ h => by cases h) rfl
      (fun _ _ h => by cases h) (fun _ _ h => by cases h) id

/-! ## The invariant -/

/-- The effects so far, in their order. -/
def Ordered (c : Collections) (s : CollectionState) : Prop :=
  ∃ order : List FlowRequest, order.Perm (s.calls.filterMap effective) ∧
    order.foldlM FlowRequest.apply c = some ⟨s.drafts, s.deployed⟩

/-- The drafts' file holds the drafts, or a call will save them. -/
structure DraftsKept (s : CollectionState) : Prop where
  le : s.draftsSaved ≤ s.edits
  file : s.draftsSaved = s.edits → s.draftsFile = some s.drafts
  will : s.draftsSaved < s.edits → ∃ x ∈ s.calls, x.2.WillSave s.edits
  staged : ∀ x ∈ s.calls, ∀ content version, x.2 = .draftStaged content version →
    version ≤ s.edits ∧ (version = s.edits → content = s.drafts)

/-- The file of the deployed flows holds them, or the copy of a call that will install it. -/
structure DeployedKept (s : CollectionState) : Prop where
  le : s.installed ≤ s.saves
  file : s.installed = s.saves → s.deployedFile = some s.deployed
  will : s.installed < s.saves → ∃ x ∈ s.calls, ∃ next, x.2 = .saved next s.saves
  saved : ∀ x ∈ s.calls, ∀ next version, x.2 = .saved next version →
    version ≤ s.saves ∧ (version = s.saves → s.deployedFile = some next)

structure CollectionsInv (c : Collections) (s : CollectionState) : Prop where
  ordered : Ordered c s
  drafts : DraftsKept s
  deployed : DeployedKept s
  copies : ∀ x ∈ s.calls, Copies x

section
omit [Floats] [JsonLib] [FlowLib]
variable {α β : Type} {f : α → Option β} {l : List α} {i : Nat} {a b : α}

theorem filterMap_set_same (hi : l[i]? = some a) (h : f b = f a) :
    (l.set i b).filterMap f = l.filterMap f := by
  induction l generalizing i with
  | nil => rfl
  | cons x l ih =>
    cases i with
    | zero =>
      obtain rfl : x = a := by simpa using hi
      simp only [List.set_cons_zero, List.filterMap_cons, h]
    | succ i =>
      rw [List.getElem?_cons_succ] at hi
      simp only [List.set_cons_succ, List.filterMap_cons, ih hi]

theorem filterMap_set_new {y : β} (hi : l[i]? = some a) (ha : f a = none) (hb : f b = some y) :
    ((l.set i b).filterMap f).Perm (l.filterMap f ++ [y]) := by
  induction l generalizing i with
  | nil => cases hi
  | cons x l ih =>
    cases i with
    | zero =>
      obtain rfl : x = a := by simpa using hi
      simp only [List.set_cons_zero, List.filterMap_cons, ha, hb]
      exact (List.perm_append_singleton ..).symm
    | succ i =>
      rw [List.getElem?_cons_succ] at hi
      simp only [List.set_cons_succ, List.filterMap_cons]
      cases f x with
      | none => exact ih hi
      | some z => exact (ih hi).cons z

theorem mem_set_of_ne {x : α} (hx : x ∈ l) (hi : l[i]? = some a) (hne : x ≠ a) :
    x ∈ l.set i b := by
  obtain ⟨j, hj⟩ := List.mem_iff_getElem?.1 hx
  refine List.mem_iff_getElem?.2 ⟨j, ?_⟩
  have hij : i ≠ j := by
    intro hij
    rw [hij, hj] at hi
    exact hne (Option.some.inj hi)
  rwa [List.getElem?_set_ne hij]

theorem mem_set_self (hi : l[i]? = some a) : b ∈ l.set i b :=
  List.mem_set (List.getElem?_eq_some_iff.1 hi).1 b

end

/-! ## Every step keeps the invariant -/

/-- The state after a step of the call `i`. -/
def stepped (i : Nat) (r : FlowRequest) (m : CollectionState × Progress) : CollectionState :=
  { m.1 with calls := m.1.calls.set i (r, m.2) }

variable {c : Collections} {s : CollectionState} {i : Nat} {r : FlowRequest} {p : Progress}
  {m : CollectionState × Progress}

/-- An installation is what the call makes of the present collections. -/
theorem apply_of_current {next : Collection} {version : Nat} (hcurrent : s.Current next r)
    (hcopies : Copies (r, .saved next version)) :
    r.apply ⟨s.drafts, s.deployed⟩ = some ⟨s.drafts, next⟩ := by
  cases r with
  | saveDraft flow => cases hcopies
  | removeDraft id => cases hcopies
  | deploy id now =>
    obtain ⟨⟨draft, flow, hdraft, hflow, hnext⟩, hother⟩ := hcurrent
    have hupdate : Function.update s.deployed id (some (stamped flow now)) = next := by
      funext other
      by_cases ho : other = id
      · rw [ho, Function.update_self, hnext]
      · rw [Function.update_of_ne ho, hother other ho]
    unfold FlowRequest.apply
    dsimp only
    rw [hdraft]
    dsimp only
    rw [hflow]
    dsimp only
    rw [hupdate]
  | disable id =>
    obtain ⟨hsome, hother⟩ := hcurrent
    have hupdate : Function.update s.deployed id none = next := by
      funext other
      by_cases ho : other = id
      · rw [ho, Function.update_self, hcopies next rfl]
      · rw [Function.update_of_ne ho, hother other ho]
    unfold FlowRequest.apply
    dsimp only
    rw [if_neg (by simp [Option.isSome_iff_ne_none.1 hsome]), hupdate]

theorem ordered_moved (hmoved : Moved s r p m) (hi : s.calls[i]? = some (r, p))
    (hcopies : Copies (r, p)) (h : Ordered c s) : Ordered c (stepped i r m) := by
  obtain ⟨order, hperm, hfold⟩ := h
  -- the call has its effect now
  have hnew : ∀ {m : CollectionState × Progress}, m.1.calls = s.calls → effective (r, p) = none →
      effective (r, m.2) = some r →
      r.apply ⟨s.drafts, s.deployed⟩ = some ⟨m.1.drafts, m.1.deployed⟩ →
      Ordered c (stepped i r m) := by
    intro m hcalls h1 h2 happly
    refine ⟨order ++ [r], ?_, ?_⟩
    · unfold stepped
      rw [hcalls]
      exact (hperm.append_right [r]).trans (filterMap_set_new hi h1 h2).symm
    · rw [List.foldlM_append, hfold]
      show r.apply ⟨s.drafts, s.deployed⟩ >>= pure = _
      rw [happly]
      rfl
  cases hmoved with
  | quiet _ _ hp hsaved hsame hp' hp'' hcopies' =>
    refine ⟨order, ?_, hfold⟩
    unfold stepped
    rwa [filterMap_set_same hi hsame]
  | edit happly => exact hnew rfl rfl rfl happly
  | stage =>
    refine ⟨order, ?_, hfold⟩
    unfold stepped
    rwa [filterMap_set_same hi (b := (r, .draftStaged s.drafts s.edits)) rfl]
  | save hle =>
    refine ⟨order, ?_, hfold⟩
    unfold stepped
    rwa [filterMap_set_same hi (b := (r, .returned true)) rfl]
  | saveCopy =>
    refine ⟨order, ?_, hfold⟩
    unfold stepped
    rwa [filterMap_set_same hi (b := (r, .saved _ (s.saves + 1))) rfl]
  | install hcurrent hle => exact hnew rfl rfl rfl (apply_of_current hcurrent hcopies)

omit [JsonLib] [FlowLib] in
/-- Another call's place is the same after the step. -/
theorem mem_stepped {x : FlowRequest × Progress} (hx : x ∈ (s.calls.set i (r, m.2))) :
    x = (r, m.2) ∨ x ∈ s.calls := (List.mem_or_eq_of_mem_set hx).symm

theorem drafts_moved (hmoved : Moved s r p m) (hi : s.calls[i]? = some (r, p))
    (h : DraftsKept s) : DraftsKept (stepped i r m) := by
  have hmem : (r, p) ∈ s.calls := List.mem_of_getElem? hi
  -- the drafts and their file stay, and the call is none of those that save them
  have hkeep : ∀ {m : CollectionState × Progress}, m.1.calls = s.calls →
      m.1.drafts = s.drafts → m.1.edits = s.edits → m.1.draftsSaved = s.draftsSaved →
      m.1.draftsFile = s.draftsFile → (p.WillSave s.edits → m.2.WillSave s.edits) →
      (∀ content version, m.2 = .draftStaged content version →
        version ≤ s.edits ∧ (version = s.edits → content = s.drafts)) →
      DraftsKept (stepped i r m) := by
    intro m hcalls hdrafts hedits hsaved hfile hwill hstaged
    unfold stepped
    refine ⟨?_, ?_, ?_, ?_⟩
    · dsimp only
      rw [hedits, hsaved]
      exact h.le
    · dsimp only
      rw [hedits, hsaved, hfile, hdrafts]
      exact h.file
    · dsimp only
      rw [hedits, hsaved, hcalls]
      intro hlt
      obtain ⟨x, hx, hw⟩ := h.will hlt
      by_cases hxp : x = (r, p)
      · subst hxp
        exact ⟨(r, m.2), mem_set_self hi, hwill hw⟩
      · exact ⟨x, mem_set_of_ne hx hi hxp, hw⟩
    · dsimp only
      rw [hedits, hdrafts, hcalls]
      intro x hx content version hxs
      obtain rfl | hx := mem_stepped hx
      · exact hstaged content version hxs
      · exact h.staged x hx content version hxs
  cases hmoved with
  | quiet _ _ hp hsaved hsame hp' hp'' hcopies =>
    exact hkeep rfl rfl rfl rfl rfl (fun hw => absurd hw (hp _))
      (fun content version he => absurd he (hp' content version))
  | edit happly =>
    unfold stepped
    refine ⟨?_, fun he => ?_, fun _ => ?_, fun x hx content version hxs => ?_⟩
    · exact Nat.le_succ_of_le h.le
    · have hle := h.le
      dsimp only at he
      omega
    · exact ⟨(r, .edited), mem_set_self hi, trivial⟩
    · obtain rfl | hx := mem_stepped (m := (s, .edited)) hx
      · cases hxs
      · have hle := (h.staged x hx content version hxs).1
        exact ⟨Nat.le_succ_of_le hle, fun he => by dsimp only at he; omega⟩
  | stage =>
    refine hkeep rfl rfl rfl rfl rfl (fun _ => rfl) fun content version he => ?_
    cases he
    exact ⟨le_rfl, fun _ => rfl⟩
  | save hle =>
    rename_i content version
    obtain ⟨hversion, hcontent⟩ := h.staged _ hmem content version rfl
    unfold stepped
    refine ⟨hversion, fun he => ?_, fun hlt => ?_, fun x hx content' version' hxs => ?_⟩
    · exact congrArg some (hcontent he)
    · dsimp only at hlt
      obtain ⟨x, hx, hw⟩ := h.will (by omega)
      refine ⟨x, mem_set_of_ne hx hi fun hxp => ?_, hw⟩
      -- the call itself saved an older version
      subst hxp
      have hw : version = s.edits := hw
      omega
    · obtain rfl | hx := mem_stepped (m := (s, .returned true)) hx
      · cases hxs
      · exact h.staged x hx content' version' hxs
  | saveCopy =>
    exact hkeep rfl rfl rfl rfl rfl (fun hw => hw.elim) (fun _ _ he => by cases he)
  | install hcurrent hle =>
    exact hkeep rfl rfl rfl rfl rfl (fun hw => hw.elim) (fun _ _ he => by cases he)

theorem deployed_moved (hmoved : Moved s r p m) (hi : s.calls[i]? = some (r, p))
    (h : DeployedKept s) : DeployedKept (stepped i r m) := by
  have hmem : (r, p) ∈ s.calls := List.mem_of_getElem? hi
  -- the deployed flows and their file stay, and the call has not saved them
  have hkeep : ∀ {m : CollectionState × Progress}, m.1.calls = s.calls →
      m.1.deployed = s.deployed → m.1.saves = s.saves → m.1.installed = s.installed →
      m.1.deployedFile = s.deployedFile → (∀ next version, p ≠ .saved next version) →
      (∀ next version, m.2 ≠ .saved next version) → DeployedKept (stepped i r m) := by
    intro m hcalls hdeployed hsaves hinstalled hfile hp hp'
    unfold stepped
    refine ⟨?_, ?_, ?_, ?_⟩
    · dsimp only
      rw [hsaves, hinstalled]
      exact h.le
    · dsimp only
      rw [hsaves, hinstalled, hfile, hdeployed]
      exact h.file
    · dsimp only
      rw [hsaves, hinstalled, hcalls]
      intro hlt
      obtain ⟨x, hx, next, hxs⟩ := h.will hlt
      refine ⟨x, mem_set_of_ne hx hi fun hxp => ?_, next, hxs⟩
      subst hxp
      exact hp next _ hxs
    · dsimp only
      rw [hsaves, hfile, hcalls]
      intro x hx next version hxs
      obtain rfl | hx := mem_stepped hx
      · exact absurd hxs (hp' next version)
      · exact h.saved x hx next version hxs
  cases hmoved with
  | quiet _ _ hp hsaved hsame hp' hp'' hcopies => exact hkeep rfl rfl rfl rfl rfl hsaved hp''
  | edit happly =>
    exact hkeep rfl rfl rfl rfl rfl (fun _ _ he => by cases he) (fun _ _ he => by cases he)
  | stage =>
    exact hkeep rfl rfl rfl rfl rfl (fun _ _ he => by cases he) (fun _ _ he => by cases he)
  | save hle =>
    exact hkeep rfl rfl rfl rfl rfl (fun _ _ he => by cases he) (fun _ _ he => by cases he)
  | saveCopy =>
    rename_i next
    unfold stepped
    refine ⟨Nat.le_succ_of_le h.le, fun he => ?_, fun _ => ?_, fun x hx next' version hxs => ?_⟩
    · have hle := h.le
      dsimp only at he
      omega
    · exact ⟨_, mem_set_self hi, next, rfl⟩
    · obtain rfl | hx := mem_stepped (m := (s, .saved next (s.saves + 1))) hx
      · cases hxs
        exact ⟨le_rfl, fun _ => rfl⟩
      · have hle := (h.saved x hx next' version hxs).1
        exact ⟨Nat.le_succ_of_le hle, fun he => by dsimp only at he; omega⟩
  | install hcurrent hle =>
    rename_i next version
    obtain ⟨hversion, hfile⟩ := h.saved _ hmem next version rfl
    unfold stepped
    refine ⟨hversion, hfile, fun hlt => ?_, fun x hx next' version' hxs => ?_⟩
    · dsimp only at hlt
      obtain ⟨x, hx, next', hxs⟩ := h.will (by omega)
      refine ⟨x, mem_set_of_ne hx hi fun hxp => ?_, next', hxs⟩
      -- the call itself saved an older version
      subst hxp
      cases hxs
      omega
    · obtain rfl | hx := mem_stepped (m := (s, .returned true)) hx
      · cases hxs
      · exact h.saved x hx next' version' hxs

theorem copies_moved (hmoved : Moved s r p m) (hi : s.calls[i]? = some (r, p))
    (h : ∀ x ∈ s.calls, Copies x) : ∀ x ∈ (stepped i r m).calls, Copies x := by
  have hmem : (r, p) ∈ s.calls := List.mem_of_getElem? hi
  have hnew : m.1.calls = s.calls ∧ Copies (r, m.2) := by
    cases hmoved with
    | quiet _ _ hp hsaved hsame hp' hp'' hcopies => exact ⟨rfl, hcopies (h _ hmem)⟩
    | saveCopy => exact ⟨rfl, copies_next (p := .staged _) (fun _ h => h) (h _ hmem)⟩
    | edit happly => exact ⟨rfl, copies_next (fun _ h => by cases h) (h _ hmem)⟩
    | stage => exact ⟨rfl, copies_next (fun _ h => by cases h) (h _ hmem)⟩
    | save hle => exact ⟨rfl, copies_next (fun _ h => by cases h) (h _ hmem)⟩
    | install hcurrent hle => exact ⟨rfl, copies_next (fun _ h => by cases h) (h _ hmem)⟩
  intro x hx
  unfold stepped at hx
  rw [hnew.1] at hx
  obtain rfl | hx := mem_stepped hx
  · exact hnew.2
  · exact h x hx

theorem collections_start (c : Collections) : CollectionsInv c (.load c) where
  ordered := ⟨[], .refl _, rfl⟩
  drafts := ⟨le_rfl, fun _ => rfl, fun h => absurd h (Nat.lt_irrefl 0), fun _ h => by cases h⟩
  deployed := ⟨le_rfl, fun _ => rfl, fun h => absurd h (Nat.lt_irrefl 0), fun _ h => by cases h⟩
  copies := fun _ h => by cases h

theorem collections_step (step : CallStep) (h : CollectionsInv c s) (hok : s.Admits step) :
    CollectionsInv c (s.step step) := by
  cases step with
  | call r =>
    have hmem : ∀ {x}, x ∈ s.calls ++ [(r, Progress.asked)] → x ∈ s.calls ∨ x = (r, .asked) := by
      intro x hx
      simpa using hx
    refine ⟨?_, ⟨h.drafts.le, h.drafts.file, fun hlt => ?_, fun x hx content version hxs => ?_⟩,
      ⟨h.deployed.le, h.deployed.file, fun hlt => ?_, fun x hx next version hxs => ?_⟩,
      fun x hx => ?_⟩
    · obtain ⟨order, hperm, hfold⟩ := h.ordered
      refine ⟨order, ?_, hfold⟩
      show order.Perm ((s.calls ++ [(r, Progress.asked)]).filterMap effective)
      have hnone : [(r, Progress.asked)].filterMap effective = [] := rfl
      rw [List.filterMap_append, hnone, List.append_nil]
      exact hperm
    · obtain ⟨x, hx, hw⟩ := h.drafts.will hlt
      exact ⟨x, List.mem_append_left _ hx, hw⟩
    · obtain hx | rfl := hmem hx
      · exact h.drafts.staged x hx content version hxs
      · cases hxs
    · obtain ⟨x, hx, hw⟩ := h.deployed.will hlt
      exact ⟨x, List.mem_append_left _ hx, hw⟩
    · obtain hx | rfl := hmem hx
      · exact h.deployed.saved x hx next version hxs
      · cases hxs
    · obtain hx | rfl := hmem hx
      · exact h.copies x hx
      · cases r with
        | deploy id now => trivial
        | disable id => exact fun _ h => by cases h
        | _ => rfl
  | advance i outcome =>
    unfold CollectionState.step
    dsimp only
    split
    · exact h
    · rename_i r p hi
      have hmoved := move_moved hi hok
      exact ⟨ordered_moved hmoved hi (h.copies _ (List.mem_of_getElem? hi)) h.ordered,
        drafts_moved hmoved hi h.drafts, deployed_moved hmoved hi h.deployed,
        copies_moved hmoved hi h.copies⟩

/-- **The collections change atomically** in every run whose steps are admitted: when all calls have
returned, the collections are what the successful calls make of them in some order, and the files
hold them. -/
theorem collections_linear (c : Collections) (steps : List CallStep)
    (hok : Along CollectionState.step CollectionState.Admits (.load c) steps)
    (hall : (run CollectionState.step (.load c) steps).AllReturned) :
    (run CollectionState.step (.load c) steps).Linear c := by
  have h : CollectionsInv c (run CollectionState.step (.load c) steps) :=
    run_invariant (fun _ step h hok => collections_step step h hok) (collections_start c) hok
  generalize run CollectionState.step (.load c) steps = s at hall h
  refine ⟨?_, h.drafts.file ?_, h.deployed.file ?_⟩
  · obtain ⟨order, hperm, hfold⟩ := h.ordered
    have hsame : s.calls.filterMap effective = s.calls.filterMap succeeded := by
      refine List.filterMap_congr fun x hx => ?_
      obtain ⟨r, p⟩ := x
      obtain ⟨ok, hp⟩ := hall _ hx
      dsimp only at hp
      subst hp
      cases ok <;> rfl
    exact ⟨order, hsame ▸ hperm, hfold⟩
  · refine Nat.le_antisymm h.drafts.le (Nat.le_of_not_lt fun hlt => ?_)
    obtain ⟨x, hx, hw⟩ := h.drafts.will hlt
    obtain ⟨ok, hp⟩ := hall x hx
    rw [hp] at hw
    exact hw
  · refine Nat.le_antisymm h.deployed.le (Nat.le_of_not_lt fun hlt => ?_)
    obtain ⟨x, hx, next, hxs⟩ := h.deployed.will hlt
    obtain ⟨ok, hp⟩ := hall x hx
    rw [hp] at hxs
    cases hxs

/-! ## Only validated flows -/

/-- A loaded draft, or what the validation makes of a flow. -/
def Drafted (c : Collections) (flow : Json) : Prop :=
  (∃ id, c.drafts id = some flow) ∨ ∃ raw, normalizeAndValidate raw = .ok flow

/-- A flow that was loaded as deployed, or a validated one with its time. -/
def Deployable (c : Collections) (flow : Json) : Prop :=
  (∃ id, c.deployed id = some flow) ∨
    ∃ raw valid now, normalizeAndValidate raw = .ok valid ∧ flow = stamped valid now

section
omit [JsonLib] [FlowLib]
variable {P : Json → Prop} {flows next : Collection} {file : Option Collection}
  {tmp : Option (Option Collection)}

def AllFlows (P : Json → Prop) (flows : Collection) : Prop :=
  ∀ id flow, flows id = some flow → P flow

/-- A collection, its file and its temporary file hold such flows only. -/
structure Stocked (P : Json → Prop) (flows : Collection) (file : Option Collection)
    (tmp : Option (Option Collection)) : Prop where
  flows : AllFlows P flows
  file : ∀ content, file = some content → AllFlows P content
  tmp : ∀ content, tmp = some (some content) → AllFlows P content

theorem Stocked.stage (h : Stocked P flows file tmp) (hnext : AllFlows P next) (outcome : Outcome) :
    Stocked P flows file (written tmp next outcome) := by
  refine { h with tmp := fun content hcontent => ?_ }
  cases outcome with
  | done =>
    cases hcontent
    exact hnext
  | failed => exact h.tmp content hcontent
  | damaged => cases hcontent

theorem Stocked.rename (h : Stocked P flows file (some tmp')) : Stocked P flows tmp' none :=
  ⟨h.flows, fun content hcontent => h.tmp content (congrArg some hcontent), nofun⟩

theorem AllFlows.update {id : String} {flow : Option Json} (h : AllFlows P flows)
    (hflow : ∀ f, flow = some f → P f) : AllFlows P (Function.update flows id flow) := by
  intro other f hf
  by_cases ho : other = id
  · rw [ho, Function.update_self] at hf
    exact hflow f hf
  · rw [Function.update_of_ne ho] at hf
    exact h other f hf

end

/-- The copy of a call is of deployable flows. -/
def Progress.Vetted (c : Collections) (p : Progress) : Prop :=
  ∀ next, p.next = some next → AllFlows (Deployable c) next

structure Vetted (c : Collections) (s : CollectionState) : Prop where
  drafts : Stocked (Drafted c) s.drafts s.draftsFile s.draftsTmp
  deployed : Stocked (Deployable c) s.deployed s.deployedFile s.deployedTmp
  copies : ∀ x ∈ s.calls, x.2.Vetted c

theorem begin_vetted (h : Vetted c s) (r : FlowRequest) :
    Vetted c (s.begin r).1 ∧ (s.begin r).2.Vetted c := by
  unfold CollectionState.begin
  split
  · split
    · exact ⟨h, nofun⟩
    · refine ⟨{ h with drafts := { h.drafts with flows := h.drafts.flows.update ?_ } }, nofun⟩
      rintro _ ⟨⟩
      exact .inr ⟨_, ‹_›⟩
  · split_ifs
    · exact ⟨h, nofun⟩
    · exact ⟨h, nofun⟩
    · exact ⟨{ h with drafts := { h.drafts with flows := h.drafts.flows.update nofun } }, nofun⟩
  · split <;> exact ⟨h, nofun⟩
  · split_ifs
    · exact ⟨h, nofun⟩
    · refine ⟨h, ?_⟩
      rintro _ ⟨⟩
      exact h.deployed.flows.update nofun

theorem copy_vetted (h : Vetted c s) (r : FlowRequest) (draft : Json) :
    Vetted c (s.copy r draft).1 ∧ (s.copy r draft).2.Vetted c := by
  unfold CollectionState.copy
  split
  · split
    · exact ⟨h, nofun⟩
    · refine ⟨h, ?_⟩
      rintro _ ⟨⟩
      refine h.deployed.flows.update ?_
      rintro _ ⟨⟩
      exact .inr ⟨draft, _, _, ‹_›, rfl⟩
  · exact ⟨h, nofun⟩

theorem move_vetted (h : Vetted c s) (hp : p.Vetted c) (r : FlowRequest) (outcome : Outcome) :
    Vetted c (s.move r outcome p).1 ∧ (s.move r outcome p).2.Vetted c := by
  unfold CollectionState.move
  split
  · exact begin_vetted h r
  · exact copy_vetted h r _
  · refine ⟨{ h with drafts := h.drafts.stage h.drafts.flows outcome }, ?_⟩
    dsimp only
    split <;> exact nofun
  · split
    · exact ⟨h, nofun⟩
    · rename_i hfile
      have hdrafts := h.drafts
      rw [hfile] at hdrafts
      split
      · exact ⟨{ h with drafts := hdrafts.rename }, nofun⟩
      · exact ⟨h, nofun⟩
  · refine ⟨{ h with deployed := h.deployed.stage (hp _ rfl) outcome }, ?_⟩
    dsimp only
    split
    · exact hp
    · exact nofun
  · split
    · exact ⟨h, nofun⟩
    · rename_i hfile
      have hdeployed := h.deployed
      rw [hfile] at hdeployed
      split
      · exact ⟨{ h with deployed := hdeployed.rename }, hp⟩
      · exact ⟨h, nofun⟩
  · exact ⟨{ h with deployed := { h.deployed with flows := hp _ rfl } }, nofun⟩
  · exact ⟨h, nofun⟩

theorem step_vetted (s : CollectionState) (e : CallStep) (h : Vetted c s) : Vetted c (s.step e) := by
  cases e with
  | call r =>
    refine { h with copies := fun x hx => ?_ }
    rcases List.mem_append.1 hx with hx | hx
    · exact h.copies x hx
    · rw [List.mem_singleton.1 hx]
      exact nofun
  | advance i outcome =>
    unfold CollectionState.step
    dsimp only
    split
    · exact h
    · rename_i r p hi
      obtain ⟨hmoved, hnext⟩ := move_vetted h (h.copies _ (List.mem_of_getElem? hi)) r outcome
      refine { hmoved with copies := fun x hx => ?_ }
      rcases List.mem_or_eq_of_mem_set hx with hx | rfl
      · exact hmoved.copies x hx
      · exact hnext

/-- **No flow gets past the validation**, however the steps of the calls are interleaved and the
operations on the files end. -/
theorem collections_vetted (c : Collections) (steps : List CallStep) :
    Vetted c (run CollectionState.step (.load c) steps) := by
  have hload : Vetted c (.load c) := by
    refine ⟨⟨fun id _ h => .inl ⟨id, h⟩, ?_, nofun⟩, ⟨fun id _ h => .inl ⟨id, h⟩, ?_, nofun⟩, nofun⟩
    · rintro _ ⟨⟩ id _ h
      exact .inl ⟨id, h⟩
    · rintro _ ⟨⟩ id _ h
      exact .inl ⟨id, h⟩
  exact run_induct step_vetted hload steps

end

/-! ## Examples -/

section
attribute [local instance] intFloats intJson intFlowLib

def smallFlow (id : String) : Json := .object [("id", .string id), ("name", .string "Small"),
  ("nodes", .array []), ("edges", .array [])]

/-- A draft is saved and then deployed. -/
def deployAfterSave : List CallStep :=
  [.call (.saveDraft (smallFlow "a")), .advance 0 .done, .advance 0 .done, .advance 0 .done,
    .call (.deploy "a" 5), .advance 1 .done, .advance 1 .done, .advance 1 .done, .advance 1 .done,
    .advance 1 .done]

theorem deployAfterSave_linear :
    (run CollectionState.step (.load ⟨fun _ => none, fun _ => none⟩) deployAfterSave).Linear
      ⟨fun _ => none, fun _ => none⟩ := by
  refine collections_linear _ deployAfterSave ⟨trivial, trivial, rfl, ⟨rfl, rfl, Nat.zero_le _⟩,
    trivial, trivial, trivial, trivial, ?_, ⟨⟨⟨_, _, rfl, rfl, rfl⟩, fun other ho => ?_⟩, ?_⟩,
    trivial⟩ ?_
  · intro _ file hfile
    exact (Option.some.inj hfile).symm
  · exact Function.update_of_ne ho _ _
  · exact Nat.zero_le _
  · intro x hx
    obtain rfl | hx := List.mem_cons.1 hx
    · exact ⟨true, rfl⟩
    · obtain rfl := List.mem_singleton.1 hx
      exact ⟨true, rfl⟩

/-- Two drafts. -/
def twoDrafts : Collections where
  drafts := fun id => if id = "a" ∨ id = "b" then some (smallFlow id) else none
  deployed := fun _ => none

/-- Both flows are deployed at the same time: each call copies the deployed flows before the other
call installs its copy. -/
def overlappingDeploys : List CallStep :=
  [.call (.deploy "a" 1), .call (.deploy "b" 2), .advance 0 .done, .advance 0 .done,
    .advance 1 .done, .advance 1 .done, .advance 0 .done, .advance 0 .done, .advance 0 .done,
    .advance 1 .done, .advance 1 .done, .advance 1 .done]

theorem overlapping_deploy_lost :
    (run CollectionState.step (.load twoDrafts) overlappingDeploys).AllReturned ∧
    ¬ (run CollectionState.step (.load twoDrafts) overlappingDeploys).Linear twoDrafts := by
  refine ⟨fun x hx => ?_, fun ⟨⟨order, hperm, hfold⟩, _⟩ => ?_⟩
  · obtain rfl | hx := List.mem_cons.1 hx
    · exact ⟨true, rfl⟩
    · obtain rfl := List.mem_singleton.1 hx
      exact ⟨true, rfl⟩
  · have horder : order ∈ [FlowRequest.deploy "a" 1, .deploy "b" 2].permutations' :=
      List.mem_permutations'.2 hperm
    -- both orders leave the flow `a` deployed
    have hlost := congrArg (Option.map fun c : Collections => (c.deployed "a").isSome) hfold
    obtain rfl | horder := List.mem_cons.1 horder
    · exact absurd hlost (by decide +kernel)
    · obtain rfl := List.mem_singleton.1 horder
      exact absurd hlost (by decide +kernel)

end

end OpcBridge.Flow
