import OpcBridge.Alarms.Json
import OpcBridge.Demand.Sources

/-!
# Registering demand

`ConsumerDemand::apply` checks a `register_demand` or `release_demand` message and only then changes
the scope of its owner. What a scope demands is `ConsumerScope.Covers`; merging scopes into the owner
objects and asking `consumer_demand_matches` gives back the union of what they cover
(`demands_mergeConsumerScope`).
-/

namespace OpcBridge

open Alarms (Json)

section
variable [Floats]

/-! ## Messages -/

/-- The first colon of a tag key is neither missing nor at one of its ends. -/
def demandKeyValid (key : String) : Bool :=
  let colon := (key.toList.takeWhile (· ≠ ':')).length
  colon ≠ key.length && colon ≠ 0 && colon + 1 ≠ key.length

def demandTagKeys : List Json → Option (Finset String)
  | [] => some ∅
  | .string key :: items =>
    if demandKeyValid key then (demandTagKeys items).map (insert key) else none
  | _ :: _ => none

def demandPatterns : List Json → Option (List (String × String))
  | [] => some []
  | item :: items =>
    match item.find "connection_id", item.find "name" with
    | some (.string cid), some (.string name) =>
      if cid = "" ∨ name = "" then none else (demandPatterns items).map ((cid, name) :: ·)
    | _, _ => none

/-- The scope that a `register_demand` message names, if the message is well formed. -/
def registeredScope (message : Json) : Option ConsumerScope := do
  let allTags ← match message.find "all_tags" with
    | none => some false
    | some (.bool allTags) => some allTags
    | some _ => none
  let tags ← match message.find "tags" with
    | none => if allTags then some ∅ else none
    | some (.array items) => if 100000 < items.length then none else demandTagKeys items
    | some _ => none
  let patterns ← match message.find "patterns" with
    | none => some []
    | some (.array items) => if 100000 < items.length then none else demandPatterns items
    | some _ => none
  some { allTags := allTags, tags := tags, patterns := patterns }

structure ConsumerDemand where
  owners : String → Option ConsumerScope := fun _ => none

/-- `ConsumerDemand::apply`; `none` is a rejected message, which changes nothing. -/
def ConsumerDemand.apply (demand : ConsumerDemand) (message : Json) : Option ConsumerDemand :=
  match message.find "owner", message.find "type" with
  | some (.string owner), some (.string type) =>
    if owner = "" ∨ 128 < owner.length then none
    else if type = "release_demand" then
      some { demand with owners := Function.update demand.owners owner none }
    else if type ≠ "register_demand" then none
    else (registeredScope message).map fun next =>
      { demand with owners := Function.update demand.owners owner (some next) }
  | _, _ => none

end

/-! ## What a scope demands -/

def ConsumerScope.Covers (scope : ConsumerScope) (cid name : String) : Prop :=
  scope.allTags = true ∨ makeTagKey cid name ∈ scope.tags ∨
    ∃ pattern ∈ scope.patterns, pattern.1 = cid ∧ consumerDemandGlob pattern.2 name = true

/-- An owner object demands the tag. -/
def OwnerDemands (owners : List (String × ConsumerOwner)) (owner cid name : String) : Prop :=
  ∃ o, owners.lookup owner = some o ∧ consumerDemandMatches o cid name = true

instance (owners : List (String × ConsumerOwner)) (owner cid name : String) :
    Decidable (OwnerDemands owners owner cid name) :=
  decidable_of_iff ((owners.lookup owner).any (consumerDemandMatches · cid name) = true) (by
    unfold OwnerDemands
    rw [Option.any_eq_true])

theorem consumerDemandMatches_iff {o : ConsumerOwner} {cid name : String} :
    consumerDemandMatches o cid name = true ↔
      o.allTagsRegistrations ≠ 0 ∨ o.tags (makeTagKey cid name) ≠ 0 ∨
        ∃ pattern ∈ o.patterns, pattern.1 = cid ∧ consumerDemandGlob pattern.2 name = true := by
  simp [consumerDemandMatches, or_assoc]

theorem matches_addScope {o : ConsumerOwner} {scope : ConsumerScope} {cid name : String} :
    consumerDemandMatches (o.addScope scope) cid name = true ↔
      consumerDemandMatches o cid name = true ∨ scope.Covers cid name := by
  rw [consumerDemandMatches_iff, consumerDemandMatches_iff]
  unfold ConsumerOwner.addScope ConsumerScope.Covers
  by_cases hall : scope.allTags = true
  · simp [hall]
  · simp only [hall, if_false, Bool.false_eq_true, List.mem_append, or_and_right, exists_or,
      false_or]
    by_cases hk : makeTagKey cid name ∈ scope.tags
    · simp [hk]
    · simp only [hk, if_false, false_or, or_assoc]

theorem matches_newOwner {cid name : String} : consumerDemandMatches {} cid name = false := by
  simp [consumerDemandMatches]

theorem lookup_mergeConsumerScope (owners : List (String × ConsumerOwner)) (name owner : String)
    (scope : ConsumerScope) :
    (mergeConsumerScope owners name scope).lookup owner =
      if name = owner then some (((owners.lookup owner).getD {}).addScope scope)
      else owners.lookup owner := by
  induction owners with
  | nil =>
    by_cases h : name = owner
    · subst h
      simp [mergeConsumerScope]
    · have : (owner == name) = false := by simpa using Ne.symm h
      simp [mergeConsumerScope, h, List.lookup_cons, this]
  | cons x owners ih =>
    obtain ⟨n, o⟩ := x
    unfold mergeConsumerScope
    by_cases hn : n = name
    · subst hn
      rw [if_pos rfl]
      by_cases h : n = owner
      · subst h
        simp
      · have : (owner == n) = false := by simpa using Ne.symm h
        simp [h, List.lookup_cons, this]
    · rw [if_neg hn]
      by_cases h : n = owner
      · subst h
        simp [Ne.symm hn]
      · have : (owner == n) = false := by simpa using Ne.symm h
        simp only [List.lookup_cons, this, ih]

/-- **Merging adds what the scope covers**, to its own owner alone. -/
theorem demands_mergeConsumerScope {owners : List (String × ConsumerOwner)}
    {name owner cid tag : String} {scope : ConsumerScope} :
    OwnerDemands (mergeConsumerScope owners name scope) owner cid tag ↔
      OwnerDemands owners owner cid tag ∨ name = owner ∧ scope.Covers cid tag := by
  unfold OwnerDemands
  rw [lookup_mergeConsumerScope]
  by_cases h : name = owner
  · rw [if_pos h]
    simp only [Option.some.injEq, exists_eq_left', matches_addScope, h, true_and]
    cases owners.lookup owner with
    | none => simp [matches_newOwner]
    | some o => simp
  · simp [h]

/-- The owner objects of a list of registrations. -/
theorem demands_foldl_merge {α : Type} (f : α → String × ConsumerScope) (entries : List α)
    (owners : List (String × ConsumerOwner)) {owner cid tag : String} :
    OwnerDemands (entries.foldl (fun owners e => mergeConsumerScope owners (f e).1 (f e).2) owners)
        owner cid tag ↔
      OwnerDemands owners owner cid tag ∨
        ∃ e ∈ entries, (f e).1 = owner ∧ (f e).2.Covers cid tag := by
  induction entries generalizing owners with
  | nil => simp
  | cons e entries ih =>
    rw [List.foldl_cons, ih, demands_mergeConsumerScope, or_assoc]
    simp

end OpcBridge
