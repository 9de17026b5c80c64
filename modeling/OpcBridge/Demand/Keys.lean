import OpcBridge.Demand.Register
import OpcBridge.Lib.Split

/-!
# Tag keys in messages

A message that registers demand names its tags by keys `connection:name`. A key is accepted if its
first colon has something on both sides (`demandKeyValid_iff`); a message made of a list of keys and
a list of patterns is accepted if every key is and neither list is too long (`registeredScope_eq`).
-/

namespace OpcBridge

open Lib
open Alarms (Json)

/-! ## Keys -/

/-- `s.find(c)` with what is before and after it. -/
def cutAt (c : Char) (s : String) : Option (String × String) :=
  (splitFirst c s.toList).map fun cut => (String.ofList cut.1, String.ofList cut.2)

theorem cutAt_eq_some {c : Char} {s a b : String} :
    cutAt c s = some (a, b) ↔ c ∉ a.toList ∧ s.toList = a.toList ++ c :: b.toList := by
  unfold cutAt
  constructor
  · intro h
    obtain ⟨cut, hcut, heq⟩ := Option.map_eq_some_iff.1 h
    simp only [Prod.mk.injEq] at heq
    obtain ⟨rfl, rfl⟩ := heq
    simpa using splitFirst_eq_some.1 hcut
  · intro h
    rw [splitFirst_eq_some.2 h]
    simp

theorem makeTagKey_toList (cid name : String) :
    (makeTagKey cid name).toList = cid.toList ++ ':' :: name.toList := by
  simp [makeTagKey]

theorem demandKeyValid_iff {key : String} :
    demandKeyValid key = true ↔ ∃ a b, cutAt ':' key = some (a, b) ∧ a ≠ "" ∧ b ≠ "" := by
  unfold demandKeyValid
  dsimp only
  rw [← String.length_toList]
  cases hcut : splitFirst ':' key.toList with
  | none =>
    rw [takeWhile_of_notMem (splitFirst_eq_none.1 hcut)]
    simp [cutAt, hcut]
  | some cut =>
    obtain ⟨a, b⟩ := cut
    obtain ⟨hno, heq⟩ := splitFirst_eq_some.1 hcut
    have hlengths : (a.length ≠ a.length + (b.length + 1) ∧ a.length ≠ 0 ∧
        a.length + 1 ≠ a.length + (b.length + 1)) ↔ a ≠ [] ∧ b ≠ [] := by
      rw [← List.length_pos_iff, ← List.length_pos_iff]
      omega
    rw [heq, takeWhile_append_sep hno]
    simp only [cutAt, hcut, Option.map_some, Option.some.injEq, Prod.mk.injEq, List.length_append,
      List.length_cons, Bool.and_eq_true, decide_eq_true_eq, and_assoc, hlengths]
    constructor
    · intro ⟨ha, hb⟩
      exact ⟨_, _, rfl, rfl, by simpa using ha, by simpa using hb⟩
    · rintro ⟨_, _, rfl, rfl, ha, hb⟩
      exact ⟨by simpa using ha, by simpa using hb⟩

/-- The key of a tag is accepted unless its connection id begins with a colon. -/
theorem demandKeyValid_makeTagKey {cid name : String} (hcid : cid ≠ "") (hname : name ≠ "") :
    demandKeyValid (makeTagKey cid name) = true ↔ cid.toList.head? ≠ some ':' := by
  have hcid : cid.toList ≠ [] := by simpa using hcid
  have hname : name.toList ≠ [] := by simpa using hname
  rw [demandKeyValid_iff]
  by_cases hcolon : ':' ∈ cid.toList
  · obtain ⟨a, b, hcut⟩ := exists_splitFirst hcolon
    obtain ⟨hno, heq⟩ := splitFirst_eq_some.1 hcut
    have hkey : splitFirst ':' (makeTagKey cid name).toList =
        some (a, b ++ ':' :: name.toList) := by
      rw [makeTagKey_toList, heq, List.append_assoc]
      exact splitFirst_append hno
    rw [cutAt, hkey, heq]
    cases a with
    | nil => simp
    | cons c a =>
      simp only [List.mem_cons, not_or] at hno
      simp [Ne.symm hno.1]
  · have hkey := splitFirst_append (b := name.toList) hcolon
    rw [← makeTagKey_toList] at hkey
    rw [cutAt, hkey]
    constructor
    · intro _ hhead
      exact hcolon (List.mem_of_mem_head? hhead)
    · intro _
      exact ⟨_, _, rfl, by simpa using hcid, by simpa using hname⟩

/-! ## Messages -/

section
variable [Floats]

def patternJson (pattern : String × String) : Json :=
  .object [("connection_id", .string pattern.1), ("name", .string pattern.2)]

/-- A list of keys that a message may have. -/
structure KeysAccepted (keys : List String) : Prop where
  few : keys.length ≤ 100000
  valid : ∀ key ∈ keys, demandKeyValid key = true

instance (keys : List String) : Decidable (KeysAccepted keys) :=
  decidable_of_iff (keys.length ≤ 100000 ∧ ∀ key ∈ keys, demandKeyValid key = true)
    ⟨fun h => ⟨h.1, h.2⟩, fun h => ⟨h.few, h.valid⟩⟩

omit [Floats] in
theorem keysAccepted_nil : KeysAccepted [] := ⟨by decide, by simp⟩

theorem demandTagKeys_strings (keys : List String) :
    demandTagKeys (keys.map .string) =
      if ∀ key ∈ keys, demandKeyValid key = true then some keys.toFinset else none := by
  induction keys with
  | nil => simp [demandTagKeys]
  | cons key keys ih =>
    rw [List.map_cons, demandTagKeys, ih]
    by_cases hkey : demandKeyValid key = true
    · by_cases hkeys : ∀ key ∈ keys, demandKeyValid key = true
      · rw [if_pos hkeys, if_pos hkey, if_pos (by simpa [hkey] using hkeys)]
        simp
      · simp [hkey, hkeys]
    · simp [hkey]

theorem demandPatterns_objects {patterns : List (String × String)}
    (h : ∀ pattern ∈ patterns, pattern.1 ≠ "" ∧ pattern.2 ≠ "") :
    demandPatterns (patterns.map patternJson) = some patterns := by
  induction patterns with
  | nil => rfl
  | cons pattern patterns ih =>
    have hpattern := h pattern List.mem_cons_self
    have hcid : (patternJson pattern).find "connection_id" = some (.string pattern.1) := rfl
    have hname : (patternJson pattern).find "name" = some (.string pattern.2) := rfl
    rw [List.map_cons, demandPatterns, hcid, hname, ih fun p hp => h p (List.mem_cons_of_mem _ hp)]
    simp [hpattern]

/-- What a message of keys and patterns registers. -/
theorem registeredScope_eq {message : Json} {allTags : Bool} {keys : List String}
    {patterns : List (String × String)} (hall : message.find "all_tags" = some (.bool allTags))
    (hkeys : message.find "tags" = some (.array (keys.map .string)))
    (hpatterns : message.find "patterns" = some (.array (patterns.map patternJson)) ∨
      message.find "patterns" = none ∧ patterns = [])
    (hnamed : ∀ pattern ∈ patterns, pattern.1 ≠ "" ∧ pattern.2 ≠ "") :
    registeredScope message =
      if KeysAccepted keys ∧ patterns.length ≤ 100000 then
        some { allTags := allTags, tags := keys.toFinset, patterns := patterns }
      else none := by
  unfold registeredScope
  rw [hall, hkeys]
  dsimp only [bind, Option.bind]
  rw [List.length_map, demandTagKeys_strings]
  by_cases hacc : KeysAccepted keys
  · have hfew := hacc.few
    rw [if_neg (by omega), if_pos hacc.valid]
    obtain hfind | ⟨hfind, rfl⟩ := hpatterns
    · rw [hfind]
      dsimp only
      rw [List.length_map, demandPatterns_objects hnamed]
      by_cases hpat : patterns.length ≤ 100000
      · rw [if_neg (by omega), if_pos ⟨hacc, hpat⟩]
      · rw [if_pos (by omega), if_neg fun h => hpat h.2]
    · rw [hfind, if_pos ⟨hacc, by simp⟩]
  · rw [if_neg fun h : _ ∧ _ => hacc h.1]
    by_cases hfew : keys.length ≤ 100000
    · rw [if_neg (by omega), if_neg fun h => hacc ⟨hfew, h⟩]
    · rw [if_pos (by omega)]

/-- The tags that an owner demands by a message on a new connection. -/
def MessageDemands (message : Json) (cid name : String) : Prop :=
  ∃ demand owner scope, ({} : ConsumerDemand).apply message = some demand ∧
    demand.owners owner = some scope ∧
    OwnerDemands (mergeConsumerScope [] owner scope) owner cid name

theorem apply_register {message : Json} {owner : String}
    (howner : message.find "owner" = some (.string owner)) (hlen : owner ≠ "" ∧ owner.length ≤ 128)
    (htype : message.find "type" = some (.string "register_demand")) (demand : ConsumerDemand) :
    demand.apply message = (registeredScope message).map fun next =>
      { demand with owners := Function.update demand.owners owner (some next) } := by
  unfold ConsumerDemand.apply
  rw [howner, htype]
  dsimp only
  rw [if_neg (by simp [hlen.1, hlen.2]), if_neg (by decide), if_neg (by simp)]

theorem messageDemands_iff {message : Json} {owner cid name : String}
    (howner : message.find "owner" = some (.string owner)) (hlen : owner ≠ "" ∧ owner.length ≤ 128)
    (htype : message.find "type" = some (.string "register_demand")) :
    MessageDemands message cid name ↔
      ∃ scope, registeredScope message = some scope ∧ scope.Covers cid name := by
  unfold MessageDemands
  rw [apply_register howner hlen htype]
  constructor
  · intro ⟨demand, owner', scope, happly, hscope, hdemands⟩
    obtain ⟨next, hnext, rfl⟩ := Option.map_eq_some_iff.1 happly
    dsimp only at hscope
    by_cases ho : owner' = owner
    · subst ho
      rw [Function.update_self, Option.some.injEq] at hscope
      subst hscope
      refine ⟨_, hnext, ?_⟩
      simpa [OwnerDemands] using demands_mergeConsumerScope.1 hdemands
    · rw [Function.update_of_ne ho] at hscope
      cases hscope
  · intro ⟨scope, hscope, hcovers⟩
    rw [hscope]
    refine ⟨_, owner, scope, rfl, Function.update_self .., ?_⟩
    exact demands_mergeConsumerScope.2 (.inr ⟨rfl, hcovers⟩)

end

end OpcBridge
