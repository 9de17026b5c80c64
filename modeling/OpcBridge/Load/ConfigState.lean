import OpcBridge.Alarms.Json
import OpcBridge.Lib.Assign
import Mathlib.Data.String.Basic

/-!
# Saved and applied configuration

`RuntimeConfigState` compares the saved connection and tag files with the ones that a reload last
acknowledged. A full reload acknowledges its whole snapshot, a reload of one connection the files
that the connection owns, where the owner of a file is read from its content. `find_applied` says
what becomes of each file, and all later results go through it.
-/

namespace OpcBridge

open Lib
open Alarms (Json)

section
variable [Floats]

/-! ## Values -/

mutual

/-- nlohmann's `a == b`: the members of an object are in the order of their keys. -/
def jsonEq : Json → Json → Bool
  | .null, .null => true
  | .bool a, .bool b => a == b
  | .string a, .string b => a == b
  | .int a, .int b => a == b
  | .uint a, .uint b => a == b
  | .float a, .float b => Floats.eq a b
  | .int a, .uint b => a == (Int64.ofNat b).toInt
  | .uint a, .int b => (Int64.ofNat a).toInt == b
  | .int a, .float b => Floats.eq (Floats.ofInt a) b
  | .float a, .int b => Floats.eq a (Floats.ofInt b)
  | .uint a, .float b => Floats.eq (Floats.ofInt a) b
  | .float a, .uint b => Floats.eq a (Floats.ofInt b)
  | .array a, .array b => jsonEqItems a b
  | .object a, .object b => jsonEqFields a b
  | _, _ => false

def jsonEqItems : List Json → List Json → Bool
  | [], [] => true
  | a :: as, b :: bs => jsonEq a b && jsonEqItems as bs
  | _, _ => false

def jsonEqFields : List (String × Json) → List (String × Json) → Bool
  | [], [] => true
  | (k, a) :: as, (l, b) :: bs => k == l && jsonEq a b && jsonEqFields as bs
  | _, _ => false

end

theorem jsonEq_string {s : String} {v : Json} : jsonEq (.string s) v = true ↔ v = .string s := by
  cases v with
  | string t => simp [jsonEq, @eq_comm _ s]
  | _ => simp [jsonEq]

theorem string_jsonEq {s : String} {v : Json} : jsonEq v (.string s) = true ↔ v = .string s := by
  cases v <;> simp [jsonEq]

theorem jsonEqFields_lookup {a b : List (String × Json)} (h : jsonEqFields a b = true)
    (key s : String) : a.lookup key = some (.string s) ↔ b.lookup key = some (.string s) := by
  induction a generalizing b with
  | nil =>
    cases b with
    | nil => rfl
    | cons y b => cases h
  | cons x a ih =>
    cases b with
    | nil => cases h
    | cons y b =>
      obtain ⟨k, v⟩ := x
      obtain ⟨l, w⟩ := y
      simp only [jsonEqFields, Bool.and_eq_true, beq_iff_eq] at h
      obtain ⟨⟨rfl, hv⟩, hrest⟩ := h
      rw [List.lookup_cons, List.lookup_cons]
      split
      · constructor
        · intro hs
          rw [Option.some.injEq] at hs
          subst hs
          rw [jsonEq_string.1 hv]
        · intro hs
          rw [Option.some.injEq] at hs
          subst hs
          rw [string_jsonEq.1 hv]
      · exact ih hrest

/-- Equal values have the same string members. -/
theorem jsonEq_find {a b : Json} (h : jsonEq a b = true) (key s : String) :
    a.find key = some (.string s) ↔ b.find key = some (.string s) := by
  cases a with
  | object fields =>
    cases b with
    | object fields' =>
      simp only [jsonEq] at h
      exact jsonEqFields_lookup h key s
    | _ => cases h
  | _ => cases b <;> first | rfl | cases h

/-! ## Snapshots -/

/-- The saved files by `directory/name`. -/
abbrev Files := SortedMap String Json

structure ConfigSnapshot where
  files : Files
  error : String := ""

/-- A listing of the directories `connections` and `tags`, in the order of the iteration: the files
with the right extension, each with what reading it gives, `none` for an exception. -/
abbrev Listing := List (String × Option Json)

/-- `capture`: the first unreadable file ends it. -/
def capture (listing : Listing) : ConfigSnapshot :=
  let read := listing.takeWhile fun file => file.2.isSome
  { files := SortedMap.ofList (read.filterMap fun file => file.2.map fun v => (file.1, v))
    error :=
      if read.length = listing.length then ""
      else "Could not read saved connection/tag configuration." }

/-- The connection that a file belongs to. -/
def owner (file : String) (content : Json) : Option String :=
  match content.find (if "connections/".toList.isPrefixOf file.toList then "id" else "connection_id") with
  | some (.string c) => some c
  | _ => none

theorem owner_eq_some {file c : String} {v : Json} : owner file v = some c ↔
    v.find (if "connections/".toList.isPrefixOf file.toList then "id" else "connection_id") =
      some (.string c) := by
  unfold owner
  split <;> rename_i h
  · rw [h]
    simp
  · simp only [reduceCtorEq, false_iff]
    exact fun hc => h c hc

/-- Equal contents have one owner. -/
theorem owner_congr {file : String} {v w : Json} (h : jsonEq v w = true) :
    owner file v = owner file w := by
  refine Option.ext fun c => ?_
  rw [owner_eq_some, owner_eq_some]
  exact jsonEq_find h _ c

def belongs (connection file : String) (content : Json) : Bool := owner file content == some connection

structure RuntimeConfigState where
  applied : Files := {}
  initialized : Bool := false

namespace RuntimeConfigState

/-- `applied`; the full reload has the empty connection. -/
def apply (state : RuntimeConfigState) (loaded : ConfigSnapshot) (connection : String) :
    RuntimeConfigState :=
  if loaded.error ≠ "" then state
  else if connection = "" then { applied := loaded.files, initialized := true }
  else
    let kept := state.applied.filter fun file content => !belongs connection file content
    { state with
      applied := (loaded.files.entries.filter fun x => belongs connection x.1 x.2).foldl
        (fun files x => files.insertNew x.1 x.2) kept }

def pending (state : RuntimeConfigState) (saved : ConfigSnapshot) : Bool :=
  !state.initialized || saved.error != "" || !saved.files.eqBy jsonEq state.applied

end RuntimeConfigState

/-- What a reload of one connection makes of a file, given the content that was acknowledged before
and the content in the snapshot. -/
def appliedContent (connection file : String) (old new : Option Json) : Option Json :=
  (old.filter fun v => !belongs connection file v).or
    (new.filter fun v => belongs connection file v)

theorem find_applied {state : RuntimeConfigState} {loaded : ConfigSnapshot} {connection : String}
    (herr : loaded.error = "") (hc : connection ≠ "") (file : String) :
    (state.apply loaded connection).applied.find file =
      appliedContent connection file (state.applied.find file) (loaded.files.find file) := by
  unfold RuntimeConfigState.apply appliedContent
  rw [if_neg (by simp [herr]), if_neg hc]
  dsimp only
  have hnodup : ((loaded.files.entries.filter fun x => belongs connection x.1 x.2).map
      Prod.fst).Nodup := (loaded.files.filter (belongs connection)).keys_nodup
  rw [SortedMap.find_foldl_insertNew _ _ _ hnodup, SortedMap.find_filter]
  congr 1
  exact SortedMap.find_filter _ _ _

theorem apply_full {state : RuntimeConfigState} {loaded : ConfigSnapshot}
    (herr : loaded.error = "") : state.apply loaded "" =
      { applied := loaded.files, initialized := true } := by
  unfold RuntimeConfigState.apply
  rw [if_neg (by simp [herr]), if_pos rfl]

theorem apply_error {state : RuntimeConfigState} {loaded : ConfigSnapshot} {connection : String}
    (herr : loaded.error ≠ "") : state.apply loaded connection = state := if_pos herr

theorem apply_initialized {state : RuntimeConfigState} {loaded : ConfigSnapshot}
    {connection : String} (h : state.initialized = true) :
    (state.apply loaded connection).initialized = true := by
  unfold RuntimeConfigState.apply
  split
  · exact h
  · split
    · rfl
    · exact h

theorem pending_eq_false {state : RuntimeConfigState} {saved : ConfigSnapshot} :
    state.pending saved = false ↔ state.initialized = true ∧ saved.error = "" ∧
      saved.files.eqBy jsonEq state.applied = true := by
  simp [RuntimeConfigState.pending, and_assoc]

end

end OpcBridge
