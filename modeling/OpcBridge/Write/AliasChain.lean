import OpcBridge.Lib.Trail
import OpcBridge.Load.Build
import OpcBridge.Write.AliasText

/-!
# Aliases of aliases

`write_tag_by_name` calls itself for the source of an alias and stops there only for an alias of
itself. Every other circle of source tags is followed until the text that goes around it is refused:
`alias_write_returns_iff`. Without a circle there are no more calls than the connection has tags
(`writeTagByName_enough`).
-/

namespace OpcBridge

open Lib

section
variable [Floats] [FloatText]

/-- The alias of the name and its source, where the write goes on to the source. -/
def nextAlias (driver : DriverContext) (name : String) : Option (TagRuntime × TagRuntime) :=
  match findForWrite driver name with
  | none => none
  | some tag =>
    if tag.cfg.writable && tag.isDerivedAlias && tag.cfg.sourceTag != name then
      match driver.find tag.cfg.sourceTag with
      | none => none
      | some source => if source.cfg.writable then some (tag, source) else none
    else none

def nextSource (driver : DriverContext) (name : String) : Option String :=
  (nextAlias driver name).map fun hop => hop.1.cfg.sourceTag

/-- The call for the source, with the text it gets. -/
def handOn (driver : DriverContext) (call : String × String) : Option (String × String) :=
  match nextAlias driver call.1 with
  | none => none
  | some (tag, source) =>
    match sourceText driver tag source call.2 with
    | .error _ => none
    | .ok text => some (tag.cfg.sourceTag, text)

/-- The number of a scaled alias is not one for its source. -/
def Refused (driver : DriverContext) (call : String × String) : Prop :=
  ∃ tag source err, nextAlias driver call.1 = some (tag, source) ∧
    sourceText driver tag source call.2 = .error err

/-- The write comes to a call whose text is refused. -/
def ComesToRefused (driver : DriverContext) (call : String × String) : Prop :=
  ∃ refused, Relation.ReflTransGen (fun a b => handOn driver a = some b) call refused ∧
    Refused driver refused

variable {driver : DriverContext} {name text : String} {call next : String × String}
  {tag source : TagRuntime} {io : WriteIo}

/-! ## One call -/

theorem writeTagByName_last (h : nextAlias driver name = none) (fuel : Nat) :
    (writeTagByName io driver (fuel + 1) name text).isSome := by
  unfold nextAlias at h
  unfold writeTagByName
  split
  · split <;> rfl
  · rename_i tag htag
    rw [htag] at h
    dsimp only at h
    split
    · rfl
    · rename_i hwritable
      split
      · rename_i halias
        split
        · rfl
        · rename_i hself
          have hgo : (tag.cfg.writable && tag.isDerivedAlias && tag.cfg.sourceTag != name) = true := by
            simp_all
          rw [if_pos hgo] at h
          split
          · rfl
          · rename_i source hsource
            rw [hsource] at h
            dsimp only at h
            split
            · rfl
            · rename_i hsourceWritable
              rw [if_pos (by simpa using hsourceWritable)] at h
              cases h
      · rfl

theorem writeTagByName_hop (h : nextAlias driver name = some (tag, source)) (fuel : Nat) :
    writeTagByName io driver (fuel + 1) name text =
      match sourceText driver tag source text with
      | .error err => some (.error err)
      | .ok sourceValueText => (writeTagByName io driver fuel tag.cfg.sourceTag sourceValueText).map
          (throughAlias driver tag text) := by
  unfold nextAlias at h
  split at h
  · cases h
  · rename_i tag' htag
    split at h
    · rename_i hgo
      simp only [Bool.and_eq_true, bne_iff_ne] at hgo
      obtain ⟨⟨hwritable, halias⟩, hself⟩ := hgo
      split at h
      · cases h
      · rename_i source' hsource
        split at h
        · rename_i hsourceWritable
          cases h
          rw [writeTagByName, htag]
          cases hconvert : sourceText driver tag source text <;>
            simp only [hwritable, halias, hself, hsource, hsourceWritable, hconvert, Bool.not_true,
              Bool.false_eq_true, if_true, if_false]
        · cases h
    · cases h

/-- A call that hands nothing on answers by itself. -/
theorem writeTagByName_of_stop (h : handOn driver call = none) (fuel : Nat) :
    (writeTagByName io driver (fuel + 1) call.1 call.2).isSome := by
  unfold handOn at h
  split at h
  · rename_i hnone
    exact writeTagByName_last hnone fuel
  · rename_i tag source hsome
    split at h
    · rename_i err herr
      rw [writeTagByName_hop hsome, herr]
      rfl
    · cases h

theorem writeTagByName_of_hop (h : handOn driver call = some next) (fuel : Nat) :
    (writeTagByName io driver (fuel + 1) call.1 call.2).isSome =
      (writeTagByName io driver fuel next.1 next.2).isSome := by
  unfold handOn at h
  split at h
  · cases h
  · rename_i tag source hsome
    split at h
    · cases h
    · rename_i sourceValueText hok
      cases h
      rw [writeTagByName_hop hsome, hok]
      exact Option.isSome_map

/-! ## All calls -/

theorem writeTagByName_of_ends {n : Nat} {last : String × String}
    (h : Ends (handOn driver) call n last) (fuel : Nat) :
    (writeTagByName io driver (n + fuel + 1) call.1 call.2).isSome := by
  induction h with
  | here hstop => exact writeTagByName_of_stop hstop _
  | @step a b c n hhop hb ih =>
    rw [Nat.add_right_comm n 1 fuel, writeTagByName_of_hop hhop]
    exact ih

theorem ends_of_writeTagByName {fuel : Nat} (call : String × String)
    (h : (writeTagByName io driver fuel call.1 call.2).isSome) :
    ∃ n last, Ends (handOn driver) call n last := by
  induction fuel generalizing call with
  | zero => cases h
  | succ fuel ih =>
    cases hhop : handOn driver call with
    | none => exact ⟨0, call, .here hhop⟩
    | some next =>
      rw [writeTagByName_of_hop hhop] at h
      obtain ⟨n, last, hends⟩ := ih next h
      exact ⟨n + 1, last, .step hhop hends⟩

/-! ## The chain of source tags -/

theorem nextSource_of_handOn (h : handOn driver call = some next) :
    nextSource driver call.1 = some next.1 := by
  unfold handOn at h
  unfold nextSource
  split at h
  · cases h
  · rename_i tag source hsome
    split at h
    · cases h
    · cases h
      rw [hsome]
      rfl

/-- The calls end with the chain of source tags or with a text that is refused. -/
theorem ends_handOn_of_ends {n : Nat} {last : String} (h : Ends (nextSource driver) name n last) :
    ∀ text, ∃ k c, Ends (handOn driver) (name, text) k c ∧ k ≤ n := by
  induction h with
  | @here a hnone =>
    intro text
    have hstop : handOn driver (a, text) = none := by
      cases hhop : handOn driver (a, text) with
      | none => rfl
      | some next => exact absurd (nextSource_of_handOn hhop) (by simp [hnone])
    exact ⟨0, _, .here hstop, Nat.le_refl 0⟩
  | @step a b c n hnext hb ih =>
    intro text
    cases hhop : handOn driver (a, text) with
    | none => exact ⟨0, _, .here hhop, Nat.zero_le _⟩
    | some next =>
      obtain rfl : next.1 = b :=
        Option.some.inj ((nextSource_of_handOn hhop).symm.trans hnext)
      obtain ⟨k, c, hends, hk⟩ := ih next.2
      exact ⟨k + 1, c, .step hhop hends, by omega⟩

theorem ends_or_refused {n : Nat} {last : String × String}
    (h : Ends (handOn driver) call n last) :
    (∃ n last, Ends (nextSource driver) call.1 n last) ∨ ComesToRefused driver call := by
  induction h with
  | @here call hstop =>
    unfold handOn at hstop
    split at hstop
    · rename_i hnone
      exact .inl ⟨0, call.1, .here (by rw [nextSource, hnone]; rfl)⟩
    · rename_i tag source hsome
      split at hstop
      · rename_i err herr
        exact .inr ⟨call, .refl, tag, source, err, hsome, herr⟩
      · cases hstop
  | step hhop hb ih =>
    rcases ih with ⟨n, last, hends⟩ | ⟨refused, hreach, hrefused⟩
    · exact .inl ⟨n + 1, last, .step (nextSource_of_handOn hhop) hends⟩
    · exact .inr ⟨refused, hreach.head hhop, hrefused⟩

omit [FloatText] in
/-- A tag made up for a bit is no alias. -/
theorem find_of_isDerivedAlias (h : findForWrite driver name = some tag)
    (halias : tag.isDerivedAlias = true) : driver.find name = some tag := by
  unfold findForWrite at h
  split at h
  · rename_i tag' hfind
    cases h
    exact hfind
  · split at h
    · cases h
    · split at h
      · cases h
      · cases h
        simp [TagRuntime.isDerivedAlias] at halias

omit [FloatText] in
/-- Only the name of a tag of the connection has a next source. -/
theorem mem_of_nextSource (h : nextSource driver name ≠ none) :
    name ∈ (driver.tags.map TagRuntime.name).toFinset := by
  unfold nextSource nextAlias at h
  split at h
  · exact absurd rfl h
  · rename_i tag htag
    split at h
    · rename_i hgo
      simp only [Bool.and_eq_true] at hgo
      obtain ⟨hmem, rfl⟩ := DriverContext.find_eq_some.1 (find_of_isDerivedAlias htag hgo.1.2)
      exact List.mem_toFinset.2 (List.mem_map_of_mem hmem)
    · exact absurd rfl h

/-- **No circle, enough calls.** -/
theorem writeTagByName_enough (h : ¬ Circles (nextSource driver) name) (text : String) :
    (writeTagByName io driver (driver.tags.length + 1) name text).isSome := by
  obtain ⟨n, last, hends, hn⟩ := exists_ends (fun _ => mem_of_nextSource) h
  obtain ⟨k, c, hcalls, hk⟩ := ends_handOn_of_ends hends text
  have hcard : (driver.tags.map TagRuntime.name).toFinset.card ≤ driver.tags.length :=
    (List.toFinset_card_le _).trans_eq (List.length_map _)
  rw [show driver.tags.length + 1 = k + (driver.tags.length - k) + 1 by omega]
  exact writeTagByName_of_ends hcalls _

theorem Refused.ends (h : Refused driver call) : handOn driver call = none := by
  obtain ⟨tag, source, err, hhop, herr⟩ := h
  simp [handOn, hhop, herr]

theorem ends_of_comesToRefused (h : ComesToRefused driver call) :
    ∃ n last, Ends (handOn driver) call n last := by
  obtain ⟨refused, hreach, hrefused⟩ := h
  induction hreach using Relation.ReflTransGen.head_induction_on with
  | refl => exact ⟨0, refused, .here hrefused.ends⟩
  | head hhop _ ih =>
    obtain ⟨n, last, hends⟩ := ih
    exact ⟨n + 1, last, .step hhop hends⟩

/-- **When a write returns.** The source tags come to no circle, or the text that goes around it is
refused. -/
theorem alias_write_returns_iff (freshnessEpoch : Nat) (conn : ConnectionConfig)
    (tagCfgs : List TagConfig) (io : WriteIo) (name text : String) :
    (∃ fuel, (writeTagByName io (buildDriverContextForConnection freshnessEpoch conn tagCfgs) fuel
      name text).isSome) ↔
    ¬ Circles (nextSource (buildDriverContextForConnection freshnessEpoch conn tagCfgs)) name ∨
      ComesToRefused (buildDriverContextForConnection freshnessEpoch conn tagCfgs) (name, text) := by
  generalize buildDriverContextForConnection freshnessEpoch conn tagCfgs = driver
  constructor
  · rintro ⟨fuel, h⟩
    obtain ⟨n, last, hends⟩ := ends_of_writeTagByName (name, text) h
    refine (ends_or_refused hends).imp_left fun hchain => ?_
    exact (exists_ends_iff fun _ => mem_of_nextSource).1 hchain
  · rintro (h | h)
    · exact ⟨_, writeTagByName_enough h text⟩
    · obtain ⟨n, last, hends⟩ := ends_of_comesToRefused h
      exact ⟨_, writeTagByName_of_ends hends 0⟩

end

section
attribute [local instance] doubles decimalText

def aliasTag (name source : String) (hname : name ≠ "") : TagConfig where
  logicalName := name
  logicalName_ne := hname
  datatype := "int16"
  sourceType := "derived"
  sourceTag := source
  writable := true

/-- Two aliases, each of the other. -/
theorem a_ne : "A" ≠ "" := by decide

theorem b_ne : "B" ≠ "" := by decide

def circleTags : List TagConfig := [aliasTag "A" "B" a_ne, aliasTag "B" "A" b_ne]

def circleConnection : ConnectionConfig := { id := "PLC", driver := "modbus_tcp" }

def circleDriver : DriverContext :=
  buildDriverContextForConnection 0 circleConnection circleTags

/-- A write of one of two aliases of each other never returns. -/
theorem circle_never_returns : ¬ ∀ (freshnessEpoch : Nat) (conn : ConnectionConfig)
    (tagCfgs : List TagConfig) (io : WriteIo) (name text : String),
    (findForWrite (buildDriverContextForConnection freshnessEpoch conn tagCfgs) name).any
      TagRuntime.isDerivedAlias →
    ∃ fuel, (writeTagByName io (buildDriverContextForConnection freshnessEpoch conn tagCfgs) fuel
      name text).isSome := by
  intro h
  have hab : handOn circleDriver ("A", "5") = some ("B", "5") := by decide +kernel
  have hba : handOn circleDriver ("B", "5") = some ("A", "5") := by decide +kernel
  have hcircle : ∀ fuel, (writeTagByName quietIo circleDriver fuel "A" "5").isSome = false ∧
      (writeTagByName quietIo circleDriver fuel "B" "5").isSome = false := by
    intro fuel
    induction fuel with
    | zero => exact ⟨rfl, rfl⟩
    | succ fuel ih =>
      obtain ⟨ha, hb⟩ := ih
      exact ⟨(writeTagByName_of_hop hab fuel).trans hb, (writeTagByName_of_hop hba fuel).trans ha⟩
  obtain ⟨fuel, hfuel⟩ := h 0 circleConnection circleTags quietIo "A" "5" (by decide +kernel)
  exact Bool.false_ne_true ((hcircle fuel).1.symm.trans hfuel)

end

end OpcBridge
