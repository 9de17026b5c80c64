import OpcBridge.Core.Value
import OpcBridge.Lib.Run
import Mathlib.Data.Finset.Card
import Mathlib.Data.List.TakeWhile

/-!
# The active sweep of a connection

`ActiveSweep` measures how long one round over the active sources takes. All lanes of a connection
report into it, in any order. The state keeps no list of reads, so what it measures is said over the
calls: `roundReads` are the reads of a round, `OpenRound` ties the state to the calls since the round
began, and `Recorded` says which round a sample is the length of (`sweep_correct`).
-/

namespace OpcBridge

open Lib

section
variable [Floats]

/-- `duration<double, std::milli>` of a number of nanoseconds. -/
def durationMs (ns : Int) : F64 := Floats.div (Floats.ofInt ns) (Floats.ofInt 1000000)

/-- A time span that is not negative is not negative in milliseconds. -/
def MsNonneg : Prop := ∀ ns : Int, 0 ≤ ns → Floats.lt (durationMs ns) (Floats.ofInt 0) = false

structure ActiveSweep where
  active : Finset String := ∅
  seen : Finset String := ∅
  epoch : Nat := 0
  cycles : Nat := 0
  primed : Bool := false
  lastMs : F64 := Floats.ofInt 0
  boundary : Int := 0
  latest : Int := 0
  samplesLast : Int := 0
  /-- Finish and length of the rounds of the last minute. -/
  samples : List (Int × F64) := []

namespace ActiveSweep

def reset (s : ActiveSweep) (now : Int) : ActiveSweep :=
  { s with
    boundary := now, latest := now, seen := ∅, samples := [], primed := false, cycles := 0
    lastMs := Floats.ofInt 0 }

def configure (s : ActiveSweep) (names : Finset String) (epoch : Nat) (now : Int) : ActiveSweep :=
  { s with epoch := epoch, active := names }.reset now

def setActive (s : ActiveSweep) (name : String) (active : Bool) (epoch : Nat) (now : Int) :
    ActiveSweep :=
  if epoch ≠ s.epoch then s
  else if active then
    if name ∈ s.active then s else { s with active := insert name s.active }.reset now
  else if name ∈ s.active then { s with active := s.active.erase name }.reset now
  else s

/-- The end of a round: it is a sample unless it is the first one. -/
def closeRound (s : ActiveSweep) : ActiveSweep :=
  let finished := s.latest
  let s :=
    if s.primed then
      let lastMs := durationMs (finished - s.boundary)
      { s with
        lastMs := lastMs, samples := s.samples ++ [(finished, lastMs)], samplesLast := finished
        cycles := s.cycles + 1 }
    else s
  { s with
    primed := true, boundary := finished, seen := ∅
    samples := s.samples.dropWhile fun sample => decide (60000000000 < finished - sample.1) }

def completed (s : ActiveSweep) (name : String) (epoch : Nat) (started finished : Int) :
    ActiveSweep :=
  if epoch ≠ s.epoch ∨ name ∉ s.active ∨ started < s.boundary ∨ finished < started then s
  else
    let s := { s with
      latest := if s.latest < finished then finished else s.latest
      seen := insert name s.seen }
    if s.seen.card ≠ s.active.card then s else s.closeRound

end ActiveSweep

inductive SweepCall
  | configure (names : Finset String) (epoch : Nat) (now : Int)
  | setActive (name : String) (active : Bool) (epoch : Nat) (now : Int)
  | completed (name : String) (epoch : Nat) (started finished : Int)

def ActiveSweep.call (s : ActiveSweep) : SweepCall → ActiveSweep
  | .configure names epoch now => s.configure names epoch now
  | .setActive name active epoch now => s.setActive name active epoch now
  | .completed name epoch started finished => s.completed name epoch started finished

def sweepAfter (calls : List SweepCall) : ActiveSweep := run ActiveSweep.call {} calls

theorem sweepAfter_snoc (calls : List SweepCall) (call : SweepCall) :
    sweepAfter (calls ++ [call]) = (sweepAfter calls).call call := by
  unfold sweepAfter
  rw [run_append]
  rfl

/-! ## Rounds -/

structure SweepRead where
  name : String
  started : Int
  finished : Int

/-- The read that a call reports into the round of `s`: of its epoch, by an active source, and
started at the boundary or later. -/
def ActiveSweep.read (s : ActiveSweep) : SweepCall → Option SweepRead
  | .completed name epoch started finished =>
    if epoch = s.epoch ∧ name ∈ s.active ∧ s.boundary ≤ started ∧ started ≤ finished then
      some ⟨name, started, finished⟩
    else none
  | _ => none

/-- The reads of a round that began in `s`. -/
def roundReads (s : ActiveSweep) (calls : List SweepCall) : List SweepRead := calls.filterMap s.read

/-- `finish` is the latest finish of these reads. -/
structure LatestFinish (reads : List SweepRead) (finish : Int) : Prop where
  attained : ∃ read ∈ reads, read.finished = finish
  bound : ∀ read ∈ reads, read.finished ≤ finish

/-- The same work: active sources and driver. -/
def SameWork (s t : ActiveSweep) : Prop := s.active = t.active ∧ s.epoch = t.epoch

/-- The work was the one of `t` all the time since the calls `before`. -/
def WorkKept (calls before : List SweepCall) (t : ActiveSweep) : Prop :=
  ∀ mid, before <+: mid → mid <+: calls → SameWork (sweepAfter mid) t

/-- What a sample is: the calls have a round in them that began after `before` with no source seen,
since when the work never changed, in which every active source of `t` reported a read, and the
sample holds its latest finish and the time from its boundary to there. -/
structure Recorded (calls : List SweepCall) (t : ActiveSweep) (sample : Int × F64)
    (before round : List SweepCall) : Prop where
  part : before ++ round <+: calls
  fresh : (sweepAfter before).seen = ∅
  kept : WorkKept calls before t
  all : ∀ name ∈ t.active, ∃ read ∈ roundReads (sweepAfter before) round, read.name = name
  finish : LatestFinish (roundReads (sweepAfter before) round) sample.1
  length : sample.2 = durationMs (sample.1 - (sweepAfter before).boundary)
  forward : (sweepAfter before).boundary ≤ sample.1

/-- The round that is going on. -/
structure OpenRound (calls : List SweepCall) (t : ActiveSweep) (before round : List SweepCall) :
    Prop where
  split : calls = before ++ round
  fresh : (sweepAfter before).seen = ∅
  kept : WorkKept calls before t
  boundary : t.boundary = (sweepAfter before).boundary
  seen : ∀ name, name ∈ t.seen ↔ ∃ read ∈ roundReads (sweepAfter before) round, read.name = name
  latest : roundReads (sweepAfter before) round = [] ∧ t.latest = t.boundary ∨
    LatestFinish (roundReads (sweepAfter before) round) t.latest

/-- What holds in every state that the calls reach. -/
structure SweepInv (calls : List SweepCall) (t : ActiveSweep) : Prop where
  strict : t.seen ⊂ t.active ∨ t.seen = ∅ ∧ t.active = ∅
  going : ∃ before round, OpenRound calls t before round
  samples : ∀ sample ∈ t.samples, ∃ before round, Recorded calls t sample before round
  primed : t.cycles ≠ 0 → t.primed = true
  last : t.cycles ≠ 0 → (t.samplesLast, t.lastMs) ∈ t.samples

theorem WorkKept.snoc {calls before : List SweepCall} {t : ActiveSweep} {call : SweepCall}
    (h : WorkKept calls before t) (hs : SameWork ((sweepAfter calls).call call) t) :
    WorkKept (calls ++ [call]) before t := by
  intro mid hb hm
  obtain rfl | hm := List.prefix_concat_iff.1 hm
  · rw [sweepAfter_snoc]
    exact hs
  · exact h mid hb hm

theorem WorkKept.congr {calls before : List SweepCall} {t u : ActiveSweep}
    (h : WorkKept calls before t) (hs : SameWork t u) : WorkKept calls before u :=
  fun mid hb hm => ⟨(h mid hb hm).1.trans hs.1, (h mid hb hm).2.trans hs.2⟩

/-- A sample stays what it is while the work does not change. -/
theorem Recorded.snoc {calls before round : List SweepCall} {t : ActiveSweep} {sample : Int × F64}
    (call : SweepCall) (h : Recorded calls t sample before round) (hr : sweepAfter calls = t)
    (hs : SameWork t (t.call call)) :
    Recorded (calls ++ [call]) (t.call call) sample before round where
  part := h.part.trans (List.prefix_append _ _)
  fresh := h.fresh
  kept := (h.kept.congr hs).snoc (by rw [hr]; exact ⟨rfl, rfl⟩)
  all := by rw [← hs.1]; exact h.all
  finish := h.finish
  length := h.length
  forward := h.forward

/-- A new round begins with the next call. -/
theorem openRound_nil {calls : List SweepCall} {t : ActiveSweep} (hr : sweepAfter calls = t)
    (hs : t.seen = ∅) (hl : t.latest = t.boundary) : OpenRound calls t calls [] where
  split := by simp
  fresh := by rw [hr]; exact hs
  kept mid hb hm := by
    rw [hb.eq_of_length (le_antisymm hb.length_le hm.length_le)] at hr
    subst hr
    exact ⟨rfl, rfl⟩
  boundary := by rw [hr]
  seen := by simp [roundReads, hs]
  latest := .inl ⟨rfl, hl⟩

theorem sweepInv_reset {calls : List SweepCall} {s : ActiveSweep} {now : Int}
    (hr : sweepAfter calls = s.reset now) : SweepInv calls (s.reset now) where
  strict := by
    rcases s.active.eq_empty_or_nonempty with he | he
    · exact .inr ⟨rfl, he⟩
    · exact .inl (Finset.empty_ssubset.2 he)
  going := ⟨calls, [], openRound_nil hr rfl rfl⟩
  samples := by simp [ActiveSweep.reset]
  primed := by simp [ActiveSweep.reset]
  last := by simp [ActiveSweep.reset]

/-! ## A reported read -/

/-- The state with one more read, before the end of the round is looked for. -/
def ActiveSweep.report (s : ActiveSweep) (name : String) (finished : Int) : ActiveSweep :=
  { s with
    latest := if s.latest < finished then finished else s.latest
    seen := insert name s.seen }

theorem completed_rejected {s : ActiveSweep} {name : String} {epoch : Nat} {started finished : Int}
    (h : epoch ≠ s.epoch ∨ name ∉ s.active ∨ started < s.boundary ∨ finished < started) :
    s.completed name epoch started finished = s := if_pos h

theorem completed_accepted {s : ActiveSweep} {name : String} {epoch : Nat} {started finished : Int}
    (h : ¬ (epoch ≠ s.epoch ∨ name ∉ s.active ∨ started < s.boundary ∨ finished < started)) :
    s.completed name epoch started finished =
      if (s.report name finished).seen.card ≠ s.active.card then s.report name finished
      else (s.report name finished).closeRound := if_neg h

@[simp] theorem closeRound_active (s : ActiveSweep) : s.closeRound.active = s.active := by
  unfold ActiveSweep.closeRound
  split <;> rfl

@[simp] theorem closeRound_epoch (s : ActiveSweep) : s.closeRound.epoch = s.epoch := by
  unfold ActiveSweep.closeRound
  split <;> rfl

@[simp] theorem closeRound_seen (s : ActiveSweep) : s.closeRound.seen = ∅ := rfl

@[simp] theorem closeRound_boundary (s : ActiveSweep) : s.closeRound.boundary = s.latest := rfl

@[simp] theorem closeRound_latest (s : ActiveSweep) : s.closeRound.latest = s.latest := by
  unfold ActiveSweep.closeRound
  split <;> rfl

/-- One more read does not change the work. -/
theorem sameWork_completed (s : ActiveSweep) (name : String) (epoch : Nat) (started finished : Int) :
    SameWork s (s.completed name epoch started finished) := by
  by_cases h : epoch ≠ s.epoch ∨ name ∉ s.active ∨ started < s.boundary ∨ finished < started
  · rw [completed_rejected h]
    exact ⟨rfl, rfl⟩
  · rw [completed_accepted h]
    split
    · exact ⟨rfl, rfl⟩
    · exact ⟨by simp [ActiveSweep.report], by simp [ActiveSweep.report]⟩

omit [Floats] in
theorem LatestFinish.report {reads : List SweepRead} {latest : Int}
    (h : LatestFinish reads latest) (read : SweepRead) :
    LatestFinish (reads ++ [read]) (if latest < read.finished then read.finished else latest) := by
  obtain ⟨⟨first, hf, heq⟩, hb⟩ := h
  split
  · rename_i hlt
    refine ⟨⟨read, by simp, rfl⟩, fun other ho => ?_⟩
    rcases List.mem_append.1 ho with ho | ho
    · have := hb other ho
      omega
    · rw [List.mem_singleton.1 ho]
  · rename_i hge
    refine ⟨⟨first, List.mem_append_left _ hf, heq⟩, fun other ho => ?_⟩
    rcases List.mem_append.1 ho with ho | ho
    · exact hb other ho
    · rw [List.mem_singleton.1 ho]
      omega

section
variable {calls before round : List SweepCall} {t : ActiveSweep}

/-- The round goes on with the read. -/
theorem OpenRound.report (h : OpenRound calls t before round) (hr : sweepAfter calls = t)
    {name : String} {epoch : Nat} {started finished : Int}
    (hc : ¬ (epoch ≠ t.epoch ∨ name ∉ t.active ∨ started < t.boundary ∨ finished < started)) :
    OpenRound (calls ++ [.completed name epoch started finished]) (t.report name finished) before
      (round ++ [.completed name epoch started finished]) := by
  push Not at hc
  obtain ⟨he, hn, hb, hf⟩ := hc
  have hwork : SameWork (sweepAfter before) t :=
    h.kept before (List.prefix_refl _) (h.split ▸ List.prefix_append _ _)
  have hread : (sweepAfter before).read (.completed name epoch started finished) =
      some ⟨name, started, finished⟩ := by
    refine if_pos ⟨he.trans hwork.2.symm, hwork.1 ▸ hn, ?_, hf⟩
    rw [← h.boundary]
    exact hb
  have hreads : roundReads (sweepAfter before) (round ++ [.completed name epoch started finished]) =
      roundReads (sweepAfter before) round ++ [⟨name, started, finished⟩] := by
    simp [roundReads, hread]
  refine ⟨by rw [h.split, List.append_assoc], h.fresh, ?_, h.boundary, fun other => ?_, .inr ?_⟩
  · refine (h.kept.congr ⟨rfl, rfl⟩).snoc ?_
    rw [hr]
    have := sameWork_completed t name epoch started finished
    exact ⟨this.1.symm, this.2.symm⟩
  · rw [hreads]
    simp only [ActiveSweep.report, Finset.mem_insert, h.seen other, List.mem_append,
      List.mem_singleton]
    constructor
    · rintro (rfl | ⟨read, hm, hname⟩)
      · exact ⟨_, .inr rfl, rfl⟩
      · exact ⟨read, .inl hm, hname⟩
    · rintro ⟨read, hm | rfl, hname⟩
      · exact .inr ⟨read, hm, hname⟩
      · exact .inl hname.symm
  · rw [hreads]
    obtain ⟨hnil, hl⟩ | hl := h.latest
    · -- the first read of the round ends at its boundary or later
      rw [hnil]
      refine ⟨⟨_, List.mem_singleton.2 rfl, ?_⟩, fun read hm => ?_⟩
      · simp only [ActiveSweep.report]
        split <;> omega
      · rw [List.mem_singleton.1 hm]
        simp only [ActiveSweep.report]
        split <;> omega
    · exact hl.report ⟨name, started, finished⟩

theorem mem_closeRound_samples {s : ActiveSweep} {sample : Int × F64}
    (h : sample ∈ s.closeRound.samples) :
    sample ∈ s.samples ∨ sample = (s.latest, durationMs (s.latest - s.boundary)) := by
  unfold ActiveSweep.closeRound at h
  dsimp only at h
  have h := (List.dropWhile_sublist _).subset h
  split at h
  · simpa using h
  · exact .inl h

omit [Floats] in
theorem mem_dropWhile_of_not {α : Type} {p : α → Bool} {x : α} {l : List α} (hx : x ∈ l)
    (hp : p x = false) : x ∈ l.dropWhile p := by
  rw [← List.takeWhile_append_dropWhile (p := p) (l := l)] at hx
  rcases List.mem_append.1 hx with hx | hx
  · rw [List.mem_takeWhile_imp hx] at hp
    cases hp
  · exact hx

/-- The end of a round in which every active source was seen. -/
theorem OpenRound.recorded (h : OpenRound calls t before round) (hfull : t.seen = t.active)
    (hne : t.active.Nonempty) :
    Recorded calls t.closeRound (t.latest, durationMs (t.latest - t.boundary)) before round := by
  obtain ⟨name, hname⟩ := hne
  obtain ⟨first, hfirst, -⟩ := (h.seen name).1 (hfull ▸ hname)
  have hl : LatestFinish (roundReads (sweepAfter before) round) t.latest := by
    refine h.latest.resolve_left fun hnil => ?_
    rw [hnil.1] at hfirst
    cases hfirst
  refine ⟨h.split ▸ List.prefix_refl _, h.fresh, h.kept.congr ⟨by simp, by simp⟩, fun n hn => ?_,
    hl, by rw [h.boundary], ?_⟩
  · rw [closeRound_active, ← hfull] at hn
    exact (h.seen n).1 hn
  · -- the latest read started at the boundary or later
    obtain ⟨read, hm, hfin⟩ := hl.attained
    obtain ⟨call, -, hcall⟩ := List.mem_filterMap.1 hm
    cases call with
    | completed n e started finished =>
      simp only [ActiveSweep.read] at hcall
      split at hcall
      · rename_i hc
        simp only [Option.some.injEq] at hcall
        subst hcall
        dsimp only at hfin ⊢
        omega
      · cases hcall
    | configure _ _ _ => cases hcall
    | setActive _ _ _ _ => cases hcall

end

/-! ## Every call keeps the invariant -/

section
variable {calls : List SweepCall} {t : ActiveSweep}

theorem read_congr {s : ActiveSweep} (hw : SameWork s t) (hb : t.boundary = s.boundary)
    (call : SweepCall) : s.read call = t.read call := by
  cases call <;> simp only [ActiveSweep.read, hw.1, hw.2, hb]

/-- A call that changes nothing and is no read of the round. -/
theorem SweepInv.same (h : SweepInv calls t) (hr : sweepAfter calls = t) {call : SweepCall}
    (hsame : t.call call = t) (hread : t.read call = none) : SweepInv (calls ++ [call]) t := by
  obtain ⟨before, round, hgo⟩ := h.going
  have hw : SameWork (sweepAfter before) t :=
    hgo.kept before (List.prefix_refl _) (hgo.split ▸ List.prefix_append _ _)
  have hreads : roundReads (sweepAfter before) (round ++ [call]) =
      roundReads (sweepAfter before) round := by
    simp [roundReads, read_congr hw hgo.boundary, hread]
  refine ⟨h.strict, ⟨before, round ++ [call], ?_⟩, fun sample hs => ?_, h.primed, h.last⟩
  · refine ⟨by rw [hgo.split, List.append_assoc], hgo.fresh, hgo.kept.snoc ?_, hgo.boundary, ?_, ?_⟩
    · rw [hr, hsame]
      exact ⟨rfl, rfl⟩
    · rw [hreads]
      exact hgo.seen
    · rw [hreads]
      exact hgo.latest
  · obtain ⟨before, round, hrec⟩ := h.samples sample hs
    have := hrec.snoc call hr (by rw [hsame]; exact ⟨rfl, rfl⟩)
    rw [hsame] at this
    exact ⟨before, round, this⟩

theorem SweepInv.completed (h : SweepInv calls t) (hr : sweepAfter calls = t) (name : String)
    (epoch : Nat) (started finished : Int) :
    SweepInv (calls ++ [.completed name epoch started finished])
      (t.completed name epoch started finished) := by
  by_cases hc : epoch ≠ t.epoch ∨ name ∉ t.active ∨ started < t.boundary ∨ finished < started
  · rw [completed_rejected hc]
    refine h.same hr (completed_rejected hc) (if_neg ?_)
    rintro ⟨h1, h2, h3, h4⟩
    rcases hc with hc | hc | hc | hc
    · exact hc h1
    · exact hc h2
    · omega
    · omega
  obtain ⟨before, round, hgo⟩ := h.going
  have hgo' := hgo.report hr hc
  have hwork := sameWork_completed t name epoch started finished
  have hold : ∀ sample ∈ t.samples, ∃ before round,
      Recorded (calls ++ [.completed name epoch started finished])
        (t.completed name epoch started finished) sample before round := by
    intro sample hs
    obtain ⟨before, round, hrec⟩ := h.samples sample hs
    exact ⟨before, round, hrec.snoc (.completed name epoch started finished) hr hwork⟩
  have hafter : sweepAfter (calls ++ [.completed name epoch started finished]) =
      t.completed name epoch started finished := by
    rw [sweepAfter_snoc, hr]
    rfl
  have hn : name ∈ t.active := by
    push Not at hc
    exact hc.2.1
  have hsub : (t.report name finished).seen ⊆ t.active := by
    refine Finset.insert_subset hn ?_
    rcases h.strict with hs | ⟨hs, -⟩
    · exact hs.subset
    · rw [hs]
      exact Finset.empty_subset _
  rw [completed_accepted hc] at hold hafter ⊢
  by_cases hcard : (t.report name finished).seen.card ≠ t.active.card
  · rw [if_pos hcard] at hold ⊢
    exact ⟨.inl (hsub.ssubset_of_ne fun heq => hcard (congrArg Finset.card heq)),
      ⟨before, _, hgo'⟩, hold, h.primed, h.last⟩
  · rw [if_neg hcard] at hold hafter ⊢
    have hfull : (t.report name finished).seen = t.active :=
      Finset.eq_of_subset_of_card_le hsub (not_not.1 hcard).ge
    have hnew := hgo'.recorded hfull ⟨name, hn⟩
    refine ⟨.inl ?_, ⟨_, [], openRound_nil hafter rfl (by simp)⟩, fun sample hs => ?_, fun _ => rfl,
      fun hcy => ?_⟩
    · rw [closeRound_seen, closeRound_active, Finset.empty_ssubset]
      exact ⟨name, hn⟩
    · rcases mem_closeRound_samples hs with hs | rfl
      · exact hold sample hs
      · exact ⟨before, _, hnew⟩
    · -- the end of the round itself is within the last minute
      unfold ActiveSweep.closeRound at hcy ⊢
      dsimp only at hcy ⊢
      by_cases hp : (t.report name finished).primed = true
      · simp only [hp, if_true]
        exact mem_dropWhile_of_not (by simp) (by simp)
      · simp only [hp] at hcy
        exact absurd (h.primed hcy) hp

/-- A change of the active sources starts over, any other call of `set_active` does nothing. -/
theorem setActive_cases (t : ActiveSweep) (name : String) (active : Bool) (epoch : Nat) (now : Int) :
    t.setActive name active epoch now = t ∨
      ∃ s : ActiveSweep, t.setActive name active epoch now = s.reset now := by
  unfold ActiveSweep.setActive
  split
  · exact .inl rfl
  · split
    · split
      · exact .inl rfl
      · exact .inr ⟨_, rfl⟩
    · split
      · exact .inr ⟨_, rfl⟩
      · exact .inl rfl

theorem SweepInv.call (h : SweepInv calls t) (hr : sweepAfter calls = t) (call : SweepCall) :
    SweepInv (calls ++ [call]) (t.call call) := by
  have hafter := sweepAfter_snoc calls call
  rw [hr] at hafter
  cases call with
  | configure names epoch now => exact sweepInv_reset hafter
  | completed name epoch started finished => exact h.completed hr name epoch started finished
  | setActive name active epoch now =>
    obtain hs | ⟨s, hs⟩ := setActive_cases t name active epoch now
    · have hcall : t.call (.setActive name active epoch now) = t := hs
      rw [hcall]
      exact h.same hr hcall rfl
    · have hcall : t.call (.setActive name active epoch now) = s.reset now := hs
      rw [hcall] at hafter ⊢
      exact sweepInv_reset hafter

end

theorem sweepAfter_inv (calls : List SweepCall) : SweepInv calls (sweepAfter calls) := by
  induction calls using List.reverseRecOn with
  | nil => exact @sweepInv_reset _ [] {} 0 rfl
  | append_singleton calls call ih =>
    rw [sweepAfter_snoc]
    exact ih.call rfl call

/-- Where the work changes, all samples go. -/
theorem samples_of_work_changed {t : ActiveSweep} {call : SweepCall}
    (h : ¬ SameWork t (t.call call)) : (t.call call).samples = [] := by
  cases call with
  | configure names epoch now => rfl
  | completed name epoch started finished =>
    exact absurd (sameWork_completed t name epoch started finished) h
  | setActive name active epoch now =>
    obtain hs | ⟨s, hs⟩ := setActive_cases t name active epoch now
    · refine absurd ?_ h
      show SameWork t (t.setActive name active epoch now)
      rw [hs]
      exact ⟨rfl, rfl⟩
    · show (t.setActive name active epoch now).samples = []
      rw [hs]
      rfl

end

/-! ## Two lanes -/

section
attribute [local instance] intFloats

/-- A first round that ends at 20 ns, and one that the lanes report out of order. -/
def twoLanes : List SweepCall :=
  [.configure {"A", "B"} 1 0, .completed "A" 1 0 5, .completed "B" 1 0 20,
   .completed "A" 1 21 100000020, .completed "B" 1 22 30]

theorem intFloats_msNonneg : MsNonneg := by
  intro ns hns
  show decide (ns / 1000000 < 0) = false
  simp only [decide_eq_false_iff_not, not_lt]
  omega

end

end OpcBridge
