import Mathlib.Data.Finset.Basic
import Mathlib.Data.List.Nodup
import OpcBridge.Lib.History

/-!
# The probe of an idle connection

`IdleConnectionProbe`: a connection without demand is checked by one read of a source that was good
before. The lanes of the connection report to it and claim the read in any order. `ProbeAccount` is
what holds of its candidates, claims and pacing after every sequence of calls; the failures are the
communication failures since the last good read or tag error, in an `unsigned` (`idle_probe_ok`).
-/

namespace OpcBridge

open Lib

structure IdleConnectionProbe where
  candidates : List String := []
  known : Finset String := ∅
  due : Int := 0
  success : Int := 0
  haveSuccess : Bool := false
  tagError : Bool := false
  failures : UInt32 := 0
  reads : UInt64 := 0

structure ProbeSnapshot where
  state : String
  lastSuccessAgeMs : Option Int
  healthCheckReads : UInt64
  consecutiveFailures : UInt32
  intervalMs : Nat

namespace IdleConnectionProbe

def good (p : IdleConnectionProbe) (name : String) (now : Int) : IdleConnectionProbe :=
  { p with
    known := insert name p.known
    candidates := if name ∈ p.known then p.candidates else p.candidates ++ [name]
    success := now, haveSuccess := true, failures := 0, tagError := false
    due := now + 30000000000 }

/-- The probe after the call, and the answer. -/
def claim (p : IdleConnectionProbe) (name : String) (now : Int) : IdleConnectionProbe × Bool :=
  if p.candidates.head? ≠ some name ∨ now < p.due then (p, false)
  else ({ p with due := now + 30000000000, reads := p.reads + 1 }, true)

def completed (p : IdleConnectionProbe) (name : String) (ok tagError : Bool) (now : Int) :
    IdleConnectionProbe :=
  if ok then p.good name now
  else if tagError then
    { p with
      tagError := true, failures := 0, known := p.known.erase name
      candidates := p.candidates.filter (· ≠ name) }
  else { p with tagError := false, failures := p.failures + 1 }

def snapshot (p : IdleConnectionProbe) (now : Int) : ProbeSnapshot :=
  let age := (now - p.success).tdiv 1000000
  { state :=
      if p.tagError then "tag_check_failed"
      else if p.failures ≠ 0 then "check_failed"
      else if p.haveSuccess ∧ age ≤ 60000 then "available"
      else "not_recently_checked"
    lastSuccessAgeMs := if p.haveSuccess then some age else none
    healthCheckReads := p.reads
    consecutiveFailures := p.failures
    intervalMs := 30000 }

end IdleConnectionProbe

inductive ProbeCall
  | good (name : String) (now : Int)
  | claim (name : String) (now : Int)
  | completed (name : String) (ok tagError : Bool) (now : Int)

def ProbeCall.time : ProbeCall → Int
  | good _ now => now
  | claim _ now => now
  | completed _ _ _ now => now

def IdleConnectionProbe.call (p : IdleConnectionProbe) : ProbeCall → IdleConnectionProbe
  | .good name now => p.good name now
  | .claim name now => (p.claim name now).1
  | .completed name ok tagError now => p.completed name ok tagError now

def probeAfter (calls : List ProbeCall) : IdleConnectionProbe :=
  run IdleConnectionProbe.call {} calls

theorem probeAfter_snoc (calls : List ProbeCall) (call : ProbeCall) :
    probeAfter (calls ++ [call]) = (probeAfter calls).call call := by
  rw [probeAfter, run_append]
  rfl

/-! ## What the calls say -/

/-- The tag of a good read. -/
def ProbeCall.goodRead : ProbeCall → Option String
  | good name _ => some name
  | claim _ _ => none
  | completed name ok _ _ => if ok then some name else none

/-- The tag that is rejected with a tag error. -/
def ProbeCall.rejected : ProbeCall → Option String
  | completed name ok tagError _ => if !ok && tagError then some name else none
  | _ => none

/-- A good read of the tag that no tag error of the tag has followed. -/
def GoodSince (name : String) (calls pre : List ProbeCall) (call : ProbeCall) : Prop :=
  Unbroken (fun _ c => c.goodRead = some name) (fun _ c => c.rejected = some name) calls pre call

/-- The claim succeeds after the calls `pre`. -/
def Claims (pre : List ProbeCall) : ProbeCall → Prop
  | .claim name now => ((probeAfter pre).claim name now).2 = true
  | _ => False

/-- What the pacing counts from: good reads and successful claims. -/
def Paces (pre : List ProbeCall) (call : ProbeCall) : Prop :=
  call.goodRead ≠ none ∨ Claims pre call

/-- The communication failures since the last good read or tag error. -/
def failuresSince (failures : Nat) : ProbeCall → Nat
  | .good _ _ => 0
  | .claim _ _ => failures
  | .completed _ ok tagError _ => if ok || tagError then 0 else failures + 1

def communicationFailures (calls : List ProbeCall) : Nat := calls.foldl failuresSince 0

theorem communicationFailures_snoc (calls : List ProbeCall) (call : ProbeCall) :
    communicationFailures (calls ++ [call]) = failuresSince (communicationFailures calls) call := by
  rw [communicationFailures, List.foldl_append]
  rfl

def ProbeForward (calls : List ProbeCall) : Prop := calls.Pairwise fun a b => a.time ≤ b.time

/-- Candidates, claims and pacing. -/
structure ProbeAccount (calls : List ProbeCall) : Prop where
  nodup : (probeAfter calls).candidates.Nodup
  known : ∀ name, name ∈ (probeAfter calls).candidates ↔ name ∈ (probeAfter calls).known
  claims : ∀ pre name now, Happens calls pre (.claim name now) → Claims pre (.claim name now) →
    (probeAfter pre).candidates.head? = some name ∧ (∃ before call, GoodSince name pre before call) ∧
      ∀ before call, Happens pre before call → Paces before call →
        call.time + 30000000000 ≤ now

/-! ## The invariant -/

structure ProbeInv (calls : List ProbeCall) (p : IdleConnectionProbe) : Prop where
  nodup : p.candidates.Nodup
  candidates : ∀ name, name ∈ p.candidates ↔ name ∈ p.known
  since : ∀ name, name ∈ p.known ↔ ∃ pre call, GoodSince name calls pre call
  due : ∀ pre call, Happens calls pre call → Paces pre call → call.time + 30000000000 ≤ p.due
  failures : p.failures = UInt32.ofNat (communicationFailures calls)

theorem probeInv_nil : ProbeInv [] {} where
  nodup := List.nodup_nil
  candidates _ := by simp
  since name := by
    refine iff_of_false (Finset.notMem_empty name) ?_
    rintro ⟨pre, call, h⟩
    exact not_happens_nil h.happens
  due _ _ h := absurd h not_happens_nil
  failures := rfl

section
variable {calls : List ProbeCall} {call : ProbeCall} {name : String}

theorem goodSince_snoc : (∃ pre c, GoodSince name (calls ++ [call]) pre c) ↔
    call.rejected ≠ some name ∧
      ((∃ pre c, GoodSince name calls pre c) ∨ call.goodRead = some name) := by
  unfold GoodSince
  simp only [unbroken_snoc]
  constructor
  · rintro ⟨pre, c, hkept, h | ⟨rfl, rfl, hgood⟩⟩
    · exact ⟨hkept, .inl ⟨pre, c, h⟩⟩
    · exact ⟨hkept, .inr hgood⟩
  · rintro ⟨hkept, ⟨pre, c, h⟩ | hgood⟩
    · exact ⟨pre, c, hkept, .inl h⟩
    · exact ⟨calls, call, hkept, .inr ⟨rfl, rfl, hgood⟩⟩

variable {p : IdleConnectionProbe}

/-- A good read, of either kind of call. -/
theorem ProbeInv.good (h : ProbeInv calls p) {now : Int} (hgood : call.goodRead = some name)
    (hrejected : call.rejected = none) (htime : call.time = now)
    (hfailures : failuresSince (communicationFailures calls) call = 0)
    (hcalls : ∀ c ∈ calls, c.time ≤ now) : ProbeInv (calls ++ [call]) (p.good name now) := by
  refine ⟨?_, fun other => ?_, fun other => ?_, fun pre c hc _ => ?_, ?_⟩
  · show (if name ∈ p.known then p.candidates else p.candidates ++ [name]).Nodup
    split
    · exact h.nodup
    · rename_i hnew
      refine List.nodup_append.2 ⟨h.nodup, List.nodup_singleton name, fun a ha b hb => ?_⟩
      rw [List.mem_singleton.1 hb]
      rintro rfl
      exact hnew ((h.candidates a).1 ha)
  · show other ∈ (if name ∈ p.known then p.candidates else p.candidates ++ [name]) ↔
      other ∈ insert name p.known
    rw [Finset.mem_insert]
    split
    · rename_i hold
      rw [h.candidates]
      refine ⟨.inr, ?_⟩
      rintro (rfl | hmem)
      · exact hold
      · exact hmem
    · rw [List.mem_append, List.mem_singleton, h.candidates, or_comm]
  · show other ∈ insert name p.known ↔ _
    rw [Finset.mem_insert, goodSince_snoc, hrejected, hgood, h.since, Option.some.injEq, or_comm,
      eq_comm]
    simp
  · show c.time + 30000000000 ≤ now + 30000000000
    rcases happens_snoc.1 hc with ⟨rfl, rfl⟩ | hbefore
    · omega
    · have hle := hcalls c hbefore.mem
      omega
  · rw [communicationFailures_snoc, hfailures]
    rfl

/-- A call that leaves the candidates as they are. -/
theorem ProbeInv.same (h : ProbeInv calls p) {p' : IdleConnectionProbe}
    (hcandidates : p'.candidates = p.candidates) (hknown : p'.known = p.known)
    (hgood : call.goodRead = none) (hrejected : call.rejected = none)
    (hdue : p.due ≤ p'.due) (hpaces : Claims calls call → call.time + 30000000000 ≤ p'.due)
    (hfailures : p'.failures =
      UInt32.ofNat (failuresSince (communicationFailures calls) call)) :
    ProbeInv (calls ++ [call]) p' := by
  refine ⟨hcandidates ▸ h.nodup, fun other => ?_, fun other => ?_, fun pre c hc hp => ?_, ?_⟩
  · rw [hcandidates, hknown]
    exact h.candidates other
  · rw [hknown, goodSince_snoc, h.since, hgood, hrejected]
    simp
  · rcases happens_snoc.1 hc with ⟨rfl, rfl⟩ | hbefore
    · rcases hp with hread | hclaim
      · exact absurd hgood hread
      · exact hpaces hclaim
    · have hle := h.due pre c hbefore hp
      omega
  · rw [communicationFailures_snoc, hfailures]

theorem claim_iff {name : String} {now : Int} :
    (p.claim name now).2 = true ↔ p.candidates.head? = some name ∧ p.due ≤ now := by
  unfold IdleConnectionProbe.claim
  split
  · rename_i h
    refine iff_of_false (by simp) fun hboth => ?_
    rcases h with hother | hearly
    · exact hother hboth.1
    · omega
  · rename_i h
    push Not at h
    exact iff_of_true rfl h

theorem ProbeInv.claim (h : ProbeInv calls p) (hp : probeAfter calls = p) (name : String)
    {now : Int} : ProbeInv (calls ++ [.claim name now]) (p.claim name now).1 := by
  cases hclaim : (p.claim name now).2 with
  | false =>
    have hsame : (p.claim name now).1 = p := by
      unfold IdleConnectionProbe.claim at hclaim ⊢
      split at hclaim
      · rename_i hno
        rw [if_pos hno]
      · cases hclaim
    rw [hsame]
    refine h.same rfl rfl rfl rfl le_rfl (fun hclaims => ?_) h.failures
    rw [Claims, hp, hclaim] at hclaims
    cases hclaims
  | true =>
    have hnow := (claim_iff.1 hclaim).2
    have hclaimed : (p.claim name now).1 =
        { p with due := now + 30000000000, reads := p.reads + 1 } := by
      unfold IdleConnectionProbe.claim at hclaim ⊢
      split at hclaim
      · cases hclaim
      · rename_i hyes
        rw [if_neg hyes]
    rw [hclaimed]
    refine h.same rfl rfl rfl rfl ?_ (fun _ => le_rfl) h.failures
    show p.due ≤ now + 30000000000
    omega

/-- A tag error takes the tag from the candidates. -/
theorem ProbeInv.rejected (h : ProbeInv calls p) (name : String) (now : Int) :
    ProbeInv (calls ++ [.completed name false true now]) (p.completed name false true now) := by
  refine ⟨h.nodup.filter _, fun other => ?_, fun other => ?_, fun pre c hc hp => ?_, ?_⟩
  · show other ∈ p.candidates.filter (· ≠ name) ↔ other ∈ p.known.erase name
    rw [List.mem_filter, Finset.mem_erase, h.candidates, and_comm, decide_eq_true_eq]
  · show other ∈ p.known.erase name ↔ _
    rw [Finset.mem_erase, goodSince_snoc, h.since]
    simp [ProbeCall.goodRead, ProbeCall.rejected, eq_comm]
  · rcases happens_snoc.1 hc with ⟨rfl, rfl⟩ | hbefore
    · rcases hp with hread | hclaim
      · exact absurd rfl hread
      · exact absurd hclaim id
    · exact h.due pre c hbefore hp
  · rw [communicationFailures_snoc]
    rfl

theorem ProbeInv.step (h : ProbeInv calls p) (hp : probeAfter calls = p) (next : ProbeCall)
    (hcalls : ∀ c ∈ calls, c.time ≤ next.time) : ProbeInv (calls ++ [next]) (p.call next) := by
  cases next with
  | good name now => exact h.good rfl rfl rfl rfl hcalls
  | claim name now => exact h.claim hp name
  | completed name ok tagError now =>
    cases ok with
    | true => exact h.good rfl rfl rfl rfl hcalls
    | false =>
      cases tagError with
      | true => exact h.rejected name now
      | false =>
        refine h.same rfl rfl rfl rfl le_rfl (fun hclaim => absurd hclaim id) ?_
        show p.failures + 1 = UInt32.ofNat (communicationFailures calls + 1)
        rw [h.failures, UInt32.ofNat_add]
        rfl

end

theorem probeInv_run (calls : List ProbeCall) :
    ProbeForward calls → ProbeInv calls (probeAfter calls) := by
  induction calls using List.reverseRecOn with
  | nil => exact fun _ => probeInv_nil
  | append_singleton calls call ih =>
    intro hforward
    obtain ⟨hinit, -, hlast⟩ := List.pairwise_append.1 hforward
    rw [probeAfter_snoc]
    exact (ih hinit).step rfl call fun c hc => hlast c hc call (by simp)

/-- The account of the probe, and its failures in 32 bits. -/
theorem idle_probe_ok {calls : List ProbeCall} (h : ProbeForward calls) :
    ProbeAccount calls ∧ ∀ now, ((probeAfter calls).snapshot now).consecutiveFailures.toNat =
      communicationFailures calls % 4294967296 := by
  have hinv := probeInv_run calls h
  refine ⟨⟨hinv.nodup, hinv.candidates, fun pre name now hpre hclaim => ?_⟩, fun now => ?_⟩
  · have hbefore := probeInv_run pre (h.sublist ((List.prefix_append _ _).trans hpre).sublist)
    obtain ⟨hfront, hdue⟩ := claim_iff.1 hclaim
    have hcandidate : name ∈ (probeAfter pre).candidates := List.mem_of_head? hfront
    refine ⟨hfront, (hbefore.since name).1 ((hbefore.candidates name).1 hcandidate),
      fun before call hcall hpaces => ?_⟩
    have hle := hbefore.due before call hcall hpaces
    omega
  · show (probeAfter calls).failures.toNat = _
    rw [hinv.failures]
    exact UInt32.toNat_ofNat'

/-- One lane claims the read, and another one is told to wait. -/
def probedTwice : List ProbeCall :=
  [.good "A" 0, .good "B" 1, .claim "A" 30000000001, .claim "A" 30000000002,
    .completed "A" false false 30000000003]

theorem probed_twice_ok : ProbeAccount probedTwice ∧
    ∀ now, ((probeAfter probedTwice).snapshot now).consecutiveFailures.toNat =
      communicationFailures probedTwice % 4294967296 :=
  idle_probe_ok (by unfold ProbeForward probedTwice; decide)

theorem communicationFailures_replicate (n : Nat) (name : String) (now : Int) :
    communicationFailures (List.replicate n (.completed name false false now)) = n := by
  induction n with
  | zero => rfl
  | succ n ih =>
    rw [List.replicate_succ', communicationFailures_snoc, ih]
    rfl

theorem forward_replicate (n : Nat) (call : ProbeCall) :
    ProbeForward (List.replicate n call) := List.pairwise_replicate.2 (.inr le_rfl)

theorem snapshot_replicate (n : Nat) (name : String) (now t : Int) :
    ((probeAfter (List.replicate n (.completed name false false now))).snapshot
      t).consecutiveFailures = UInt32.ofNat n := by
  have hinv := probeInv_run _ (forward_replicate n (.completed name false false now))
  rw [IdleConnectionProbe.snapshot, hinv.failures, communicationFailures_replicate]

/-- After `2 ^ 32` failures the counter is back at zero. -/
theorem failures_wrap : ¬ ∀ calls : List ProbeCall, ProbeForward calls → ProbeAccount calls ∧
    ∀ now, ((probeAfter calls).snapshot now).consecutiveFailures.toNat =
      communicationFailures calls := by
  intro h
  have hcount := (h _ (forward_replicate 4294967296 (.completed "A" false false 0))).2 0
  rw [snapshot_replicate, communicationFailures_replicate] at hcount
  exact absurd hcount (by decide)

end OpcBridge
