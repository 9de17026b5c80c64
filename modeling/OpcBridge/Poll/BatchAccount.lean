import OpcBridge.Poll.AsyncBatch
import Mathlib.Data.List.Nodup

/-!
# The account of a batch

What is recorded about one request is one of four traces (`RequestTrace`): it failed at once, it is
open, it was answered, or it was aborted; each ends with the capture, and an abort stands right before
it. `Accounted` says so of a whole history, queueing and each poll keep it, and the promises of the
batch follow (`BatchAccount`).
-/

namespace OpcBridge

/-! ## Reading a history -/

def BatchEvent.started? : BatchEvent → Option Nat
  | .started index _ => some index
  | _ => none

def BatchEvent.captured? : BatchEvent → Option Nat
  | .captured index _ _ => some index
  | _ => none

def BatchEvent.asked? : BatchEvent → Option Bool
  | .asked cancel => some cancel
  | _ => none

/-- A wait for requests: a question for a status, or a sleep. -/
def BatchEvent.waits : BatchEvent → Bool
  | .queried _ _ => true
  | .slept => true
  | _ => false

def startedIn (h : List BatchEvent) : List Nat := h.filterMap BatchEvent.started?

def captures (i : Nat) (h : List BatchEvent) : Nat := (h.filterMap BatchEvent.captured?).count i

def aborts (i : Nat) (h : List BatchEvent) : Nat := h.count (.aborted i)

/-- The last answer to `cancelled()`. -/
def lastAsked (h : List BatchEvent) : Option Bool := (h.filterMap BatchEvent.asked?).getLast?

/-- The events about one request. -/
def about (i : Nat) (h : List BatchEvent) : List BatchEvent := h.filter fun e => e.index? == some i

@[simp] theorem startedIn_append (h h' : List BatchEvent) :
    startedIn (h ++ h') = startedIn h ++ startedIn h' := List.filterMap_append

@[simp] theorem about_append (i : Nat) (h h' : List BatchEvent) :
    about i (h ++ h') = about i h ++ about i h' := List.filter_append _ _

@[simp] theorem captures_append (i : Nat) (h h' : List BatchEvent) :
    captures i (h ++ h') = captures i h + captures i h' := by
  rw [captures, List.filterMap_append, List.count_append]
  rfl

theorem about_nil (i : Nat) : about i [] = [] := rfl

theorem about_cons (i : Nat) (e : BatchEvent) (h : List BatchEvent) :
    about i (e :: h) = if e.index? = some i then e :: about i h else about i h := by
  unfold about
  by_cases he : e.index? = some i
  · rw [List.filter_cons_of_pos (by simpa using he), if_pos he]
  · rw [List.filter_cons_of_neg (by simpa using he), if_neg he]

theorem captures_about (i : Nat) (h : List BatchEvent) : captures i (about i h) = captures i h := by
  induction h with
  | nil => rfl
  | cons e h ih =>
    have hcons : captures i (e :: h) = captures i [e] + captures i h := captures_append i [e] h
    rw [about_cons, hcons]
    split
    · rw [show captures i (e :: about i h) = captures i [e] + captures i (about i h) from
        captures_append i [e] _, ih]
    · rename_i hne
      have hzero : captures i [e] = 0 := by
        cases e with
        | captured j rc began =>
          have hj : j ≠ i := fun h => hne (congrArg some h)
          simp [captures, BatchEvent.captured?, hj]
        | _ => rfl
      rw [hzero, ih, Nat.zero_add]

theorem aborts_about (i : Nat) (h : List BatchEvent) : aborts i (about i h) = aborts i h := by
  unfold aborts about
  exact List.count_filter (by simp [BatchEvent.index?])

theorem mem_about {i : Nat} {h : List BatchEvent} {e : BatchEvent} :
    e ∈ about i h ↔ e ∈ h ∧ e.index? = some i := by
  simp [about]

/-! ## One request -/

/-- What a history says about a request that began at a time, and whether the request is open. -/
inductive RequestTrace (P : BatchParams) (i : Nat) (began : Int) : Bool → List BatchEvent → Prop
  | failed {rc : Int} (h : rc ≠ P.pending) :
      RequestTrace P i began false [.started i rc, .captured i rc began]
  | waiting (k : Nat) : RequestTrace P i began true
      (.started i P.pending :: List.replicate k (.queried i P.pending))
  | answered (k : Nat) {rc : Int} (h : rc ≠ P.pending) : RequestTrace P i began false
      (.started i P.pending :: List.replicate k (.queried i P.pending) ++
        [.queried i rc, .captured i rc began])
  | aborted (k : Nat) : RequestTrace P i began false
      (.started i P.pending :: List.replicate k (.queried i P.pending) ++
        [.queried i P.pending, .aborted i, .captured i P.timeout began])

section
variable {P : BatchParams} {i : Nat} {began : Int} {active : Bool} {trace : List BatchEvent}

theorem captures_waiting (k : Nat) : captures i
    (.started i P.pending :: List.replicate k (.queried i P.pending)) = 0 := by
  induction k with
  | zero => rfl
  | succ k ih => exact ih

theorem aborts_waiting (k : Nat) : aborts i
    (.started i P.pending :: List.replicate k (.queried i P.pending)) = 0 := by
  refine List.count_eq_zero.2 fun hmem => ?_
  rcases List.mem_cons.1 hmem with h | h
  · cases h
  · cases List.eq_of_mem_replicate h

theorem RequestTrace.captures_eq (h : RequestTrace P i began active trace) :
    captures i trace = if active then 0 else 1 := by
  cases h with
  | failed h => exact List.count_singleton_self
  | waiting k => exact captures_waiting k
  | answered k h =>
    rw [captures_append, captures_waiting, Nat.zero_add]
    exact List.count_singleton_self
  | aborted k =>
    rw [captures_append, captures_waiting, Nat.zero_add]
    exact List.count_singleton_self

theorem RequestTrace.aborts_le (h : RequestTrace P i began active trace) : aborts i trace ≤ 1 := by
  cases h with
  | failed h => simp [aborts]
  | waiting k =>
    rw [aborts_waiting]
    exact Nat.zero_le _
  | answered k h =>
    rw [aborts, List.count_append, ← aborts, aborts_waiting]
    simp
  | aborted k =>
    rw [aborts, List.count_append, ← aborts, aborts_waiting]
    simp

theorem mem_waiting {k : Nat} {e : BatchEvent}
    (h : e ∈ .started i P.pending :: List.replicate k (.queried i P.pending)) :
    e.captured? = none := by
  rcases List.mem_cons.1 h with rfl | h
  · rfl
  · rw [List.eq_of_mem_replicate h]
    rfl

theorem RequestTrace.no_capture_before (h : RequestTrace P i began active trace) :
    ∀ e ∈ trace.dropLast, e.captured? = none := by
  cases h with
  | failed h =>
    intro e he
    rw [List.mem_singleton.1 he]
    rfl
  | waiting k => exact fun e he => mem_waiting (List.mem_of_mem_dropLast he)
  | answered k h =>
    intro e he
    rw [List.dropLast_append_of_ne_nil (by simp)] at he
    rcases List.mem_append.1 he with he | he
    · exact mem_waiting he
    · rw [List.mem_singleton.1 he]
      rfl
  | aborted k =>
    intro e he
    rw [List.dropLast_append_of_ne_nil (by simp)] at he
    rcases List.mem_append.1 he with he | he
    · exact mem_waiting he
    · rcases List.mem_cons.1 he with rfl | he
      · rfl
      · rw [List.mem_singleton.1 he]
        rfl

/-- Nothing about a request follows its capture. -/
theorem RequestTrace.capture_last (h : RequestTrace P i began active trace)
    {before after : List BatchEvent} {j : Nat} {rc b : Int}
    (heq : trace = before ++ .captured j rc b :: after) : after = [] := by
  by_contra hafter
  have hmem : .captured j rc b ∈ trace.dropLast := by
    rw [heq, List.dropLast_append_of_ne_nil (List.cons_ne_nil _ _),
      List.dropLast_cons_of_ne_nil hafter]
    exact List.mem_append_right _ List.mem_cons_self
  have hnone := h.no_capture_before _ hmem
  cases hnone

end

/-! ## Aborts -/

/-- An abort comes from a request that was pending past its deadline or in a cancelled round, and its
capture with the timeout code comes next. -/
def AbortAt (P : BatchParams) (before : List BatchEvent) (i : Nat) (after : List BatchEvent) : Prop :=
  ∃ began rc, [.read began, .started i rc] <:+: before ∧
    (∃ rest, after = .captured i P.timeout began :: rest) ∧
    ((∃ first, before = first ++ [.queried i P.pending] ∧ lastAsked before = some true) ∨
      ∃ first now, before = first ++ [.queried i P.pending, .read now] ∧
        began + P.timeoutMs ≤ now)

def AbortsOk (P : BatchParams) (h : List BatchEvent) : Prop :=
  ∀ before i after, h = before ++ .aborted i :: after → AbortAt P before i after

section
variable {P : BatchParams} {i : Nat} {h events : List BatchEvent}

theorem AbortAt.append {before after : List BatchEvent} (ha : AbortAt P before i after) :
    AbortAt P before i (after ++ events) := by
  obtain ⟨began, rc, hinfix, ⟨rest, rfl⟩, hwhy⟩ := ha
  exact ⟨began, rc, hinfix, ⟨rest ++ events, rfl⟩, hwhy⟩

theorem AbortsOk.append (hok : AbortsOk P h) (events : List BatchEvent)
    (hevents : ∀ i, .aborted i ∉ events) : AbortsOk P (h ++ events) := by
  intro before i after heq
  rcases List.append_eq_append_iff.1 heq with ⟨more, rfl, hmore⟩ | ⟨more, rfl, hmore⟩
  · exact absurd (hmore ▸ List.mem_append_right _ List.mem_cons_self) (hevents i)
  · cases more with
    | nil =>
      rw [List.nil_append] at hmore
      exact absurd (hmore ▸ List.mem_cons_self) (hevents i)
    | cons e more =>
      rw [List.cons_append] at hmore
      obtain ⟨rfl, rfl⟩ := List.cons.inj hmore
      exact (hok before i more rfl).append

/-- An abort and its capture behind a history. -/
theorem AbortsOk.abort (hok : AbortsOk P h) (began : Int)
    (ha : AbortAt P h i [.captured i P.timeout began]) :
    AbortsOk P (h ++ [.aborted i, .captured i P.timeout began]) := by
  intro before j after heq
  rcases List.append_eq_append_iff.1 heq with ⟨more, rfl, hmore⟩ | ⟨more, rfl, hmore⟩
  · cases more with
    | nil =>
      obtain ⟨he, rfl⟩ := List.cons.inj hmore
      cases he
      rwa [List.append_nil]
    | cons e more =>
      obtain ⟨-, hmore⟩ := List.cons.inj hmore
      cases more with
      | nil => cases hmore
      | cons e more =>
        obtain ⟨-, hmore⟩ := List.cons.inj hmore
        cases more <;> cases hmore
  · cases more with
    | nil =>
      obtain ⟨he, rfl⟩ := List.cons.inj hmore
      cases he
      rwa [List.append_nil] at ha
    | cons e more =>
      rw [List.cons_append] at hmore
      obtain ⟨rfl, rfl⟩ := List.cons.inj hmore
      exact (hok before j more rfl).append

end

/-! ## All requests -/

/-- The account of a history with the requests of the batch. -/
structure Accounted (P : BatchParams) (h : List BatchEvent) (rs : List BatchRequest) : Prop where
  started : startedIn h = rs.map BatchRequest.index
  nodup : (rs.map BatchRequest.index).Nodup
  traces : ∀ r ∈ rs,
    RequestTrace P r.index (r.deadline - P.timeoutMs) r.active (about r.index h)
  others : ∀ i, i ∉ rs.map BatchRequest.index → about i h = []
  began : ∀ r ∈ rs, ∃ rc, [.read (r.deadline - P.timeoutMs), .started r.index rc] <:+: h
  aborts : AbortsOk P h

section
variable {P : BatchParams} {cancel : Bool} {r r' : BatchRequest} {h events : List BatchEvent}

/-- A poll keeps the request apart from its state, starts nothing and asks nothing. -/
theorem Polled.frame (hp : Polled P cancel r events r') : r'.index = r.index ∧
    r'.deadline = r.deadline ∧ startedIn events = [] ∧ events.filterMap BatchEvent.asked? = [] ∧
    ∀ i, i ≠ r.index → about i events = [] := by
  have habout : ∀ i, i ≠ r.index → ∀ l : List BatchEvent,
      (∀ e ∈ l, e.index? = none ∨ e.index? = some r.index) → about i l = [] := by
    intro i hi l hl
    refine List.filter_eq_nil_iff.2 fun e he => ?_
    rcases hl e he with hindex | hindex
    · simp [hindex]
    · simp [hindex, Ne.symm hi]
  cases hp with
  | closed hactive => exact ⟨rfl, rfl, rfl, rfl, fun i hi => rfl⟩
  | answered hactive hrc =>
    exact ⟨rfl, rfl, rfl, rfl, fun i hi => habout i hi _ (by simp [BatchEvent.index?])⟩
  | waiting hactive hcancel hnow =>
    exact ⟨rfl, rfl, rfl, rfl, fun i hi => habout i hi _ (by simp [BatchEvent.index?])⟩
  | late hactive hcancel hnow =>
    exact ⟨rfl, rfl, rfl, rfl, fun i hi => habout i hi _ (by simp [BatchEvent.index?])⟩
  | cancelled hactive hcancel =>
    exact ⟨rfl, rfl, rfl, rfl, fun i hi => habout i hi _ (by simp [BatchEvent.index?])⟩

/-- A poll extends the trace of its request. -/
theorem Polled.trace {trace : List BatchEvent} (hp : Polled P cancel r events r')
    (ht : RequestTrace P r.index (r.deadline - P.timeoutMs) r.active trace) :
    RequestTrace P r.index (r.deadline - P.timeoutMs) r'.active
      (trace ++ about r.index events) := by
  have hopen : r.active = true → ∃ k,
      trace = .started r.index P.pending :: List.replicate k (.queried r.index P.pending) := by
    intro hactive
    rw [hactive] at ht
    cases ht with
    | waiting k => exact ⟨k, rfl⟩
  cases hp with
  | closed hactive =>
    rw [about_nil, List.append_nil]
    exact ht
  | answered hactive hrc =>
    obtain ⟨k, rfl⟩ := hopen hactive
    simpa [about, BatchEvent.index?] using RequestTrace.answered k hrc
  | @waiting now hactive hcancel hnow =>
    obtain ⟨k, rfl⟩ := hopen hactive
    have habout : about r.index [.queried r.index P.pending, .read now] =
        [.queried r.index P.pending] := by
      simp [about, BatchEvent.index?]
    rw [hactive, habout, List.cons_append, ← List.replicate_succ']
    exact .waiting (k + 1)
  | late hactive hcancel hnow =>
    obtain ⟨k, rfl⟩ := hopen hactive
    simpa [about, BatchEvent.index?] using RequestTrace.aborted k
  | cancelled hactive hcancel =>
    obtain ⟨k, rfl⟩ := hopen hactive
    simpa [about, BatchEvent.index?] using RequestTrace.aborted k

theorem lastAsked_append (h : List BatchEvent) (hasked : events.filterMap BatchEvent.asked? = []) :
    lastAsked (h ++ events) = lastAsked h := by
  rw [lastAsked, List.filterMap_append, hasked, List.append_nil]
  rfl

/-- The aborts of a poll are justified. -/
theorem Polled.aborts (hp : Polled P cancel r events r') (hok : AbortsOk P h)
    (hasked : lastAsked h = some cancel)
    (hbegan : ∃ rc, [.read (r.deadline - P.timeoutMs), .started r.index rc] <:+: h) :
    AbortsOk P (h ++ events) := by
  obtain ⟨rc, hbegan⟩ := hbegan
  cases hp with
  | closed hactive =>
    rw [List.append_nil]
    exact hok
  | answered hactive hrc => exact hok.append _ (by simp)
  | waiting hactive hcancel hnow => exact hok.append _ (by simp)
  | @late now hactive hcancel hnow =>
    have hquery := hok.append [.queried r.index P.pending, .read now] (by simp)
    have habort := hquery.abort (i := r.index) (r.deadline - P.timeoutMs)
      ⟨_, rc, hbegan.trans (List.prefix_append _ _).isInfix, ⟨[], rfl⟩,
        .inr ⟨h, now, rfl, by omega⟩⟩
    rwa [List.append_assoc] at habort
  | cancelled hactive hcancel =>
    have hquery := hok.append [.queried r.index P.pending] (by simp)
    have hlast : lastAsked (h ++ [.queried r.index P.pending]) = some true := by
      rw [lastAsked_append h rfl, hasked, hcancel]
    have habort := hquery.abort (i := r.index) (r.deadline - P.timeoutMs)
      ⟨_, rc, hbegan.trans (List.prefix_append _ _).isInfix, ⟨[], rfl⟩, .inl ⟨h, rfl, hlast⟩⟩
    rwa [List.append_assoc] at habort

/-- A poll keeps the account. -/
theorem Accounted.poll {done rest : List BatchRequest} (hacc : Accounted P h (done ++ r :: rest))
    (hasked : lastAsked h = some cancel) (hp : Polled P cancel r events r') :
    Accounted P (h ++ events) (done ++ r' :: rest) := by
  obtain ⟨hindex, hdeadline, hstarted, -, habout⟩ := hp.frame
  have hmap : (done ++ r' :: rest).map BatchRequest.index =
      (done ++ r :: rest).map BatchRequest.index := by
    simp [hindex]
  have hmem : r ∈ done ++ r :: rest := by simp
  -- another request has another index, and the poll says nothing about it
  have hother : ∀ q ∈ done ++ r' :: rest, q = r' ∨ q ∈ done ++ r :: rest ∧ q.index ≠ r.index := by
    intro q hq
    have hnodup := hacc.nodup
    rw [List.map_append, List.map_cons, List.nodup_append, List.nodup_cons] at hnodup
    rcases List.mem_append.1 hq with hq | hq
    · refine .inr ⟨List.mem_append_left _ hq, ?_⟩
      exact hnodup.2.2 _ (List.mem_map_of_mem hq) _ List.mem_cons_self
    · rcases List.mem_cons.1 hq with rfl | hq
      · exact .inl rfl
      · refine .inr ⟨List.mem_append_right _ (List.mem_cons_of_mem _ hq), fun heq => ?_⟩
        exact hnodup.2.1.1 (heq ▸ List.mem_map_of_mem hq)
  constructor
  · rw [startedIn_append, hstarted, List.append_nil, hacc.started, hmap]
  · rw [hmap]
    exact hacc.nodup
  · intro q hq
    rw [about_append]
    rcases hother q hq with rfl | ⟨hq, hne⟩
    · rw [hindex, hdeadline]
      exact hp.trace (hacc.traces r hmem)
    · rw [habout _ hne, List.append_nil]
      exact hacc.traces q hq
  · intro i hi
    rw [hmap] at hi
    have hne : i ≠ r.index := by
      rintro rfl
      exact hi (List.mem_map_of_mem hmem)
    rw [about_append, hacc.others i hi, habout i hne]
    rfl
  · intro q hq
    rcases hother q hq with rfl | ⟨hq, -⟩
    · obtain ⟨rc, hbegan⟩ := hacc.began r hmem
      rw [hindex, hdeadline]
      exact ⟨rc, hbegan.trans (List.prefix_append _ _).isInfix⟩
    · obtain ⟨rc, hbegan⟩ := hacc.began q hq
      exact ⟨rc, hbegan.trans (List.prefix_append _ _).isInfix⟩
  · exact hp.aborts hacc.aborts hasked (hacc.began r hmem)

/-- A round keeps the account. -/
theorem Accounted.pollAll {rs rs' done : List BatchRequest} (hps : PolledAll P cancel rs events rs')
    (hacc : Accounted P h (done ++ rs)) (hasked : lastAsked h = some cancel) :
    Accounted P (h ++ events) (done ++ rs') := by
  induction hps generalizing h done with
  | nil =>
    rw [List.append_nil]
    exact hacc
  | cons hp hs ih =>
    have hnext := hacc.poll hasked hp
    rw [List.append_cons] at hnext
    have hrest := ih hnext ((lastAsked_append h hp.frame.2.2.2.1).trans hasked)
    rwa [List.append_assoc, ← List.append_cons] at hrest

/-- Events that are about no request, start and abort nothing. -/
theorem Accounted.quiet {rs : List BatchRequest} (hacc : Accounted P h rs)
    (hevents : ∀ e ∈ events, e.index? = none) : Accounted P (h ++ events) rs := by
  have hstarted : startedIn events = [] := by
    refine List.filterMap_eq_nil_iff.2 fun e he => ?_
    cases e with
    | started i rc => cases hevents _ he
    | _ => rfl
  have habout : ∀ i, about i events = [] := by
    intro i
    refine List.filter_eq_nil_iff.2 fun e he => ?_
    simp [hevents e he]
  constructor
  · rw [startedIn_append, hstarted, List.append_nil, hacc.started]
  · exact hacc.nodup
  · intro r hr
    rw [about_append, habout, List.append_nil]
    exact hacc.traces r hr
  · intro i hi
    rw [about_append, habout, List.append_nil]
    exact hacc.others i hi
  · intro r hr
    obtain ⟨rc, hbegan⟩ := hacc.began r hr
    exact ⟨rc, hbegan.trans (List.prefix_append _ _).isInfix⟩
  · refine hacc.aborts.append _ fun i hi => ?_
    cases hevents _ hi

/-! ## Queueing -/

theorem Queued.frame {index : Nat} (hq : Queued P index events r) : r.index = index ∧
    startedIn events = [index] ∧ (∀ i, .aborted i ∉ events) ∧ (∀ e ∈ events, e.waits = false) ∧
    ∀ i, i ≠ index → about i events = [] := by
  cases hq with
  | pending began =>
    refine ⟨rfl, rfl, by simp, by simp [BatchEvent.waits], fun i hi => ?_⟩
    simp [about, BatchEvent.index?, Ne.symm hi]
  | done began h =>
    refine ⟨rfl, rfl, by simp, by simp [BatchEvent.waits], fun i hi => ?_⟩
    simp [about, BatchEvent.index?, Ne.symm hi]

theorem Queued.trace {index : Nat} (hq : Queued P index events r) :
    RequestTrace P r.index (r.deadline - P.timeoutMs) r.active (about r.index events) ∧
      ∃ rc, [.read (r.deadline - P.timeoutMs), .started r.index rc] <:+: events := by
  cases hq with
  | pending began =>
    dsimp only
    rw [Int.add_sub_cancel]
    refine ⟨?_, P.pending, [.asked false], [], rfl⟩
    simpa [about, BatchEvent.index?] using RequestTrace.waiting 0
  | @done rc began h =>
    dsimp only
    rw [Int.add_sub_cancel]
    refine ⟨?_, rc, [.asked false], [.captured index rc began], rfl⟩
    simpa [about, BatchEvent.index?] using RequestTrace.failed h

/-- Queueing a further request keeps the account. -/
theorem Accounted.queue {index : Nat} {rs : List BatchRequest} (hacc : Accounted P h rs)
    (hnew : index ∉ rs.map BatchRequest.index) (hq : Queued P index events r) :
    Accounted P (h ++ events) (rs ++ [r]) := by
  obtain ⟨hindex, hstarted, haborted, -, habout⟩ := hq.frame
  obtain ⟨htrace, rc, hbegan⟩ := hq.trace
  constructor
  · rw [startedIn_append, hstarted, hacc.started, List.map_append, List.map_singleton, hindex]
  · rw [List.map_append, List.map_singleton, hindex, ← List.concat_eq_append]
    exact hacc.nodup.concat hnew
  · intro q hmem
    rw [about_append]
    rcases List.mem_append.1 hmem with hmem | hmem
    · have hne : q.index ≠ index := fun heq => hnew (heq ▸ List.mem_map_of_mem hmem)
      rw [habout _ hne, List.append_nil]
      exact hacc.traces q hmem
    · obtain rfl := List.mem_singleton.1 hmem
      rw [hacc.others _ (by rwa [hindex]), List.nil_append]
      exact htrace
  · intro i hi
    rw [List.map_append, List.map_singleton, hindex, List.mem_append, List.mem_singleton,
      not_or] at hi
    rw [about_append, hacc.others i hi.1, habout i hi.2]
    rfl
  · intro q hmem
    rcases List.mem_append.1 hmem with hmem | hmem
    · obtain ⟨rc, hbegan⟩ := hacc.began q hmem
      exact ⟨rc, hbegan.trans (List.prefix_append _ _).isInfix⟩
    · obtain rfl := List.mem_singleton.1 hmem
      exact ⟨rc, hbegan.trans (List.suffix_append _ _).isInfix⟩
  · exact hacc.aborts.append _ haborted

theorem Accounted.queueAll {indices : List Nat} {rs rs' : List BatchRequest}
    (hqs : QueuedAll P indices events rs') (hacc : Accounted P h rs)
    (hnodup : (rs.map BatchRequest.index ++ indices).Nodup) :
    Accounted P (h ++ events) (rs ++ rs') := by
  induction hqs generalizing h rs with
  | nil =>
    rw [List.append_nil, List.append_nil]
    exact hacc
  | stopped indices =>
    rw [List.append_nil]
    exact hacc.quiet (by simp [BatchEvent.index?])
  | @cons index indices r rs' events more hq hqs ih =>
    have hnew : index ∉ rs.map BatchRequest.index := by
      intro hmem
      rw [List.nodup_append] at hnodup
      exact hnodup.2.2 _ hmem _ List.mem_cons_self rfl
    have hnext := hacc.queue hnew hq
    have hrest := ih hnext (by
      rw [List.map_append, List.map_singleton, hq.frame.1, ← List.append_cons]
      exact hnodup)
    rwa [List.append_assoc, ← List.append_cons] at hrest

/-- Queueing goes through the indices in order, to their end unless the batch is cancelled, and waits
for nothing. -/
theorem QueuedAll.frame {indices : List Nat} {rs : List BatchRequest}
    (hqs : QueuedAll P indices events rs) : rs.map BatchRequest.index <+: indices ∧
      (.asked true ∉ events → rs.map BatchRequest.index = indices) ∧
      ∀ e ∈ events, e.waits = false := by
  induction hqs with
  | nil => exact ⟨List.prefix_rfl, fun _ => rfl, by simp⟩
  | stopped indices =>
    exact ⟨List.nil_prefix, fun h => absurd List.mem_cons_self h, by simp [BatchEvent.waits]⟩
  | cons hq hqs ih =>
    obtain ⟨hindex, -, -, hwaits, -⟩ := hq.frame
    rw [List.map_cons, hindex]
    refine ⟨(List.prefix_cons_inj _).2 ih.1, fun hasked => ?_, fun e he => ?_⟩
    · rw [ih.2.1 fun h => hasked (List.mem_append_right _ h)]
    · rcases List.mem_append.1 he with he | he
      · exact hwaits e he
      · exact ih.2.2 e he

theorem PolledAll.frame {rs rs' : List BatchRequest} (hps : PolledAll P cancel rs events rs') :
    rs'.map BatchRequest.index = rs.map BatchRequest.index ∧
      rs'.map BatchRequest.deadline = rs.map BatchRequest.deadline ∧ startedIn events = [] := by
  induction hps with
  | nil => exact ⟨rfl, rfl, rfl⟩
  | cons hp hs ih =>
    obtain ⟨hindex, hdeadline, hstarted, -, -⟩ := hp.frame
    rw [List.map_cons, List.map_cons, List.map_cons, List.map_cons, hindex, hdeadline, ih.1, ih.2.1,
      startedIn_append, hstarted, ih.2.2]
    exact ⟨rfl, rfl, rfl⟩

end

/-! ## Runs -/

section
variable {env : BatchEnv} {P : BatchParams} {indices : List Nat}

/-- What a batch keeps from round to round. -/
structure BatchInv (P : BatchParams) (indices : List Nat) (s : BatchState) : Prop where
  acc : Accounted P s.history s.requests
  first : s.requests.map BatchRequest.index <+: indices
  all : .asked true ∉ s.history → s.requests.map BatchRequest.index = indices
  phases : ∃ queued polled, s.history = queued ++ polled ∧ (∀ e ∈ queued, e.waits = false) ∧
    startedIn polled = []
  closed : s.running = false → ∀ r ∈ s.requests, r.active = false

theorem batchInv_start (hnodup : indices.Nodup) :
    BatchInv P indices (startAll env P indices [] []) := by
  obtain ⟨events, rs, heq, hqs⟩ := @startAll_spec env P indices [] []
  obtain ⟨hfirst, hall, hwaits⟩ := hqs.frame
  have hempty : Accounted P [] [] := by
    constructor
    · rfl
    · exact List.nodup_nil
    · simp
    · intro i hi
      rfl
    · simp
    · intro before i after h
      cases before <;> cases h
  rw [heq, List.nil_append, List.nil_append]
  refine ⟨hempty.queueAll hqs hnodup, hfirst, hall, ⟨events, [], ?_, hwaits, rfl⟩, ?_⟩
  · exact (List.append_nil _).symm
  · intro h
    cases h

theorem BatchInv.round (hP : P.pending ≠ P.timeout) {s : BatchState}
    (hinv : BatchInv P indices s) : BatchInv P indices (pollRound env P s) := by
  by_cases hrunning : s.running = true
  · obtain ⟨cancel, events, rs, sleep, hps, hsleep, heq⟩ := @pollRound_spec env P hP s hrunning
    obtain ⟨hindex, -, hstarted⟩ := hps.frame
    have hasked : lastAsked (s.history ++ [.asked cancel]) = some cancel := by
      simp [lastAsked, BatchEvent.asked?]
    have hquiet : Accounted P (s.history ++ [.asked cancel]) ([] ++ s.requests) :=
      hinv.acc.quiet (by simp [BatchEvent.index?])
    have hpolled : Accounted P (s.history ++ [.asked cancel] ++ events) rs :=
      hquiet.pollAll hps hasked
    rw [heq]
    constructor
    · refine hpolled.quiet fun e he => ?_
      rw [hsleep e he]
      rfl
    · rw [hindex]
      exact hinv.first
    · intro hno
      rw [hindex]
      refine hinv.all fun h => hno ?_
      simp [h]
    · obtain ⟨queued, old, hold, hwaits, hnone⟩ := hinv.phases
      refine ⟨queued, old ++ ([.asked cancel] ++ events ++ sleep), ?_, hwaits, ?_⟩
      · rw [hold]
        simp
      · have hsleepStarted : startedIn sleep = [] := by
          refine List.filterMap_eq_nil_iff.2 fun e he => ?_
          rw [hsleep e he]
          rfl
        rw [startedIn_append, startedIn_append, startedIn_append, hnone, hstarted, hsleepStarted]
        rfl
    · intro hclosed r hr
      simpa using List.any_eq_false.1 hclosed r hr
  · rw [pollRound, if_neg hrunning]
    exact hinv

theorem batchInv_run (hP : P.pending ≠ P.timeout) (hnodup : indices.Nodup) (rounds : Nat) :
    BatchInv P indices (asyncPollBatch env P indices rounds) := by
  induction rounds with
  | zero => exact batchInv_start hnodup
  | succ n ih =>
    rw [asyncPollBatch, Function.iterate_succ_apply']
    exact ih.round hP

/-- What a batch promises of its history at any time. -/
structure BatchAccount (P : BatchParams) (indices : List Nat) (s : BatchState) : Prop where
  started_first : startedIn s.history <+: indices
  started_all : .asked true ∉ s.history → startedIn s.history = indices
  captured_started : ∀ i, i ∉ startedIn s.history → captures i s.history = 0
  captured_once : ∀ i, captures i s.history ≤ 1
  captured_end : s.running = false → ∀ i ∈ startedIn s.history, captures i s.history = 1
  aborted_once : ∀ i, aborts i s.history ≤ 1
  aborted_late : AbortsOk P s.history
  captured_last : ∀ before i rc began after,
    s.history = before ++ .captured i rc began :: after → ∀ rc', .queried i rc' ∉ after
  queued_first : ∀ before e after, s.history = before ++ e :: after → e.waits = true →
    startedIn after = []

theorem BatchInv.account {s : BatchState} (hinv : BatchInv P indices s) :
    BatchAccount P indices s := by
  have hacc := hinv.acc
  have hnone : ∀ i, i ∉ startedIn s.history → about i s.history = [] := fun i hi =>
    hacc.others i (hacc.started ▸ hi)
  have htrace : ∀ i ∈ startedIn s.history, ∃ r ∈ s.requests, r.index = i ∧
      RequestTrace P i (r.deadline - P.timeoutMs) r.active (about i s.history) := by
    intro i hi
    rw [hacc.started] at hi
    obtain ⟨r, hr, rfl⟩ := List.mem_map.1 hi
    exact ⟨r, hr, rfl, hacc.traces r hr⟩
  have hunstarted : ∀ i, i ∉ startedIn s.history → captures i s.history = 0 := by
    intro i hi
    rw [← captures_about, hnone i hi]
    rfl
  constructor
  · rw [hacc.started]
    exact hinv.first
  · rw [hacc.started]
    exact hinv.all
  · exact hunstarted
  · intro i
    by_cases hi : i ∈ startedIn s.history
    · obtain ⟨r, -, -, ht⟩ := htrace i hi
      rw [← captures_about, ht.captures_eq]
      split
      · exact Nat.zero_le _
      · exact le_rfl
    · rw [hunstarted i hi]
      exact Nat.zero_le _
  · intro hclosed i hi
    obtain ⟨r, hr, -, ht⟩ := htrace i hi
    rw [← captures_about, ht.captures_eq, hinv.closed hclosed r hr]
    rfl
  · intro i
    rw [← aborts_about]
    by_cases hi : i ∈ startedIn s.history
    · obtain ⟨r, -, -, ht⟩ := htrace i hi
      exact ht.aborts_le
    · rw [hnone i hi]
      exact Nat.zero_le _
  · exact hacc.aborts
  · intro before i rc began after heq rc' hmem
    have habout : about i s.history =
        about i before ++ .captured i rc began :: about i after := by
      have hindex : (BatchEvent.captured i rc began).index? = some i := rfl
      rw [heq, about_append, about_cons, if_pos hindex]
    have hquery : .queried i rc' ∈ about i after := mem_about.2 ⟨hmem, rfl⟩
    by_cases hi : i ∈ startedIn s.history
    · obtain ⟨r, -, -, ht⟩ := htrace i hi
      rw [ht.capture_last habout] at hquery
      cases hquery
    · rw [hnone i hi] at habout
      cases hbefore : about i before <;> rw [hbefore] at habout <;> cases habout
  · intro before e after heq hwaits
    obtain ⟨queued, polled, hold, hqueued, hpolled⟩ := hinv.phases
    rw [hold] at heq
    rcases List.append_eq_append_iff.1 heq with ⟨more, rfl, hmore⟩ | ⟨more, rfl, hmore⟩
    · rw [hmore, startedIn_append] at hpolled
      have hsuffix := (List.append_eq_nil_iff.1 hpolled).2
      rw [show e :: after = [e] ++ after from rfl, startedIn_append] at hsuffix
      exact (List.append_eq_nil_iff.1 hsuffix).2
    · cases more with
      | nil =>
        rw [List.nil_append] at hmore
        rw [← hmore, show e :: after = [e] ++ after from rfl, startedIn_append] at hpolled
        exact (List.append_eq_nil_iff.1 hpolled).2
      | cons x more =>
        rw [List.cons_append] at hmore
        obtain ⟨rfl, rfl⟩ := List.cons.inj hmore
        rw [hqueued e (List.mem_append_right _ List.mem_cons_self)] at hwaits
        cases hwaits

/-! ## The end of a batch -/

/-- A round in which the clock is past every deadline closes all requests. -/
theorem PolledAll.closes {cancel : Bool} {rs rs' : List BatchRequest} {events : List BatchEvent}
    (hps : PolledAll P cancel rs events rs')
    (hclock : ∀ now, .read now ∈ events → ∀ r ∈ rs, r.deadline ≤ now) :
    ∀ r ∈ rs', r.active = false := by
  induction hps with
  | nil => simp
  | @cons r r' rs rs' events more hp hs ih =>
    have hmore := ih fun now hmem q hq =>
      hclock now (List.mem_append_right _ hmem) q (List.mem_cons_of_mem _ hq)
    refine List.forall_mem_cons.2 ⟨?_, hmore⟩
    cases hp with
    | closed hactive => exact hactive
    | answered hactive hrc => rfl
    | @waiting now hactive hcancel hnow =>
      have hpast := hclock now (by simp) r List.mem_cons_self
      omega
    | late hactive hcancel hnow => rfl
    | cancelled hactive hcancel => rfl

/-- From some event on the clock is past the deadlines of all requests. -/
def ClockPasses (env : BatchEnv) (P : BatchParams) (indices : List Nat) : Prop :=
  ∃ from_, ∀ rounds before now after,
    (asyncPollBatch env P indices rounds).history = before ++ .read now :: after →
      from_ ≤ before.length →
        ∀ r ∈ (asyncPollBatch env P indices rounds).requests, r.deadline ≤ now

theorem asyncPollBatch_ends (hP : P.pending ≠ P.timeout) (hclock : ClockPasses env P indices) :
    ∃ rounds, (asyncPollBatch env P indices rounds).running = false := by
  by_contra hnever
  have hrunning : ∀ n, (asyncPollBatch env P indices n).running = true := by
    intro n
    by_contra hn
    exact hnever ⟨n, by simpa using hn⟩
  have hsucc : ∀ n, asyncPollBatch env P indices (n + 1) =
      pollRound env P (asyncPollBatch env P indices n) := fun n =>
    Function.iterate_succ_apply' ..
  -- each round adds to the history
  have hlength : ∀ n, n ≤ (asyncPollBatch env P indices n).history.length := by
    intro n
    induction n with
    | zero => exact Nat.zero_le _
    | succ n ih =>
      obtain ⟨cancel, events, rs, sleep, -, -, heq⟩ := @pollRound_spec env P hP _ (hrunning n)
      rw [hsucc, heq]
      simp only [List.length_append, List.length_singleton]
      omega
  obtain ⟨n, hpast⟩ := hclock
  obtain ⟨cancel, events, rs, sleep, hps, -, heq⟩ := @pollRound_spec env P hP _ (hrunning n)
  have hclosed : ∀ r ∈ rs, r.active = false := by
    refine hps.closes fun now hmem r hr => ?_
    obtain ⟨first, second, rfl⟩ := List.append_of_mem hmem
    have hdeadline : r.deadline ∈ rs.map BatchRequest.deadline := by
      rw [hps.frame.2.1]
      exact List.mem_map_of_mem hr
    obtain ⟨q, hq, hqr⟩ := List.mem_map.1 hdeadline
    rw [← hqr]
    refine hpast (n + 1)
      ((asyncPollBatch env P indices n).history ++ [.asked cancel] ++ first) now
      (second ++ sleep) ?_ ?_ q ?_
    · rw [hsucc, heq]
      simp
    · have hn := hlength n
      simp only [List.length_append, List.length_singleton]
      omega
    · rw [hsucc, heq]
      exact hq
  have hend := hrunning (n + 1)
  rw [hsucc, heq] at hend
  obtain ⟨r, hr, hactive⟩ := List.any_eq_true.1 hend
  rw [hclosed r hr] at hactive
  cases hactive

/-- **A batch accounts for each of its requests.** At any time its history keeps the promises of
`BatchAccount`, and it ends if the clock passes all deadlines. -/
theorem asyncPollBatch_account (env : BatchEnv) (P : BatchParams) (hP : P.pending ≠ P.timeout)
    (indices : List Nat) (hnodup : indices.Nodup) :
    (∀ rounds, BatchAccount P indices (asyncPollBatch env P indices rounds)) ∧
      (ClockPasses env P indices →
        ∃ rounds, (asyncPollBatch env P indices rounds).running = false) :=
  ⟨fun rounds => (batchInv_run hP hnodup rounds).account, asyncPollBatch_ends hP⟩

/-- A reading of the clock is past a time. -/
def BatchEvent.passes (time : Int) : BatchEvent → Bool
  | .read now => decide (time ≤ now)
  | _ => true

/-- One request fails at once, one is answered, and one is open when its time is over. -/
def threeEnv : BatchEnv where
  cancelled _ := false
  now h := if h.length < 16 then 0 else 5
  start _ i := if i = 1 then -7 else 1
  status _ i := if i = 0 then 0 else 1

def threeParams : BatchParams where
  timeoutMs := 3
  pending := 1
  timeout := -32

theorem three_accounted :
    (∀ rounds, BatchAccount threeParams [0, 1, 2] (asyncPollBatch threeEnv threeParams [0, 1, 2]
      rounds)) ∧
      ∃ rounds, (asyncPollBatch threeEnv threeParams [0, 1, 2] rounds).running = false := by
  have hstays : ∀ n, asyncPollBatch threeEnv threeParams [0, 1, 2] (n + 2) =
      asyncPollBatch threeEnv threeParams [0, 1, 2] 2 := by
    intro n
    induction n with
    | zero => rfl
    | succ n ih =>
      have hsucc : asyncPollBatch threeEnv threeParams [0, 1, 2] (n + 1 + 2) = pollRound threeEnv
          threeParams (asyncPollBatch threeEnv threeParams [0, 1, 2] (n + 2)) :=
        Function.iterate_succ_apply' ..
      rw [hsucc, ih]
      rfl
  have hclock : ClockPasses threeEnv threeParams [0, 1, 2] := by
    have hpast : ∀ n < 3, ∀ e ∈ (asyncPollBatch threeEnv threeParams [0, 1, 2] n).history.drop 16,
        ∀ r ∈ (asyncPollBatch threeEnv threeParams [0, 1, 2] n).requests,
          e.passes r.deadline = true := by
      decide
    refine ⟨16, fun rounds before now after heq hlength r hr => ?_⟩
    obtain ⟨n, hn, hsame⟩ : ∃ n < 3, asyncPollBatch threeEnv threeParams [0, 1, 2] rounds =
        asyncPollBatch threeEnv threeParams [0, 1, 2] n := by
      by_cases hrounds : rounds < 3
      · exact ⟨rounds, hrounds, rfl⟩
      · refine ⟨2, by decide, ?_⟩
        rw [← hstays (rounds - 2), Nat.sub_add_cancel (by omega)]
    rw [hsame] at heq hr
    have hmem : .read now ∈
        (asyncPollBatch threeEnv threeParams [0, 1, 2] n).history.drop 16 := by
      rw [heq, List.drop_append_of_le_length hlength]
      exact List.mem_append_right _ List.mem_cons_self
    exact of_decide_eq_true (hpast n hn _ hmem r hr)
  have haccount := asyncPollBatch_account threeEnv threeParams (by decide) [0, 1, 2] (by decide)
  exact ⟨haccount.1, haccount.2 hclock⟩

end

end OpcBridge
