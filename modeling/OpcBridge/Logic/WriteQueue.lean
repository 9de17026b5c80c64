import OpcBridge.Core.Text
import OpcBridge.Lib.Run
import Mathlib.Logic.Function.Basic

/-!
# The queue of automation writes

Scripts enqueue tag writes from any thread; one worker takes a key, writes its value outside the
lock and comes back to finish the entry. A value that arrives during the write is seen at the
finish, which queues the key again when the entry no longer holds the value that was written.

Each critical section is one step. `QueueInv` is kept by every step; it ties the ready list and the
two flags of an entry to the place where the worker is.
-/

namespace OpcBridge.WriteQueue

open Lib

/-! ## State -/

/-- `LogicAsyncWriteEntry` -/
structure Entry where
  conn : String := ""
  name : String := ""
  value : String := ""
  enqueuedAt : Nat := 0
  queued : Bool := false
  inProgress : Bool := false
deriving DecidableEq

/-- Where the worker is in its loop, with the key and the copy of the entry it took. -/
inductive Worker
  | idle
  | taken (key : String) (job : Entry)
  | writing (key : String) (job : Entry)
  | wrote (key : String) (job : Entry)
deriving DecidableEq

def Worker.key : Worker → Option String
  | idle => none
  | taken key _ => some key
  | writing key _ => some key
  | wrote key _ => some key

structure State where
  entries : String → Option Entry := fun _ => none
  ready : List String := []
  worker : Worker := .idle
  stopped : Bool := false
  /-- Calls of `write_tag_by_name` that have not returned, with the value written. -/
  open_ : List (String × String) := []
  /-- Every value enqueued, newest first. -/
  enqueued : List (String × String) := []
  /-- Every value a write was attempted with, newest first. -/
  attempted : List (String × String) := []

inductive Event
  | enqueue (conn name value : String) (now : Nat)
  | take
  | beginWrite
  | endWrite
  | finish
  | stop

/-! ## Steps -/

def enqueue (s : State) (conn name value : String) (now : Nat) : State × Except String Unit :=
  let c := trimCopy conn
  let n := trimCopy name
  if c = "" ∨ n = "" then (s, .error "missing connection or tag name")
  else
    let key := makeTagKey c n
    let entry := { (s.entries key).getD {} with
      conn := c, name := n, value := value, enqueuedAt := now }
    let s := { s with enqueued := (key, value) :: s.enqueued }
    if !entry.queued && !entry.inProgress then
      ({ s with
          entries := Function.update s.entries key (some { entry with queued := true })
          ready := s.ready ++ [key] }, .ok ())
    else ({ s with entries := Function.update s.entries key (some entry) }, .ok ())

/-- The first critical section of the worker. -/
def take (s : State) : State :=
  match s.worker, s.stopped, s.ready with
  | .idle, false, key :: ready =>
    match s.entries key with
    | none => { s with ready }
    | some entry =>
      let job := { entry with queued := false, inProgress := true }
      { s with
        ready
        entries := Function.update s.entries key (some job)
        worker := .taken key job }
  | _, _, _ => s

def beginWrite (s : State) : State :=
  match s.worker with
  | .taken key job =>
    { s with
      worker := .writing key job
      open_ := (key, job.value) :: s.open_
      attempted := (key, job.value) :: s.attempted }
  | _ => s

def endWrite (s : State) : State :=
  match s.worker with
  | .writing key job =>
    { s with worker := .wrote key job, open_ := s.open_.erase (key, job.value) }
  | _ => s

/-- The second critical section of the worker. -/
def finish (s : State) : State :=
  match s.worker with
  | .wrote key job =>
    let s := { s with worker := .idle }
    match s.entries key with
    | none => s
    | some entry =>
      let entry := { entry with inProgress := false }
      if entry.value ≠ job.value then
        if !entry.queued then
          { s with
            entries := Function.update s.entries key (some { entry with queued := true })
            ready := s.ready ++ [key] }
        else { s with entries := Function.update s.entries key (some entry) }
      else { s with entries := Function.update s.entries key none }
  | _ => s

def step (s : State) : Event → State
  | .enqueue conn name value now => (enqueue s conn name value now).1
  | .take => take s
  | .beginWrite => beginWrite s
  | .endWrite => endWrite s
  | .finish => finish s
  | .stop => { s with stopped := true }

/-! ## The invariant -/

structure QueueInv (s : State) : Prop where
  nodup : s.ready.Nodup
  ready : ∀ key, key ∈ s.ready ↔ ∃ e, s.entries key = some e ∧ e.queued = true
  /-- An entry is queued or in progress, never both. -/
  flags : ∀ key e, s.entries key = some e → (e.queued = true ↔ e.inProgress = false)
  held : ∀ key, s.worker.key = some key ↔ ∃ e, s.entries key = some e ∧ e.inProgress = true
  value : ∀ key e, s.entries key = some e → s.enqueued.lookup key = some e.value
  gone : ∀ key, s.entries key = none → s.attempted.lookup key = s.enqueued.lookup key
  writing : s.open_ = match s.worker with
    | .writing key job => [(key, job.value)]
    | _ => []
  wrote : ∀ key job, s.worker = .writing key job ∨ s.worker = .wrote key job →
    s.attempted.lookup key = some job.value

theorem queueInv_start : QueueInv {} where
  nodup := List.nodup_nil
  ready := by simp
  flags := by simp
  held := by simp [Worker.key]
  value := by simp
  gone := by simp
  writing := rfl
  wrote := by simp

variable {s : State}

theorem update_eq_some {m : String → Option Entry} {key k : String} {v : Option Entry} {e : Entry}
    (h : Function.update m key v k = some e) : (k = key ∧ v = some e) ∨ (k ≠ key ∧ m k = some e) := by
  by_cases hk : k = key
  · subst hk
    exact .inl ⟨rfl, by rwa [Function.update_self] at h⟩
  · exact .inr ⟨hk, by rwa [Function.update_of_ne hk] at h⟩

theorem update_eq_none {m : String → Option Entry} {key k : String} {v : Option Entry}
    (h : Function.update m key v k = none) : (k = key ∧ v = none) ∨ (k ≠ key ∧ m k = none) := by
  by_cases hk : k = key
  · subst hk
    exact .inl ⟨rfl, by rwa [Function.update_self] at h⟩
  · exact .inr ⟨hk, by rwa [Function.update_of_ne hk] at h⟩

/-- A key that is not queued is not in the ready list. -/
theorem QueueInv.not_ready (h : QueueInv s) {key : String}
    (hq : ∀ e, s.entries key = some e → e.queued = false) : key ∉ s.ready := by
  intro hm
  obtain ⟨e, he, hqe⟩ := (h.ready key).1 hm
  rw [hq e he] at hqe
  cases hqe

/-- A key without an entry is not held by the worker. -/
theorem QueueInv.not_held (h : QueueInv s) {key : String} (he : s.entries key = none) :
    s.worker.key ≠ some key := by
  intro hw
  obtain ⟨e, he', -⟩ := (h.held key).1 hw
  rw [he] at he'
  cases he'

/-- The key of a lookup that goes past the newest entry. -/
theorem lookup_ne {log : List (String × String)} {key k v : String} (hne : k ≠ key) :
    ((key, v) :: log).lookup k = log.lookup k := by
  have hbeq : (k == key) = false := by simpa using hne
  rw [List.lookup_cons, hbeq]

theorem nodup_push {l : List String} {key : String} (h : l.Nodup) (hk : key ∉ l) :
    (l ++ [key]).Nodup := by
  rw [List.nodup_append]
  refine ⟨h, by simp, fun a ha b hb hab => ?_⟩
  rw [List.mem_singleton] at hb
  exact hk (hb ▸ hab ▸ ha)

/-- A new entry, queued. -/
theorem QueueInv.add (h : QueueInv s) {key : String} {e : Entry} (he : s.entries key = none)
    (hq : e.queued = true) (hp : e.inProgress = false) :
    QueueInv { s with
      enqueued := (key, e.value) :: s.enqueued
      entries := Function.update s.entries key (some e)
      ready := s.ready ++ [key] } := by
  have hnr : key ∉ s.ready := h.not_ready fun e' he' => by rw [he] at he'; cases he'
  refine { h with nodup := nodup_push h.nodup hnr, ready := fun k => ?_, flags := fun k e' hk => ?_,
                  held := fun k => ?_, value := fun k e' hk => ?_, gone := fun k hk => ?_ }
  · by_cases hkk : k = key
    · subst hkk
      simp [hq]
    · simp only [List.mem_append, List.mem_singleton, hkk, or_false, Function.update_of_ne hkk]
      exact h.ready k
  · rcases update_eq_some hk with ⟨rfl, hv⟩ | ⟨-, hk⟩
    · cases hv
      simp [hq, hp]
    · exact h.flags k e' hk
  · by_cases hkk : k = key
    · subst hkk
      simp only [Function.update_self, Option.some.injEq]
      constructor
      · intro hw
        exact absurd hw (h.not_held he)
      · rintro ⟨e', rfl, hp'⟩
        rw [hp] at hp'
        cases hp'
    · simp only [Function.update_of_ne hkk]
      exact h.held k
  · rcases update_eq_some hk with ⟨rfl, hv⟩ | ⟨hne, hk⟩
    · cases hv
      exact List.lookup_cons_self
    · exact (lookup_ne hne).trans (h.value k e' hk)
  · rcases update_eq_none hk with ⟨-, hv⟩ | ⟨hne, hk⟩
    · cases hv
    · exact (h.gone k hk).trans (lookup_ne hne).symm

/-- A new value in an entry that is already queued or in progress. -/
theorem QueueInv.put (h : QueueInv s) {key : String} {old e : Entry} (he : s.entries key = some old)
    (hq : e.queued = old.queued) (hp : e.inProgress = old.inProgress) :
    QueueInv { s with
      enqueued := (key, e.value) :: s.enqueued
      entries := Function.update s.entries key (some e) } := by
  refine { h with ready := fun k => ?_, flags := fun k e' hk => ?_, held := fun k => ?_,
                  value := fun k e' hk => ?_, gone := fun k hk => ?_ }
  · by_cases hkk : k = key
    · subst hkk
      simp [h.ready, he, hq]
    · simp only [Function.update_of_ne hkk]
      exact h.ready k
  · rcases update_eq_some hk with ⟨rfl, hv⟩ | ⟨-, hk⟩
    · cases hv
      rw [hq, hp]
      exact h.flags k old he
    · exact h.flags k e' hk
  · by_cases hkk : k = key
    · subst hkk
      simp [h.held, he, hp]
    · simp only [Function.update_of_ne hkk]
      exact h.held k
  · rcases update_eq_some hk with ⟨rfl, hv⟩ | ⟨hne, hk⟩
    · cases hv
      exact List.lookup_cons_self
    · exact (lookup_ne hne).trans (h.value k e' hk)
  · rcases update_eq_none hk with ⟨-, hv⟩ | ⟨hne, hk⟩
    · cases hv
    · exact (h.gone k hk).trans (lookup_ne hne).symm

theorem enqueue_inv (h : QueueInv s) (conn name value : String) (now : Nat) :
    QueueInv (enqueue s conn name value now).1 := by
  unfold enqueue
  dsimp only
  split
  · exact h
  · generalize makeTagKey (trimCopy conn) (trimCopy name) = key
    cases he : s.entries key with
    | none => exact h.add he rfl rfl
    | some old =>
      have hflags := h.flags key old he
      simp only [Option.getD_some]
      split
      · -- an entry that exists is never idle
        rename_i hidle
        simp only [Bool.and_eq_true, Bool.not_eq_true'] at hidle
        rw [hidle.1, hidle.2] at hflags
        exact absurd (hflags.2 rfl) (by simp)
      · exact h.put (e := { old with
          conn := trimCopy conn, name := trimCopy name, value := value, enqueuedAt := now }) he rfl rfl

theorem take_inv (h : QueueInv s) : QueueInv (take s) := by
  unfold take
  split
  · rename_i key ready hworker hstop hready
    have hmem : key ∈ s.ready := by
      rw [hready]
      exact List.mem_cons_self
    obtain ⟨e, he, hq⟩ := (h.ready key).1 hmem
    have hnd := h.nodup
    rw [hready, List.nodup_cons] at hnd
    have hopen := h.writing
    rw [hworker] at hopen
    simp only [he]
    refine
      { nodup := hnd.2, ready := fun k => ?_, flags := fun k e' hk => ?_, held := fun k => ?_,
        value := fun k e' hk => ?_, gone := fun k hk => ?_, writing := hopen,
        wrote := fun k job hw => by simp at hw }
    · by_cases hkk : k = key
      · subst hkk
        simp [hnd.1]
      · have hk := h.ready k
        rw [hready, List.mem_cons] at hk
        simp only [Function.update_of_ne hkk]
        exact ⟨fun hm => hk.1 (.inr hm), fun hm => (hk.2 hm).resolve_left hkk⟩
    · rcases update_eq_some hk with ⟨rfl, hv⟩ | ⟨-, hk⟩
      · cases hv
        simp
      · exact h.flags k e' hk
    · by_cases hkk : k = key
      · subst hkk
        simp [Worker.key]
      · have hk := h.held k
        rw [hworker] at hk
        simp only [Function.update_of_ne hkk, Worker.key, Option.some.injEq]
        exact ⟨fun he => absurd he.symm hkk, fun hm => by simpa [Worker.key] using hk.2 hm⟩
    · rcases update_eq_some hk with ⟨rfl, hv⟩ | ⟨-, hk⟩
      · cases hv
        exact h.value k e he
      · exact h.value k e' hk
    · rcases update_eq_none hk with ⟨-, hv⟩ | ⟨-, hk⟩
      · cases hv
      · exact h.gone k hk
  · exact h

theorem beginWrite_inv (h : QueueInv s) : QueueInv (beginWrite s) := by
  unfold beginWrite
  split
  · rename_i key job hworker
    have hopen := h.writing
    have hheld := h.held
    rw [hworker] at hopen hheld
    obtain ⟨e, he, hp⟩ := (hheld key).1 rfl
    refine { h with held := hheld, gone := fun k hk => ?_, writing := ?_, wrote := ?_ }
    · have hne : k ≠ key := by
        rintro rfl
        rw [he] at hk
        cases hk
      exact (lookup_ne hne).trans (h.gone k hk)
    · simp [hopen]
    · intro k job' hw
      simp only [Worker.writing.injEq, reduceCtorEq, or_false] at hw
      obtain ⟨rfl, rfl⟩ := hw
      exact List.lookup_cons_self
  · exact h

theorem endWrite_inv (h : QueueInv s) : QueueInv (endWrite s) := by
  unfold endWrite
  split
  · rename_i key job hworker
    have hopen := h.writing
    have hheld := h.held
    rw [hworker] at hopen hheld
    refine { h with held := hheld, writing := ?_, wrote := ?_ }
    · simp [hopen]
    · intro k job' hw
      simp only [reduceCtorEq, Worker.wrote.injEq, false_or] at hw
      obtain ⟨rfl, rfl⟩ := hw
      exact h.wrote key job (.inl hworker)
  · exact h

/-- The worker leaves: the entry is queued again or goes. -/
theorem finish_inv (h : QueueInv s) : QueueInv (finish s) := by
  unfold finish
  split
  · rename_i key job hworker
    have hopen := h.writing
    have hheld := h.held
    rw [hworker] at hopen hheld
    obtain ⟨e, he, hp⟩ := (hheld key).1 rfl
    have hq : e.queued = false := by
      have hflags := h.flags key e he
      rw [hp] at hflags
      simpa using hflags
    have hnr : key ∉ s.ready := h.not_ready fun e' he' => by
      rw [he, Option.some.injEq] at he'
      rw [← he', hq]
    -- only this key was held
    have hfree : ∀ k, k ≠ key → ¬ ∃ e, s.entries k = some e ∧ e.inProgress = true := by
      intro k hk hm
      have hw := (hheld k).2 hm
      simp only [Worker.key, Option.some.injEq] at hw
      exact hk hw.symm
    have hwrote := h.wrote key job (.inr hworker)
    simp only [he, hq, Bool.not_false, if_true]
    split
    · refine
        { nodup := nodup_push h.nodup hnr, ready := fun k => ?_, flags := fun k e' hk => ?_,
          held := fun k => ?_, value := fun k e' hk => ?_, gone := fun k hk => ?_,
          writing := hopen, wrote := by simp }
      · by_cases hkk : k = key
        · subst hkk
          simp
        · simp only [List.mem_append, List.mem_singleton, hkk, or_false,
            Function.update_of_ne hkk]
          exact h.ready k
      · rcases update_eq_some hk with ⟨rfl, hv⟩ | ⟨-, hk⟩
        · cases hv
          simp
        · exact h.flags k e' hk
      · by_cases hkk : k = key
        · subst hkk
          simp [Worker.key]
        · simp only [Worker.key, Function.update_of_ne hkk]
          exact ⟨fun hw => (by cases hw), fun hm => absurd hm (hfree k hkk)⟩
      · rcases update_eq_some hk with ⟨rfl, hv⟩ | ⟨-, hk⟩
        · cases hv
          exact h.value k e he
        · exact h.value k e' hk
      · rcases update_eq_none hk with ⟨-, hv⟩ | ⟨-, hk⟩
        · cases hv
        · exact h.gone k hk
    · rename_i hval
      rw [not_not] at hval
      refine
        { nodup := h.nodup, ready := fun k => ?_, flags := fun k e' hk => ?_, held := fun k => ?_,
          value := fun k e' hk => ?_, gone := fun k hk => ?_, writing := hopen, wrote := by simp }
      · by_cases hkk : k = key
        · subst hkk
          simp [hnr]
        · simp only [Function.update_of_ne hkk]
          exact h.ready k
      · rcases update_eq_some hk with ⟨-, hv⟩ | ⟨-, hk⟩
        · cases hv
        · exact h.flags k e' hk
      · by_cases hkk : k = key
        · subst hkk
          simp [Worker.key]
        · simp only [Worker.key, Function.update_of_ne hkk]
          exact ⟨fun hw => (by cases hw), fun hm => absurd hm (hfree k hkk)⟩
      · rcases update_eq_some hk with ⟨-, hv⟩ | ⟨-, hk⟩
        · cases hv
        · exact h.value k e' hk
      · rcases update_eq_none hk with ⟨rfl, -⟩ | ⟨-, hk⟩
        · -- the value written is the last one enqueued
          exact hwrote.trans ((congrArg some hval).symm.trans (h.value k e he).symm)
        · exact h.gone k hk
  · exact h

theorem step_inv (h : QueueInv s) (e : Event) : QueueInv (step s e) := by
  cases e with
  | enqueue conn name value now => exact enqueue_inv h conn name value now
  | take => exact take_inv h
  | beginWrite => exact beginWrite_inv h
  | endWrite => exact endWrite_inv h
  | finish => exact finish_inv h
  | stop => exact { h with }

/-! ## Every run -/

/-- What has to hold in every state of the queue. -/
structure QueueOk (s : State) : Prop where
  /-- A key is in the ready list at most once, and exactly when its entry is marked queued. -/
  ready_nodup : s.ready.Nodup
  ready_iff : ∀ key, key ∈ s.ready ↔ ∃ e, s.entries key = some e ∧ e.queued = true
  busy : ∀ key e, s.entries key = some e → e.queued = true ∨ e.inProgress = true
  /-- No two writes are open at once, so none of one key. -/
  one_write : s.open_.length ≤ 1
  /-- A key without an entry was last written with the value last enqueued for it. -/
  settled : ∀ key, s.entries key = none → s.attempted.lookup key = s.enqueued.lookup key

theorem QueueInv.ok (h : QueueInv s) : QueueOk s where
  ready_nodup := h.nodup
  ready_iff := h.ready
  busy key e he := by
    have := h.flags key e he
    cases hq : e.queued <;> simp_all
  one_write := by
    rw [h.writing]
    split <;> simp
  settled := h.gone

theorem enqueue_other (s : State) (conn name value : String) (now : Nat) {key : String}
    (hkey : key ≠ makeTagKey (trimCopy conn) (trimCopy name)) :
    (enqueue s conn name value now).1.entries key = s.entries key ∧
      (key ∈ (enqueue s conn name value now).1.ready ↔ key ∈ s.ready) := by
  unfold enqueue
  dsimp only
  split
  · exact ⟨rfl, .rfl⟩
  · split
    · exact ⟨Function.update_of_ne hkey _ _, by simp [hkey]⟩
    · exact ⟨Function.update_of_ne hkey _ _, .rfl⟩

/-- **The write queue** in every state that any interleaving reaches; an enqueue leaves the entries
of other keys alone. -/
theorem write_queue_ok (es : List Event) :
    QueueOk (run step {} es) ∧
      ∀ conn name value now key, key ≠ makeTagKey (trimCopy conn) (trimCopy name) →
        (step (run step {} es) (.enqueue conn name value now)).entries key =
            (run step {} es).entries key ∧
          (key ∈ (step (run step {} es) (.enqueue conn name value now)).ready ↔
            key ∈ (run step {} es).ready) := by
  have hinv : QueueInv (run step {} es) :=
    run_induct (I := QueueInv) (fun _ e h => step_inv h e) queueInv_start es
  exact ⟨hinv.ok, fun conn name value now _ hkey => enqueue_other _ conn name value now hkey⟩

/-- A value that arrives during the write of another is written next. -/
example : (run step {} [.enqueue "C" "T" "1" 1, .take, .beginWrite, .enqueue " C" "T" "2" 2,
    .endWrite, .finish, .take, .beginWrite, .endWrite, .finish]).attempted =
      [("C:T", "2"), ("C:T", "1")] := by decide

end OpcBridge.WriteQueue
