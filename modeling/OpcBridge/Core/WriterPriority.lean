import OpcBridge.Lib.Counting
import OpcBridge.Lib.Run

/-!
# The writer-priority lock

`WriterPrioritySharedMutex`: each section under `stateMutex_` is one step of one thread. A blocked
thread is in `stateCv_.wait` and carries a mark, whether a `notify_all` came since it last found its
condition false; it may check its condition again at any time, so a spurious wake-up is the step of
a thread without the mark. A thread that holds the lock more than once counts as several.
-/

namespace OpcBridge

open Lib

/-- Where a thread is in the calls of the lock. -/
inductive ThreadState
  | idle
  | waitingWriter (notified : Bool)
  | waitingReader (notified : Bool)
  | writing
  | reading
deriving DecidableEq

namespace ThreadState

def isWaitingWriter : ThreadState → Bool
  | waitingWriter _ => true
  | _ => false

def isWaitingReader : ThreadState → Bool
  | waitingReader _ => true
  | _ => false

def isReading : ThreadState → Bool
  | reading => true
  | _ => false

def isWriting : ThreadState → Bool
  | writing => true
  | _ => false

def holds (x : ThreadState) : Bool := x.isReading || x.isWriting

/-- `stateCv_.notify_all`, for one thread. -/
def notify : ThreadState → ThreadState
  | waitingWriter _ => waitingWriter true
  | waitingReader _ => waitingReader true
  | x => x

end ThreadState

structure WriterPrioritySharedMutex where
  activeReaders : Nat := 0
  waitingWriters : Nat := 0
  writerActive : Bool := false
deriving DecidableEq

namespace WriterPrioritySharedMutex

/-- The condition of `lock`. -/
def writerMayEnter (m : WriterPrioritySharedMutex) : Bool := !m.writerActive && m.activeReaders == 0

/-- The condition of `lock_shared`. -/
def readerMayEnter (m : WriterPrioritySharedMutex) : Bool :=
  !m.writerActive && m.waitingWriters == 0

end WriterPrioritySharedMutex

structure LockState (T : Type) where
  mutex : WriterPrioritySharedMutex := {}
  threads : T → ThreadState := fun _ => .idle

inductive LockStep (T : Type)
  | lock (t : T)
  | unlock (t : T)
  | lockShared (t : T)
  | unlockShared (t : T)
  /-- A blocked thread checks its condition again. -/
  | wake (t : T)

namespace LockState

variable {T : Type}

def notifyAll (s : LockState T) : LockState T :=
  { s with threads := fun t => (s.threads t).notify }

section
variable [DecidableEq T]

def setThread (s : LockState T) (t : T) (x : ThreadState) : LockState T :=
  { s with threads := Function.update s.threads t x }

/-- The rest of `lock`, from the check of the condition on. -/
def checkWriter (s : LockState T) (t : T) : LockState T :=
  if s.mutex.writerMayEnter then
    { s.setThread t .writing with
      mutex := { s.mutex with
        waitingWriters := s.mutex.waitingWriters - 1
        writerActive := true } }
  else s.setThread t (.waitingWriter false)

/-- The rest of `lock_shared`. -/
def checkReader (s : LockState T) (t : T) : LockState T :=
  if s.mutex.readerMayEnter then
    { s.setThread t .reading with
      mutex := { s.mutex with activeReaders := s.mutex.activeReaders + 1 } }
  else s.setThread t (.waitingReader false)

/-- A call of a thread that may not make it changes nothing: threads unlock what they locked. -/
def step (s : LockState T) : LockStep T → LockState T
  | .lock t =>
    if s.threads t = .idle then
      { s with mutex := { s.mutex with
          waitingWriters := s.mutex.waitingWriters + 1 } }.checkWriter t
    else s
  | .unlock t =>
    if s.threads t = .writing then
      { s.setThread t .idle with mutex := { s.mutex with writerActive := false } }.notifyAll
    else s
  | .lockShared t => if s.threads t = .idle then s.checkReader t else s
  | .unlockShared t =>
    if s.threads t = .reading then
      let left := { s.setThread t .idle with
        mutex := { s.mutex with activeReaders := s.mutex.activeReaders - 1 } }
      if left.mutex.activeReaders = 0 then left.notifyAll else left
    else s
  | .wake t =>
    match s.threads t with
    | .waitingWriter _ => s.checkWriter t
    | .waitingReader _ => s.checkReader t
    | _ => s

end

/-! ## The invariant -/

/-- Nobody holds the lock. -/
def Free (s : LockState T) : Prop := ∀ t, (s.threads t).holds = false

/-- While nobody holds the lock, a waiting writer has been notified, and so has a waiting reader if
no writer waits. -/
def Awake (s : LockState T) : Prop :=
  s.Free → ∀ t n, (s.threads t = .waitingWriter n → n = true) ∧
    (s.mutex.waitingWriters = 0 → s.threads t = .waitingReader n → n = true)

theorem notifyAll_awake (s : LockState T) : s.notifyAll.Awake := by
  intro _ t n
  have hnotify : ∀ x : ThreadState, (x.notify = .waitingWriter n → n = true) ∧
      (x.notify = .waitingReader n → n = true) := by
    intro x
    cases x <;> simp [ThreadState.notify, eq_comm]
  exact ⟨(hnotify _).1, fun _ => (hnotify _).2⟩

theorem awake_of_held {s : LockState T} {t : T} (h : (s.threads t).holds = true) : s.Awake := by
  intro hfree
  rw [hfree t] at h
  cases h

variable [Fintype T]

/-- The counters are the numbers of threads that they stand for. -/
structure Counted (s : LockState T) : Prop where
  readers : s.mutex.activeReaders = countIn ThreadState.isReading s.threads
  writers : s.mutex.waitingWriters = countIn ThreadState.isWaitingWriter s.threads
  active : s.mutex.writerActive.toNat = countIn ThreadState.isWriting s.threads

structure LockInv (s : LockState T) : Prop where
  counted : s.Counted
  /-- A writer has the lock alone. -/
  exclusive : s.mutex.writerActive = true → s.mutex.activeReaders = 0
  awake : s.Awake

theorem Counted.free {s : LockState T} (h : s.Counted) :
    s.Free ↔ s.mutex.writerActive = false ∧ s.mutex.activeReaders = 0 := by
  have hreaders : s.mutex.activeReaders = 0 ↔ ∀ t, (s.threads t).isReading = false := by
    rw [h.readers, countIn_eq_zero]
  have hactive : s.mutex.writerActive = false ↔ ∀ t, (s.threads t).isWriting = false := by
    rw [← countIn_eq_zero, ← h.active]
    cases s.mutex.writerActive <;> simp
  rw [hreaders, hactive]
  simp only [Free, ThreadState.holds, Bool.or_eq_false_iff]
  exact ⟨fun hall => ⟨fun t => (hall t).2, fun t => (hall t).1⟩,
    fun ⟨hwriting, hreading⟩ t => ⟨hreading t, hwriting t⟩⟩

theorem Counted.writerMayEnter {s : LockState T} (h : s.Counted) :
    s.mutex.writerMayEnter = true ↔ s.Free := by
  rw [h.free]
  simp [WriterPrioritySharedMutex.writerMayEnter]

theorem Counted.notifyAll {s : LockState T} (h : s.Counted) : s.notifyAll.Counted := by
  have hsame : ∀ p : ThreadState → Bool, (∀ x, p x.notify = p x) →
      countIn p s.notifyAll.threads = countIn p s.threads :=
    fun p hp => countIn_congr fun t => hp (s.threads t)
  refine ⟨h.readers.trans (hsame _ ?_).symm, h.writers.trans (hsame _ ?_).symm,
    h.active.trans (hsame _ ?_).symm⟩ <;> intro x <;> cases x <;> rfl

section
variable [DecidableEq T]

/-- One thread goes from one place to another and the counters with it. -/
theorem Counted.move {s : LockState T} (h : s.Counted) {m : WriterPrioritySharedMutex} {t : T}
    {x : ThreadState}
    (hreaders : m.activeReaders + (s.threads t).isReading.toNat =
      s.mutex.activeReaders + x.isReading.toNat)
    (hwriters : m.waitingWriters + (s.threads t).isWaitingWriter.toNat =
      s.mutex.waitingWriters + x.isWaitingWriter.toNat)
    (hactive : m.writerActive.toNat + (s.threads t).isWriting.toNat =
      s.mutex.writerActive.toNat + x.isWriting.toNat) :
    Counted { s.setThread t x with mutex := m } := by
  obtain ⟨hr, hw, ha⟩ := h
  have hreading := countIn_update ThreadState.isReading s.threads t x
  have hwaiting := countIn_update ThreadState.isWaitingWriter s.threads t x
  have hwriting := countIn_update ThreadState.isWriting s.threads t x
  refine ⟨?_, ?_, ?_⟩
  · show m.activeReaders = countIn _ (Function.update s.threads t x)
    omega
  · show m.waitingWriters = countIn _ (Function.update s.threads t x)
    omega
  · show m.writerActive.toNat = countIn _ (Function.update s.threads t x)
    omega

/-! ## The steps -/

omit [Fintype T] in
theorem checkWriter_setThread (s : LockState T) (t : T) (x : ThreadState) :
    (s.setThread t x).checkWriter t = s.checkWriter t := by
  simp [LockState.checkWriter, setThread]

/-- `lock` from the check of its condition on, for a thread among the waiting writers. -/
theorem LockInv.checkWriter {s : LockState T} {t : T} (h : s.Counted)
    (hexclusive : s.mutex.writerActive = true → s.mutex.activeReaders = 0) {n : Bool}
    (ht : s.threads t = .waitingWriter n) : (s.checkWriter t).LockInv := by
  have hpos : 0 < s.mutex.waitingWriters := by
    rw [h.writers]
    exact Nat.pos_of_ne_zero (countIn_ne_zero.2 ⟨t, by rw [ht]; rfl⟩)
  unfold LockState.checkWriter
  split
  · case isTrue henter =>
    obtain ⟨hinactive, hnone⟩ := h.free.1 (h.writerMayEnter.1 henter)
    refine ⟨h.move ?_ ?_ ?_, fun _ => hnone, awake_of_held (t := t) ?_⟩
    · simp [ht, ThreadState.isReading]
    · simp only [ht, ThreadState.isWaitingWriter, Bool.toNat_true, Bool.toNat_false]
      omega
    · simp [ht, hinactive, ThreadState.isWriting]
    · simp [setThread, ThreadState.holds, ThreadState.isWriting]
  · case isFalse hblocked =>
    have hcounted : (s.setThread t (.waitingWriter false)).Counted :=
      h.move (by simp [ht, ThreadState.isReading]) (by simp [ht, ThreadState.isWaitingWriter])
        (by simp [ht, ThreadState.isWriting])
    refine ⟨hcounted, hexclusive, fun hfree => absurd ?_ hblocked⟩
    exact h.writerMayEnter.2 (h.free.2 (hcounted.free.1 hfree))

/-- `lock_shared` from the check of its condition on. -/
theorem LockInv.checkReader {s : LockState T} {t : T} (h : s.LockInv)
    (ht : s.threads t = .idle ∨ ∃ n, s.threads t = .waitingReader n) :
    (s.checkReader t).LockInv := by
  have hreading : (s.threads t).isReading = false := by
    rcases ht with ht | ⟨n, ht⟩ <;> rw [ht] <;> rfl
  have hwriting : (s.threads t).isWriting = false := by
    rcases ht with ht | ⟨n, ht⟩ <;> rw [ht] <;> rfl
  have hwaiting : (s.threads t).isWaitingWriter = false := by
    rcases ht with ht | ⟨n, ht⟩ <;> rw [ht] <;> rfl
  unfold LockState.checkReader
  split
  · case isTrue henter =>
    have hinactive : s.mutex.writerActive = false := by
      simp only [WriterPrioritySharedMutex.readerMayEnter, Bool.and_eq_true,
        Bool.not_eq_true'] at henter
      exact henter.1
    refine ⟨h.counted.move ?_ ?_ ?_, fun hactive => ?_, awake_of_held (t := t) ?_⟩
    · rw [hreading]
      rfl
    · rw [hwaiting]
      rfl
    · rw [hwriting]
      rfl
    · rw [hinactive] at hactive
      cases hactive
    · simp [setThread, ThreadState.holds, ThreadState.isReading]
  · case isFalse hblocked =>
    have hcounted : (s.setThread t (.waitingReader false)).Counted :=
      h.counted.move (by rw [hreading]; rfl)
        (by rw [hwaiting]; rfl) (by rw [hwriting]; rfl)
    refine ⟨hcounted, h.exclusive, fun hfree u n => ?_⟩
    -- nobody holds the lock, so the reader is behind a writer
    have hbefore : s.Free := h.counted.free.2 (hcounted.free.1 hfree)
    have hbehind : s.mutex.waitingWriters ≠ 0 := by
      intro hnone
      apply hblocked
      simp [WriterPrioritySharedMutex.readerMayEnter, hnone, (h.counted.free.1 hbefore).1]
    refine ⟨fun hu => (h.awake hbefore u n).1 ?_, fun hnone => absurd hnone hbehind⟩
    by_cases hut : u = t
    · simp [setThread, hut] at hu
    · simpa [setThread, hut] using hu

/-- Every step keeps the invariant. -/
theorem LockInv.step {s : LockState T} (h : s.LockInv) (e : LockStep T) : (s.step e).LockInv := by
  cases e with
  | lock t =>
    simp only [LockState.step]
    split
    · case isTrue ht =>
      rw [← checkWriter_setThread _ t (.waitingWriter false)]
      refine LockInv.checkWriter (h.counted.move ?_ ?_ ?_) h.exclusive (Function.update_self ..)
      · simp [ht, ThreadState.isReading]
      · simp [ht, ThreadState.isWaitingWriter]
      · simp [ht, ThreadState.isWriting]
    · exact h
  | unlock t =>
    simp only [LockState.step]
    split
    · case isTrue ht =>
      have hactive : s.mutex.writerActive = true := by
        have hcount := h.counted.active
        have hpos : countIn ThreadState.isWriting s.threads ≠ 0 :=
          countIn_ne_zero.2 ⟨t, by rw [ht]; rfl⟩
        cases hs : s.mutex.writerActive
        · rw [hs] at hcount
          exact absurd hcount.symm hpos
        · rfl
      refine ⟨(h.counted.move ?_ ?_ ?_).notifyAll, fun hactive => (by cases hactive),
        notifyAll_awake _⟩
      · simp [ht, ThreadState.isReading]
      · simp [ht, ThreadState.isWaitingWriter]
      · simp [ht, hactive, ThreadState.isWriting]
    · exact h
  | lockShared t =>
    simp only [LockState.step]
    split
    · case isTrue ht => exact h.checkReader (.inl ht)
    · exact h
  | unlockShared t =>
    simp only [LockState.step]
    split
    · case isTrue ht =>
      have hpos : 0 < s.mutex.activeReaders := by
        rw [h.counted.readers]
        exact Nat.pos_of_ne_zero (countIn_ne_zero.2 ⟨t, by rw [ht]; rfl⟩)
      have hinactive : s.mutex.writerActive = false := by
        cases hs : s.mutex.writerActive
        · rfl
        · have := h.exclusive hs
          omega
      have hcounted : Counted { s.setThread t .idle with
          mutex := { s.mutex with activeReaders := s.mutex.activeReaders - 1 } } := by
        refine h.counted.move ?_ ?_ ?_
        · simp only [ht, ThreadState.isReading, Bool.toNat_true, Bool.toNat_false]
          omega
        · simp [ht, ThreadState.isWaitingWriter]
        · simp [ht, ThreadState.isWriting]
      split
      · case isTrue hlast =>
        exact ⟨hcounted.notifyAll, fun _ => hlast, notifyAll_awake _⟩
      · case isFalse hmore =>
        refine ⟨hcounted, fun hactive => ?_, fun hfree => absurd (hcounted.free.1 hfree).2 hmore⟩
        rw [hinactive] at hactive
        cases hactive
    · exact h
  | wake t =>
    simp only [LockState.step]
    split
    · case h_1 n ht => exact LockInv.checkWriter h.counted h.exclusive ht
    · case h_2 n ht => exact h.checkReader (.inr ⟨n, ht⟩)
    · exact h

end

theorem lockInv_start : LockInv ({} : LockState T) := by
  refine ⟨⟨?_, ?_, ?_⟩, fun hactive => (by cases hactive), fun _ t n => ⟨?_, fun _ => ?_⟩⟩
  · exact (countIn_eq_zero.2 fun _ => rfl).symm
  · exact (countIn_eq_zero.2 fun _ => rfl).symm
  · exact (countIn_eq_zero.2 fun _ => rfl).symm
  · intro h
    cases h
  · intro h
    cases h

/-! ## What the lock promises -/

/-- The condition of the call that a waiting thread has made. -/
def MayEnter (s : LockState T) (t : T) : Prop :=
  ((s.threads t).isWaitingWriter = true ∧ s.mutex.writerMayEnter = true) ∨
    ((s.threads t).isWaitingReader = true ∧ s.mutex.readerMayEnter = true)

/-- The thread waits and has been notified since it last found its condition false. -/
def Notified (s : LockState T) (t : T) : Prop :=
  s.threads t = .waitingWriter true ∨ s.threads t = .waitingReader true

structure LockOk (s : LockState T) : Prop where
  writersAlone : ∀ t u, s.threads t = .writing → (s.threads u).holds = true → u = t
  readers : s.mutex.activeReaders = countIn ThreadState.isReading s.threads
  writers : s.mutex.waitingWriters = countIn ThreadState.isWaitingWriter s.threads
  active : s.mutex.writerActive = true ↔ ∃ t, s.threads t = .writing
  wakeUp : s.Free →
    (∃ t, (s.threads t).isWaitingWriter = true ∨ (s.threads t).isWaitingReader = true) →
    ∃ t, s.Notified t ∧ s.MayEnter t

theorem LockInv.writersAlone {s : LockState T} (h : s.LockInv) {t u : T}
    (ht : (s.threads t).isWriting = true) (hu : (s.threads u).holds = true) : u = t := by
  have hcount := h.counted.active
  have hle : countIn ThreadState.isWriting s.threads ≤ 1 := hcount ▸ Bool.toNat_le _
  have hactive : s.mutex.writerActive = true := by
    have hpos : countIn ThreadState.isWriting s.threads ≠ 0 := countIn_ne_zero.2 ⟨t, ht⟩
    by_contra hinactive
    rw [Bool.not_eq_true] at hinactive
    rw [hinactive] at hcount
    exact hpos hcount.symm
  have hnone : ∀ v, (s.threads v).isReading = false := by
    rw [← countIn_eq_zero, ← h.counted.readers]
    exact h.exclusive hactive
  rw [ThreadState.holds, hnone u, Bool.false_or] at hu
  exact countIn_le_one.1 hle u t hu ht

theorem LockInv.ok {s : LockState T} (h : s.LockInv) : s.LockOk where
  writersAlone := fun t u ht hu => h.writersAlone (by rw [ht]; rfl) hu
  readers := h.counted.readers
  writers := h.counted.writers
  active := by
    have hwriting : (∃ t, s.threads t = .writing) ↔ ∃ t, (s.threads t).isWriting = true := by
      refine exists_congr fun t => ?_
      cases s.threads t <;> simp [ThreadState.isWriting]
    rw [hwriting, ← countIn_ne_zero, ← h.counted.active]
    cases s.mutex.writerActive <;> simp
  wakeUp := by
    intro hfree hwaits
    have hawake := h.awake hfree
    by_cases hnone : s.mutex.waitingWriters = 0
    · -- only readers wait, and each of them may enter
      have hwriter : ∀ t, (s.threads t).isWaitingWriter = false := by
        rw [← countIn_eq_zero, ← h.counted.writers]
        exact hnone
      obtain ⟨t, ht⟩ := hwaits
      have hreader : (s.threads t).isWaitingReader = true := ht.resolve_left (by simp [hwriter t])
      obtain ⟨n, hn⟩ : ∃ n, s.threads t = .waitingReader n := by
        cases hs : s.threads t <;> simp_all [ThreadState.isWaitingReader]
      refine ⟨t, .inr ?_, .inr ⟨hreader, ?_⟩⟩
      · rw [hn, (hawake t n).2 hnone hn]
      · simp [WriterPrioritySharedMutex.readerMayEnter, hnone, (h.counted.free.1 hfree).1]
    · obtain ⟨t, ht⟩ : ∃ t, (s.threads t).isWaitingWriter = true := by
        rwa [h.counted.writers, ← Ne, countIn_ne_zero] at hnone
      obtain ⟨n, hn⟩ : ∃ n, s.threads t = .waitingWriter n := by
        cases hs : s.threads t <;> simp_all [ThreadState.isWaitingWriter]
      refine ⟨t, .inl ?_, .inl ⟨ht, h.counted.writerMayEnter.2 hfree⟩⟩
      rw [hn, (hawake t n).1 hn]

section
variable [DecidableEq T]

omit [Fintype T] in
/-- Only `lock_shared` lets a reader in, and only under its condition. -/
theorem reading_step {s : LockState T} {e : LockStep T} {t : T} (hbefore : s.threads t ≠ .reading)
    (hafter : (s.step e).threads t = .reading) : s.mutex.readerMayEnter = true := by
  have hwriter : ∀ (m : WriterPrioritySharedMutex) (u : T),
      (checkWriter { s with mutex := m } u).threads t ≠ .reading := by
    intro m u
    unfold checkWriter
    split <;> by_cases htu : t = u <;> simp [setThread, htu] <;> simpa [htu] using hbefore
  have hreader : ∀ u, (s.checkReader u).threads t = .reading → s.mutex.readerMayEnter = true := by
    intro u hu
    unfold checkReader at hu
    split at hu
    · assumption
    · by_cases htu : t = u <;> simp [setThread, htu] at hu
      exact absurd hu hbefore
  have hnotify : ∀ x : ThreadState, x.notify = .reading → x = .reading := by
    intro x
    cases x <;> simp [ThreadState.notify]
  have hleave : ∀ u, (s.setThread u .idle).threads t ≠ .reading := by
    intro u
    by_cases htu : t = u <;> simp [setThread, htu]
    simpa [htu] using hbefore
  cases e with
  | lock u =>
    simp only [LockState.step] at hafter
    split at hafter
    · exact absurd hafter (hwriter _ u)
    · exact absurd hafter hbefore
  | unlock u =>
    simp only [LockState.step] at hafter
    split at hafter
    · exact absurd (hnotify _ hafter) (hleave u)
    · exact absurd hafter hbefore
  | lockShared u =>
    simp only [LockState.step] at hafter
    split at hafter
    · exact hreader u hafter
    · exact absurd hafter hbefore
  | unlockShared u =>
    simp only [LockState.step] at hafter
    split at hafter
    · split at hafter
      · exact absurd (hnotify _ hafter) (hleave u)
      · exact absurd hafter (hleave u)
    · exact absurd hafter hbefore
  | wake u =>
    simp only [LockState.step] at hafter
    split at hafter
    · exact absurd hafter (hwriter s.mutex u)
    · exact hreader u hafter
    · exact absurd hafter hbefore

end

variable [DecidableEq T]

/-- **The lock.** For any number of threads and any order of their steps: a writer has the lock
alone, the counters are the numbers of threads that hold it or wait as writers, while nobody holds
it some waiting thread has been notified and may enter, and no reader comes in while a writer
waits. -/
theorem writer_priority_lock (es : List (LockStep T)) :
    (run LockState.step {} es : LockState T).LockOk ∧
      ∀ e t, (run LockState.step {} es : LockState T).threads t ≠ .reading →
        ((run LockState.step {} es).step e).threads t = .reading →
          ∀ u, ((run LockState.step {} es).threads u).isWaitingWriter = false := by
  have hinv : (run LockState.step {} es : LockState T).LockInv :=
    run_induct (fun s e h => h.step e) lockInv_start es
  refine ⟨hinv.ok, fun e t hbefore hafter => ?_⟩
  have henter := reading_step hbefore hafter
  rw [← countIn_eq_zero, ← hinv.counted.writers]
  simp only [WriterPrioritySharedMutex.readerMayEnter, Bool.and_eq_true, beq_iff_eq] at henter
  exact henter.2

end LockState

end OpcBridge
