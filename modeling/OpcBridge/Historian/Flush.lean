import OpcBridge.Core.Value
import OpcBridge.Lib.History

/-!
# The sample queue of the historian

Two producers enqueue samples under the queue lock; the flush thread takes a batch out of the queue
and inserts it. A failed insert closes the connection and reconnects, and the batch goes away with
the cycle. `lost` collects these batches: everything that was offered is stored, queued, in the
batch being inserted, refused for a full queue, or lost (`FlushInv`), so the accounts balance exactly
as long as no insert fails (`accounted_iff`).
-/

namespace OpcBridge.Historian

open OpcBridge Lib

section
variable [Floats]

structure Sample where
  tsMs : Int := 0
  connectionId : String
  tagName : String
  datatype : Option String := none
  quality : Option Int := none
  valueDouble : Option F64 := none
  valueText : Option String := none
  valueJson : Option String := none
  source : String := ""

/-- Where the flush thread is in its cycle. -/
inductive FlushPhase
  /-- Before the queue lock. -/
  | idle
  | inserting (batch : List Sample)
  /-- After a failed insert. -/
  | failed
  /-- After `writer.close()`. -/
  | closed

/-- The samples of the batch that is being inserted. -/
def FlushPhase.batch : FlushPhase → List Sample
  | inserting batch => batch
  | _ => []

structure HistorianState where
  queue : List Sample := []
  queueLimit : Nat
  /-- `demandConfigGeneration` -/
  generation : Nat := 1
  phase : FlushPhase := .idle
  /-- `writer.is_connected()` -/
  connected : Bool := true
  /-- The batches of the successful inserts. -/
  stored : List (List Sample) := []
  droppedSamples : Nat := 0
  insertedSamples : Nat := 0

/-- `batch_size`; loading the configuration makes it at least 1, and a reload does not change it. -/
structure BatchSize where
  size : Nat
  pos : 0 < size

inductive HistorianEvent
  /-- The snapshot worker passes the generation it works for, the live-update handler none. -/
  | enqueue (s : Sample) (expectedGeneration : Option Nat)
  | reload (queueLimit : Nat)
  | takeBatch
  /-- Whether the statement goes through, if there is a connection. -/
  | insertBatch (ok : Bool)
  | close
  | reconnect (ok : Bool)

namespace HistorianState

/-- `enqueue` does not refuse an outdated generation. -/
def current (h : HistorianState) (expectedGeneration : Option Nat) : Bool :=
  expectedGeneration.all (· == h.generation)

def full (h : HistorianState) : Bool := decide (h.queueLimit ≤ h.queue.length)

def enqueue (h : HistorianState) (s : Sample) (expectedGeneration : Option Nat) : HistorianState :=
  if !h.current expectedGeneration then h
  else if h.full then { h with droppedSamples := h.droppedSamples + 1 }
  else { h with queue := h.queue ++ [s] }

def reload (h : HistorianState) (queueLimit : Nat) : HistorianState :=
  { h with queueLimit := queueLimit, generation := h.generation + 1 }

/-- The part of a flush cycle under the queue lock. -/
def takeBatch (h : HistorianState) (size : BatchSize) : HistorianState :=
  match h.phase with
  | .idle =>
    if h.queue.isEmpty then h
    else
      let n := min h.queue.length size.size
      { h with queue := h.queue.drop n, phase := .inserting (h.queue.take n) }
  | _ => h

/-- `insert_batch`: one statement for the whole batch. -/
def insertBatch (h : HistorianState) (ok : Bool) : HistorianState :=
  match h.phase with
  | .inserting batch =>
    if h.connected && ok then
      { h with
        stored := h.stored ++ [batch], insertedSamples := h.insertedSamples + batch.length
        phase := .idle }
    else { h with phase := .failed }
  | _ => h

def close (h : HistorianState) : HistorianState :=
  match h.phase with
  | .failed => { h with connected := false, phase := .closed }
  | _ => h

/-- The end of a cycle with a failed insert. -/
def reconnect (h : HistorianState) (ok : Bool) : HistorianState :=
  match h.phase with
  | .closed => { h with connected := ok, phase := .idle }
  | _ => h

def step (size : BatchSize) (h : HistorianState) : HistorianEvent → HistorianState
  | .enqueue s expectedGeneration => h.enqueue s expectedGeneration
  | .reload queueLimit => h.reload queueLimit
  | .takeBatch => h.takeBatch size
  | .insertBatch ok => h.insertBatch ok
  | .close => h.close
  | .reconnect ok => h.reconnect ok

/-! ## Accounts -/

/-- The samples that an event offers to the queue. -/
def offers (h : HistorianState) : HistorianEvent → List Sample
  | .enqueue s expectedGeneration => if h.current expectedGeneration then [s] else []
  | _ => []

/-- The offered samples that find the queue full. -/
def refuses (h : HistorianState) (e : HistorianEvent) : List Sample :=
  if h.full then h.offers e else []

/-- The offered samples that get into the queue. -/
def accepts (h : HistorianState) (e : HistorianEvent) : List Sample :=
  if h.full then [] else h.offers e

/-- The batch of an insert that fails. -/
def loses (h : HistorianState) : HistorianEvent → List Sample
  | .insertBatch ok => if h.connected && ok then [] else h.phase.batch
  | _ => []

/-- The batch of an insert, whatever becomes of it. -/
def finishes (h : HistorianState) : HistorianEvent → List Sample
  | .insertBatch _ => h.phase.batch
  | _ => []

end HistorianState

section
variable (size : BatchSize) (init : HistorianState) (es : List HistorianEvent)

def after : HistorianState := run (HistorianState.step size) init es

def offered : List Sample := outputs (HistorianState.step size) HistorianState.offers init es

def refused : List Sample := outputs (HistorianState.step size) HistorianState.refuses init es

def accepted : List Sample := outputs (HistorianState.step size) HistorianState.accepts init es

def lost : List Sample := outputs (HistorianState.step size) HistorianState.loses init es

def finished : List Sample := outputs (HistorianState.step size) HistorianState.finishes init es

end

/-- A historian that has just started. -/
structure Fresh (h : HistorianState) : Prop where
  queue : h.queue = []
  phase : h.phase = .idle
  connected : h.connected = true
  stored : h.stored = []
  dropped : h.droppedSamples = 0

variable {size : BatchSize} {init : HistorianState} {es : List HistorianEvent}
  {e : HistorianEvent}

theorem after_snoc : after size init (es ++ [e]) = (after size init es).step size e := by
  unfold after
  rw [run_append]
  rfl

/-- The books of the flush thread: what the inserts took and what is still to come are the accepted
samples in their order, and the stored batches are among what the inserts took. -/
structure FlushInv (size : BatchSize) (init : HistorianState) (es : List HistorianEvent)
    (h : HistorianState) : Prop where
  order : accepted size init es = finished size init es ++ h.phase.batch ++ h.queue
  stored : h.stored.flatten.Sublist (finished size init es)
  lost : (finished size init es).length = h.stored.flatten.length + (lost size init es).length
  refused : h.droppedSamples = (refused size init es).length
  nonempty : ∀ batch, h.phase = .inserting batch → batch ≠ []

/-- An event that is no insert and offers nothing that is accepted. -/
theorem FlushInv.quiet {h h' : HistorianState} (hi : FlushInv size init es h)
    (hrun : run (HistorianState.step size) init es = h) (hfin : h.finishes e = [])
    (hlose : h.loses e = []) (hacc : h.accepts e = []) (hstored : h'.stored = h.stored)
    (hrest : h'.phase.batch ++ h'.queue = h.phase.batch ++ h.queue)
    (hdrop : h'.droppedSamples = h.droppedSamples + (h.refuses e).length)
    (hne : ∀ batch, h'.phase = .inserting batch → batch ≠ []) :
    FlushInv size init (es ++ [e]) h' := by
  refine ⟨?_, ?_, ?_, ?_, hne⟩
  · unfold accepted finished
    rw [outputs_snoc, outputs_snoc, hrun, hacc, hfin, List.append_nil, List.append_nil,
      List.append_assoc, hrest, ← List.append_assoc]
    exact hi.order
  · unfold finished
    rw [outputs_snoc, hrun, hfin, List.append_nil, hstored]
    exact hi.stored
  · unfold finished Historian.lost
    rw [outputs_snoc, outputs_snoc, hrun, hfin, hlose, List.append_nil, List.append_nil, hstored]
    exact hi.lost
  · unfold Historian.refused
    rw [outputs_snoc, hrun, List.length_append, hdrop, hi.refused]
    rfl

theorem accepts_nil {h : HistorianState} (ho : h.offers e = []) : h.accepts e = [] := by
  unfold HistorianState.accepts
  rw [ho, ite_self]

theorem refuses_nil {h : HistorianState} (ho : h.offers e = []) : h.refuses e = [] := by
  unfold HistorianState.refuses
  rw [ho, ite_self]

section
variable {h : HistorianState}

theorem FlushInv.enqueue (hi : FlushInv size init es h)
    (hrun : run (HistorianState.step size) init es = h) (s : Sample) (expected : Option Nat) :
    FlushInv size init (es ++ [.enqueue s expected]) (h.enqueue s expected) := by
  unfold HistorianState.enqueue
  by_cases hc : h.current expected = true
  · have hoffer : h.offers (.enqueue s expected) = [s] := if_pos hc
    rw [if_neg (by simp [hc])]
    by_cases hf : h.full = true
    · rw [if_pos hf]
      have hacc : h.accepts (.enqueue s expected) = [] := if_pos hf
      have href : h.refuses (.enqueue s expected) = [s] := (if_pos hf).trans hoffer
      exact hi.quiet hrun rfl rfl hacc rfl rfl (by rw [href]; rfl) hi.nonempty
    · rw [if_neg hf]
      have hacc : h.accepts (.enqueue s expected) = [s] := (if_neg hf).trans hoffer
      have href : h.refuses (.enqueue s expected) = [] := if_neg hf
      refine ⟨?_, ?_, ?_, ?_, hi.nonempty⟩
      · unfold accepted finished
        rw [outputs_snoc, outputs_snoc, hrun, hacc]
        show _ = outputs _ _ init es ++ [] ++ h.phase.batch ++ (h.queue ++ [s])
        rw [List.append_nil, ← List.append_assoc]
        exact congrArg (· ++ [s]) hi.order
      · unfold finished
        rw [outputs_snoc, hrun]
        rw [show h.finishes (.enqueue s expected) = [] from rfl, List.append_nil]
        exact hi.stored
      · unfold finished Historian.lost
        rw [outputs_snoc, outputs_snoc, hrun]
        show (outputs _ _ init es ++ []).length = _ + (outputs _ _ init es ++ []).length
        rw [List.append_nil, List.append_nil]
        exact hi.lost
      · unfold Historian.refused
        rw [outputs_snoc, hrun, href, List.append_nil]
        exact hi.refused
  · rw [if_pos (by simp [hc])]
    have hoffer : h.offers (.enqueue s expected) = [] := if_neg hc
    refine hi.quiet hrun rfl rfl (accepts_nil hoffer) rfl rfl ?_ hi.nonempty
    rw [refuses_nil hoffer]
    rfl

theorem FlushInv.takeBatch (hi : FlushInv size init es h)
    (hrun : run (HistorianState.step size) init es = h) :
    FlushInv size init (es ++ [.takeBatch]) (h.takeBatch size) := by
  unfold HistorianState.takeBatch
  cases hp : h.phase with
  | idle =>
    dsimp only
    split
    · exact hi.quiet hrun rfl rfl (accepts_nil rfl) rfl rfl (by rw [refuses_nil rfl]; rfl)
        hi.nonempty
    · rename_i hne
      have hpos : 0 < h.queue.length := by
        rw [List.length_pos_iff]
        simpa using hne
      refine hi.quiet hrun rfl rfl (accepts_nil rfl) rfl ?_ (by rw [refuses_nil rfl]; rfl) ?_
      · rw [hp]
        exact List.take_append_drop _ _
      · intro batch hb
        simp only [FlushPhase.inserting.injEq] at hb
        subst hb
        have := size.pos
        rw [← List.length_pos_iff, List.length_take]
        omega
  | inserting batch =>
    exact hi.quiet hrun rfl rfl (accepts_nil rfl) rfl rfl (by rw [refuses_nil rfl]; rfl) hi.nonempty
  | failed =>
    exact hi.quiet hrun rfl rfl (accepts_nil rfl) rfl rfl (by rw [refuses_nil rfl]; rfl) hi.nonempty
  | closed =>
    exact hi.quiet hrun rfl rfl (accepts_nil rfl) rfl rfl (by rw [refuses_nil rfl]; rfl) hi.nonempty

theorem FlushInv.insertBatch (hi : FlushInv size init es h)
    (hrun : run (HistorianState.step size) init es = h) (ok : Bool) :
    FlushInv size init (es ++ [.insertBatch ok]) (h.insertBatch ok) := by
  have hquiet : h.phase.batch = [] → FlushInv size init (es ++ [.insertBatch ok]) h := by
    intro hb
    refine hi.quiet hrun hb ?_ (accepts_nil rfl) rfl rfl (by rw [refuses_nil rfl]; rfl) hi.nonempty
    show (if h.connected && ok then [] else h.phase.batch) = []
    rw [hb, ite_self]
  unfold HistorianState.insertBatch
  cases hp : h.phase with
  | inserting batch =>
    have hfin : h.finishes (.insertBatch ok) = batch := by
      show h.phase.batch = batch
      rw [hp]
      rfl
    have horder : accepted size init (es ++ [.insertBatch ok]) =
        finished size init es ++ batch ++ h.queue := by
      unfold accepted
      rw [outputs_snoc, hrun, accepts_nil rfl, List.append_nil]
      have := hi.order
      rw [hp] at this
      exact this
    have hrefused : h.droppedSamples =
        (Historian.refused size init (es ++ [.insertBatch ok])).length := by
      unfold Historian.refused
      rw [outputs_snoc, hrun, refuses_nil rfl, List.append_nil]
      exact hi.refused
    have hfinished : finished size init (es ++ [.insertBatch ok]) =
        finished size init es ++ batch := by
      unfold finished
      rw [outputs_snoc, hrun, hfin]
    dsimp only
    split
    · rename_i hok
      have hlost : Historian.lost size init (es ++ [.insertBatch ok]) =
          Historian.lost size init es := by
        unfold Historian.lost
        rw [outputs_snoc, hrun]
        show _ ++ (if h.connected && ok then [] else _) = _
        rw [if_pos hok, List.append_nil]
      refine ⟨?_, ?_, ?_, hrefused, by simp⟩
      · rw [horder, hfinished]
        show _ = _ ++ [] ++ h.queue
        rw [List.append_nil]
      · rw [hfinished, List.flatten_append, List.flatten_singleton]
        exact hi.stored.append_right batch
      · rw [hfinished, hlost, List.flatten_append, List.flatten_singleton, List.length_append,
          List.length_append, hi.lost]
        omega
    · rename_i hok
      have hlost : Historian.lost size init (es ++ [.insertBatch ok]) =
          Historian.lost size init es ++ batch := by
        unfold Historian.lost
        rw [outputs_snoc, hrun]
        show _ ++ (if h.connected && ok then [] else h.phase.batch) = _
        rw [if_neg hok, hp]
        rfl
      refine ⟨?_, ?_, ?_, hrefused, by simp⟩
      · rw [horder, hfinished]
        show _ = _ ++ [] ++ h.queue
        rw [List.append_nil]
      · rw [hfinished]
        exact hi.stored.trans (List.sublist_append_left _ _)
      · rw [hfinished, hlost, List.length_append, List.length_append, hi.lost]
        exact Nat.add_assoc _ _ _
  | idle => exact hquiet (by rw [hp]; rfl)
  | failed => exact hquiet (by rw [hp]; rfl)
  | closed => exact hquiet (by rw [hp]; rfl)

/-- **The books stay balanced**, one case for each event. -/
theorem FlushInv.step (hi : FlushInv size init es h)
    (hrun : run (HistorianState.step size) init es = h) (e : HistorianEvent) :
    FlushInv size init (es ++ [e]) (h.step size e) := by
  cases e with
  | enqueue s expected => exact hi.enqueue hrun s expected
  | takeBatch => exact hi.takeBatch hrun
  | insertBatch ok => exact hi.insertBatch hrun ok
  | reload limit =>
    exact hi.quiet hrun rfl rfl (accepts_nil rfl) rfl rfl (by rw [refuses_nil rfl]; rfl) hi.nonempty
  | close =>
    show FlushInv size init _ h.close
    unfold HistorianState.close
    split
    · rename_i hp
      refine hi.quiet hrun rfl rfl (accepts_nil rfl) rfl ?_ (by rw [refuses_nil rfl]; rfl) (by simp)
      rw [hp]
      rfl
    · exact hi.quiet hrun rfl rfl (accepts_nil rfl) rfl rfl (by rw [refuses_nil rfl]; rfl)
        hi.nonempty
  | reconnect ok =>
    show FlushInv size init _ (h.reconnect ok)
    unfold HistorianState.reconnect
    split
    · rename_i hp
      refine hi.quiet hrun rfl rfl (accepts_nil rfl) rfl ?_ (by rw [refuses_nil rfl]; rfl) (by simp)
      rw [hp]
      rfl
    · exact hi.quiet hrun rfl rfl (accepts_nil rfl) rfl rfl (by rw [refuses_nil rfl]; rfl)
        hi.nonempty

end

theorem after_inv (hinit : Fresh init) (es : List HistorianEvent) :
    FlushInv size init es (after size init es) := by
  induction es using List.reverseRecOn with
  | nil =>
    refine ⟨?_, ?_, ?_, hinit.dropped, fun batch hb => ?_⟩
    · show [] = [] ++ init.phase.batch ++ init.queue
      rw [hinit.phase, hinit.queue]
      rfl
    · show init.stored.flatten.Sublist []
      rw [hinit.stored]
      exact List.Sublist.refl _
    · show 0 = init.stored.flatten.length + 0
      rw [hinit.stored]
      rfl
    · have hp : init.phase = .inserting batch := hb
      rw [hinit.phase] at hp
      cases hp
  | append_singleton es e ih =>
    rw [after_snoc]
    exact ih.step rfl e

/-! ## The accounts -/

/-- The event is an insert of this batch. -/
def Inserts (size : BatchSize) (init : HistorianState) (before : List HistorianEvent)
    (e : HistorianEvent) (batch : List Sample) (stores : Bool) : Prop :=
  ∃ ok, e = .insertBatch ok ∧ (after size init before).phase = .inserting batch ∧
    ((after size init before).connected && ok) = stores

/-- No insert of the run fails. -/
def NoInsertFails (size : BatchSize) (init : HistorianState) (es : List HistorianEvent) : Prop :=
  ∀ before e, Happens es before e → ∀ batch, ¬ Inserts size init before e batch false

/-- Every offered sample is one of: stored by one successful insert, in the batch that is being
inserted, in the queue, or counted as dropped. -/
def Accounted (size : BatchSize) (init : HistorianState) (es : List HistorianEvent) : Prop :=
  (offered size init es).Perm
      ((after size init es).stored.flatten ++ (after size init es).phase.batch ++
        (after size init es).queue ++ refused size init es) ∧
    (after size init es).droppedSamples = (refused size init es).length

/-- Before anything later is stored, a batch whose insert failed is in an insert again. -/
def Retried (size : BatchSize) (init : HistorianState) (es : List HistorianEvent) : Prop :=
  ∀ before e batch, Happens es before e → Inserts size init before e batch false →
    ∀ before' e' batch', Happens es before' e' → before.length < before'.length →
      Inserts size init before' e' batch' true →
        ∃ mid e'' again stores, Happens es mid e'' ∧ before.length < mid.length ∧
          mid.length ≤ before'.length ∧ Inserts size init mid e'' again stores ∧ batch ⊆ again

/-- The samples of one tag. -/
def ofTag (cid name : String) (samples : List Sample) : List Sample :=
  samples.filter fun s => s.connectionId == cid && s.tagName == name

theorem offered_perm (size : BatchSize) (init : HistorianState) (es : List HistorianEvent) :
    (offered size init es).Perm (accepted size init es ++ refused size init es) := by
  refine outputs_perm _ _ (fun h e => ?_) init es
  unfold HistorianState.accepts HistorianState.refuses
  split
  · exact List.Perm.refl _
  · rw [List.append_nil]

/-- Something is lost exactly where an insert fails: no batch is empty. -/
theorem loses_eq_nil (hinit : Fresh init) (before : List HistorianEvent) (e : HistorianEvent) :
    (after size init before).loses e = [] ↔ ∀ batch, ¬ Inserts size init before e batch false := by
  have hi : FlushInv size init before (after size init before) := after_inv hinit before
  cases e with
  | insertBatch ok =>
    show (if (after size init before).connected && ok then [] else
      (after size init before).phase.batch) = [] ↔ _
    by_cases hok : ((after size init before).connected && ok) = true
    · rw [if_pos hok]
      refine ⟨fun _ batch hins => ?_, fun _ => rfl⟩
      obtain ⟨ok', heq, -, hno⟩ := hins
      simp only [HistorianEvent.insertBatch.injEq] at heq
      subst heq
      rw [hok] at hno
      cases hno
    · rw [if_neg hok]
      constructor
      · rintro hb batch ⟨ok', -, hp, -⟩
        rw [hp] at hb
        exact hi.nonempty batch hp hb
      · intro hno
        cases hp : (after size init before).phase with
        | inserting batch => exact absurd ⟨ok, rfl, hp, Bool.eq_false_iff.2 hok⟩ (hno batch)
        | idle => rfl
        | failed => rfl
        | closed => rfl
  | enqueue s expected => exact ⟨fun _ batch ⟨ok, heq, _⟩ => (by cases heq), fun _ => rfl⟩
  | reload limit => exact ⟨fun _ batch ⟨ok, heq, _⟩ => (by cases heq), fun _ => rfl⟩
  | takeBatch => exact ⟨fun _ batch ⟨ok, heq, _⟩ => (by cases heq), fun _ => rfl⟩
  | close => exact ⟨fun _ batch ⟨ok, heq, _⟩ => (by cases heq), fun _ => rfl⟩
  | reconnect ok => exact ⟨fun _ batch ⟨ok, heq, _⟩ => (by cases heq), fun _ => rfl⟩

theorem lost_eq_nil (hinit : Fresh init) (es : List HistorianEvent) :
    lost size init es = [] ↔ NoInsertFails size init es := by
  refine (outputs_eq_nil _ _).trans ?_
  exact forall₃_congr fun before e _ => loses_eq_nil hinit before e

/-- **When the samples add up**: the samples of a tag are always stored in the order in which they
came in, and the accounts balance, with every failed batch offered again, exactly in the runs where
no insert fails. -/
theorem accounted_iff (size : BatchSize) (init : HistorianState) (hinit : Fresh init)
    (es : List HistorianEvent) :
    (∀ cid name, (ofTag cid name (after size init es).stored.flatten).Sublist
      (ofTag cid name (accepted size init es))) ∧
    (Accounted size init es ∧ Retried size init es ↔ NoInsertFails size init es) := by
  have hi : FlushInv size init es (after size init es) := after_inv hinit es
  refine ⟨fun cid name => ?_, ?_, fun hno => ⟨⟨?_, hi.refused⟩, ?_⟩⟩
  · refine (hi.stored.trans ?_).filter _
    rw [hi.order, List.append_assoc]
    exact List.sublist_append_left _ _
  · rintro ⟨⟨hperm, -⟩, -⟩
    have hlen := hperm.length_eq.symm.trans (offered_perm size init es).length_eq
    rw [hi.order] at hlen
    simp only [List.length_append, hi.lost] at hlen
    rw [← lost_eq_nil hinit, ← List.length_eq_zero_iff]
    omega
  · have hlost := (lost_eq_nil hinit es).2 hno
    have hlen := hi.lost
    rw [hlost, List.length_nil, Nat.add_zero] at hlen
    rw [hi.stored.eq_of_length hlen.symm, ← hi.order]
    exact offered_perm size init es
  · intro before e batch he hf
    exact absurd hf (hno before e he batch)

end

/-! ## A failed insert -/

section
attribute [local instance] intFloats

def oneByOne : BatchSize := ⟨1, by decide⟩

def newHistorian : HistorianState := { queueLimit := 10 }

theorem newHistorian_fresh : Fresh newHistorian := ⟨rfl, rfl, rfl, rfl, rfl⟩

def lineSample (tsMs : Int) : Sample := { tsMs := tsMs, connectionId := "PLC", tagName := "Speed" }

/-- One sample, stored by its insert. -/
theorem one_sample_stored :
    NoInsertFails oneByOne newHistorian
      [.enqueue (lineSample 1) none, .takeBatch, .insertBatch true] ∧
    Accounted oneByOne newHistorian
      [.enqueue (lineSample 1) none, .takeBatch, .insertBatch true] := by
  have h := accounted_iff oneByOne newHistorian newHistorian_fresh
    [.enqueue (lineSample 1) none, .takeBatch, .insertBatch true]
  have hno : NoInsertFails oneByOne newHistorian
      [.enqueue (lineSample 1) none, .takeBatch, .insertBatch true] :=
    (lost_eq_nil newHistorian_fresh _).1 rfl
  exact ⟨hno, (h.2.2 hno).1⟩

/-- The first insert fails, the connection is there again, and the second sample is stored. -/
def failedInsert : List HistorianEvent :=
  [.enqueue (lineSample 1) none, .enqueue (lineSample 2) none, .takeBatch, .insertBatch false,
   .close, .reconnect true, .takeBatch, .insertBatch true]

/-- The first sample is nowhere. -/
theorem failedInsert_unaccounted :
    ¬ Accounted oneByOne newHistorian failedInsert ∧
      (after oneByOne newHistorian failedInsert).stored = [[lineSample 2]] ∧
      (after oneByOne newHistorian failedInsert).queue = [] ∧
      (after oneByOne newHistorian failedInsert).droppedSamples = 0 := by
  refine ⟨fun h => ?_, rfl, rfl, rfl⟩
  have hlen := h.1.length_eq
  revert hlen
  decide

end

end OpcBridge.Historian
