import Mathlib.Data.List.Basic
import Mathlib.Data.List.Infix

/-!
# Reads of a batch

`async_poll_batch`: every request is queued, then the loop asks all open requests for their status,
round by round, until none is open. The callbacks and the clock are `BatchEnv`: they answer by all
that happened before, which the state keeps as its history. `pollRequest_spec` says all that one
request can do in a round.
-/

namespace OpcBridge

inductive BatchEvent
  /-- `cancelled()` -/
  | asked (cancel : Bool)
  /-- `Clock::now()` -/
  | read (now : Int)
  | started (index : Nat) (rc : Int)
  | queried (index : Nat) (rc : Int)
  | aborted (index : Nat)
  | captured (index : Nat) (rc : Int) (began : Int)
  | slept
deriving DecidableEq

/-- The request that an event is about. -/
def BatchEvent.index? : BatchEvent → Option Nat
  | .started index _ => some index
  | .queried index _ => some index
  | .aborted index => some index
  | .captured index _ _ => some index
  | .asked _ => none
  | .read _ => none
  | .slept => none

/-- The answers of the callbacks and the clock after a history. -/
structure BatchEnv where
  cancelled : List BatchEvent → Bool
  now : List BatchEvent → Int
  start : List BatchEvent → Nat → Int
  status : List BatchEvent → Nat → Int

structure BatchParams where
  timeoutMs : Int
  pending : Int
  timeout : Int

structure BatchRequest where
  index : Nat
  deadline : Int
  active : Bool
deriving DecidableEq

structure BatchState where
  history : List BatchEvent := []
  requests : List BatchRequest := []
  running : Bool := true

section
variable (env : BatchEnv) (P : BatchParams)

def startAll : List Nat → List BatchEvent → List BatchRequest → BatchState
  | [], history, requests => { history := history, requests := requests }
  | index :: indices, history, requests =>
    let stop := env.cancelled history
    let history := history ++ [.asked stop]
    if stop then { history := history, requests := requests }
    else
      let began := env.now history
      let history := history ++ [.read began]
      let rc := env.start history index
      let history := history ++ [.started index rc]
      let requests := requests ++
        [{ index := index, deadline := began + P.timeoutMs, active := rc == P.pending }]
      let history := if rc ≠ P.pending then history ++ [.captured index rc began] else history
      startAll indices history requests

/-- One request in a round. The clock is read only where the answer depends on it. -/
def pollRequest (cancel : Bool) (history : List BatchEvent) (request : BatchRequest) :
    List BatchEvent × BatchRequest :=
  if !request.active then (history, request)
  else
    let rc := env.status history request.index
    let history := history ++ [.queried request.index rc]
    let now := env.now history
    let history := if rc = P.pending ∧ cancel = false then history ++ [.read now] else history
    let late := rc == P.pending && (cancel || decide (request.deadline ≤ now))
    let history := if late then history ++ [.aborted request.index] else history
    let rc := if late then P.timeout else rc
    if rc = P.pending then (history, request)
    else (history ++ [.captured request.index rc (request.deadline - P.timeoutMs)],
      { request with active := false })

def pollAll (cancel : Bool) : List BatchEvent → List BatchRequest →
    List BatchEvent × List BatchRequest
  | history, [] => (history, [])
  | history, request :: requests =>
    let polled := pollRequest env P cancel history request
    let rest := pollAll cancel polled.1 requests
    (rest.1, polled.2 :: rest.2)

/-- One round of the loop; it sleeps where a request is still open. -/
def pollRound (s : BatchState) : BatchState :=
  if s.running then
    let cancel := env.cancelled s.history
    let polled := pollAll env P cancel (s.history ++ [.asked cancel]) s.requests
    let active := polled.2.any fun request => request.active
    { history := if active then polled.1 ++ [.slept] else polled.1
      requests := polled.2
      running := active }
  else s

/-- The batch after a number of rounds. -/
def asyncPollBatch (indices : List Nat) (rounds : Nat) : BatchState :=
  (pollRound env P)^[rounds] (startAll env P indices [] [])

end

/-! ## What one request does -/

/-- What is recorded of an index that is queued. -/
inductive Queued (P : BatchParams) (index : Nat) : List BatchEvent → BatchRequest → Prop
  | pending (began : Int) : Queued P index
      [.asked false, .read began, .started index P.pending]
      { index := index, deadline := began + P.timeoutMs, active := true }
  | done {rc : Int} (began : Int) (h : rc ≠ P.pending) : Queued P index
      [.asked false, .read began, .started index rc, .captured index rc began]
      { index := index, deadline := began + P.timeoutMs, active := false }

/-- What a round records of a request. -/
inductive Polled (P : BatchParams) (cancel : Bool) (r : BatchRequest) :
    List BatchEvent → BatchRequest → Prop
  | closed (h : r.active = false) : Polled P cancel r [] r
  | answered {rc : Int} (h : r.active = true) (hrc : rc ≠ P.pending) : Polled P cancel r
      [.queried r.index rc, .captured r.index rc (r.deadline - P.timeoutMs)]
      { r with active := false }
  | waiting {now : Int} (h : r.active = true) (hcancel : cancel = false)
      (hnow : now < r.deadline) : Polled P cancel r [.queried r.index P.pending, .read now] r
  | late {now : Int} (h : r.active = true) (hcancel : cancel = false)
      (hnow : r.deadline ≤ now) : Polled P cancel r
      [.queried r.index P.pending, .read now, .aborted r.index,
        .captured r.index P.timeout (r.deadline - P.timeoutMs)] { r with active := false }
  | cancelled (h : r.active = true) (hcancel : cancel = true) : Polled P cancel r
      [.queried r.index P.pending, .aborted r.index,
        .captured r.index P.timeout (r.deadline - P.timeoutMs)] { r with active := false }

section
variable {env : BatchEnv} {P : BatchParams}

theorem pollRequest_spec (hP : P.pending ≠ P.timeout) (cancel : Bool) (history : List BatchEvent)
    (r : BatchRequest) : ∃ events, (pollRequest env P cancel history r).1 = history ++ events ∧
      Polled P cancel r events (pollRequest env P cancel history r).2 := by
  by_cases hactive : r.active = true
  · by_cases hrc : env.status history r.index = P.pending
    · cases cancel with
      | true =>
        have heq : pollRequest env P true history r = (history ++
            [.queried r.index P.pending, .aborted r.index,
              .captured r.index P.timeout (r.deadline - P.timeoutMs)],
            { r with active := false }) := by
          simp [pollRequest, hactive, hrc, Ne.symm hP]
        rw [heq]
        exact ⟨_, rfl, .cancelled hactive rfl⟩
      | false =>
        by_cases hnow : r.deadline ≤ env.now (history ++ [.queried r.index P.pending])
        · have heq : pollRequest env P false history r = (history ++
              [.queried r.index P.pending,
                .read (env.now (history ++ [.queried r.index P.pending])), .aborted r.index,
                .captured r.index P.timeout (r.deadline - P.timeoutMs)],
              { r with active := false }) := by
            simp [pollRequest, hactive, hrc, hnow, Ne.symm hP]
          rw [heq]
          exact ⟨_, rfl, .late hactive rfl hnow⟩
        · have heq : pollRequest env P false history r = (history ++
              [.queried r.index P.pending,
                .read (env.now (history ++ [.queried r.index P.pending]))], r) := by
            simp [pollRequest, hactive, hrc, hnow]
          rw [heq]
          exact ⟨_, rfl, .waiting hactive rfl (Int.not_le.1 hnow)⟩
    · have heq : pollRequest env P cancel history r = (history ++
          [.queried r.index (env.status history r.index),
            .captured r.index (env.status history r.index) (r.deadline - P.timeoutMs)],
          { r with active := false }) := by
        simp [pollRequest, hactive, hrc]
      rw [heq]
      exact ⟨_, rfl, .answered hactive hrc⟩
  · rw [Bool.not_eq_true] at hactive
    have heq : pollRequest env P cancel history r = (history, r) := by
      simp [pollRequest, hactive]
    rw [heq]
    exact ⟨[], (List.append_nil _).symm, .closed hactive⟩

/-- A round, request by request. -/
inductive PolledAll (P : BatchParams) (cancel : Bool) :
    List BatchRequest → List BatchEvent → List BatchRequest → Prop
  | nil : PolledAll P cancel [] [] []
  | cons {r r' : BatchRequest} {rs rs' : List BatchRequest} {events more : List BatchEvent}
      (h : Polled P cancel r events r') (hs : PolledAll P cancel rs more rs') :
      PolledAll P cancel (r :: rs) (events ++ more) (r' :: rs')

theorem pollAll_spec (hP : P.pending ≠ P.timeout) (cancel : Bool) (history : List BatchEvent)
    (rs : List BatchRequest) : ∃ events, (pollAll env P cancel history rs).1 = history ++ events ∧
      PolledAll P cancel rs events (pollAll env P cancel history rs).2 := by
  induction rs generalizing history with
  | nil => exact ⟨[], (List.append_nil _).symm, .nil⟩
  | cons r rs ih =>
    obtain ⟨events, hevents, hr⟩ := @pollRequest_spec env P hP cancel history r
    obtain ⟨more, hmore, hrs⟩ := ih (pollRequest env P cancel history r).1
    refine ⟨events ++ more, ?_, .cons hr hrs⟩
    rw [pollAll, hmore, hevents, List.append_assoc]

/-- A round of an open batch: the question whether it is cancelled, the polls, and a sleep unless all
requests are closed. -/
theorem pollRound_spec (hP : P.pending ≠ P.timeout) {s : BatchState} (hs : s.running = true) :
    ∃ cancel events rs sleep, PolledAll P cancel s.requests events rs ∧
      (∀ e ∈ sleep, e = .slept) ∧ pollRound env P s =
        { history := s.history ++ [.asked cancel] ++ events ++ sleep
          requests := rs
          running := rs.any fun request => request.active } := by
  obtain ⟨events, hevents, hps⟩ := @pollAll_spec env P hP (env.cancelled s.history)
    (s.history ++ [.asked (env.cancelled s.history)]) s.requests
  refine ⟨_, events, _,
    if (pollAll env P (env.cancelled s.history) (s.history ++ [.asked (env.cancelled s.history)])
      s.requests).2.any fun request => request.active then [.slept] else [], hps, ?_, ?_⟩
  · split
    · simp
    · simp
  · unfold pollRound
    rw [if_pos hs]
    dsimp only
    rw [hevents]
    split
    · rfl
    · rw [List.append_nil]

/-- The requests that are queued, and what is recorded of them; `stopped` is what a cancelled batch
records at its end. -/
inductive QueuedAll (P : BatchParams) : List Nat → List BatchEvent → List BatchRequest → Prop
  | nil : QueuedAll P [] [] []
  | stopped (indices : List Nat) : QueuedAll P indices [.asked true] []
  | cons {index : Nat} {indices : List Nat} {r : BatchRequest} {rs : List BatchRequest}
      {events more : List BatchEvent} (h : Queued P index events r)
      (hs : QueuedAll P indices more rs) : QueuedAll P (index :: indices) (events ++ more) (r :: rs)

theorem startAll_spec (indices : List Nat) (history : List BatchEvent)
    (requests : List BatchRequest) : ∃ events rs,
      startAll env P indices history requests =
        { history := history ++ events, requests := requests ++ rs } ∧
      QueuedAll P indices events rs := by
  induction indices generalizing history requests with
  | nil => exact ⟨[], [], by simp [startAll], .nil⟩
  | cons index indices ih =>
    by_cases hstop : env.cancelled history = true
    · exact ⟨[.asked true], [], by simp [startAll, hstop], .stopped _⟩
    · rw [Bool.not_eq_true] at hstop
      rw [startAll]
      dsimp only
      rw [hstop, if_neg Bool.false_ne_true]
      generalize hbegan : env.now (history ++ [.asked false]) = began
      generalize hrc : env.start (history ++ [.asked false] ++ [.read began]) index = rc
      by_cases hpending : rc = P.pending
      · subst hpending
        obtain ⟨events, rs, heq, hqueued⟩ := ih
          (history ++ [.asked false] ++ [.read began] ++ [.started index P.pending])
          (requests ++ [{ index := index, deadline := began + P.timeoutMs, active := true }])
        refine ⟨_, _, ?_, .cons (.pending began) hqueued⟩
        rw [beq_self_eq_true, if_neg (not_not.2 rfl), heq]
        simp
      · obtain ⟨events, rs, heq, hqueued⟩ := ih
          (history ++ [.asked false] ++ [.read began] ++ [.started index rc] ++
            [.captured index rc began])
          (requests ++ [{ index := index, deadline := began + P.timeoutMs, active := false }])
        refine ⟨_, _, ?_, .cons (.done began hpending) hqueued⟩
        have hactive : (rc == P.pending) = false := by simpa using hpending
        rw [hactive, if_pos hpending, heq]
        simp

end

end OpcBridge
