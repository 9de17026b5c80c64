import OpcBridge.Lib.History
import OpcBridge.Ua.Bindings

/-!
# Reload requests and their answers

`POST /reload`, `POST /reload/connection` and the recovery of Modbus connections hand their requests
to the main loop through the one record `g_reloadState`. Every step of a handler that holds the lock
once is an event, and so is the read of the OPC UA result, which is made without it. The lists
`accepted`, `executed` and `finished` are for the statements only.

Requests are executed one at a time and in order, whatever the order of the steps (`ReloadInv`,
`executedInOrder`).
-/

namespace OpcBridge

open Lib

structure ReloadState where
  requested : Bool := false
  inProgress : Bool := false
  done : Bool := false
  ok : Bool := false
  gen : UInt64 := 0
  targetConnectionId : String := ""
  error : String := ""
  opcuaSync : OpcUaSyncResult := {}
deriving DecidableEq

/-- The target of a full reload is empty. -/
structure ReloadRequest where
  gen : UInt64
  target : String
deriving DecidableEq

structure ReloadResult where
  ok : Bool
  error : String
  opcuaSync : OpcUaSyncResult
deriving DecidableEq

inductive ReloadAnswer
  /-- 202 -/
  | pending (gen : UInt64) (target : String)
  /-- 500 -/
  | failed (error : String)
  /-- 200 -/
  | reloaded (gen : UInt64) (target : String) (opcuaSync : OpcUaSyncResult)
deriving DecidableEq

def reloadError (target error : String) : String :=
  if error.isEmpty then
    if target.isEmpty then "Reload failed (see server log)."
    else "Connection reload failed (see server log)."
  else error

inductive MainLoop
  | top
  /-- A request is executed; `started` once the pollers run again. -/
  | executing (request : ReloadRequest) (started : Bool)
  /-- No reload in this iteration: the generation is checked next. -/
  | checking
deriving DecidableEq

/-- The step of a handler. The number `n` is that of its request among those accepted, and `own`
says whether this one was finished when the wait ended. -/
inductive ReloadHandler
  | idle
  | numbered (request : ReloadRequest)
  | rejected
  | waiting (n : Nat) (request : ReloadRequest)
  /-- The lock is released, the OPC UA result not read yet. -/
  | reading (n : Nat) (request : ReloadRequest) (own : Bool)
  | answered (n : Nat) (own : Bool) (answer : ReloadAnswer)
deriving DecidableEq

structure ReloadShared where
  record : ReloadState := {}
  configGeneration : UInt64 := 1
  reloadRequestGeneration : UInt64 := 1
  activeGen : UInt64 := 1
  mainLoop : MainLoop := .top
  /-- The generations for which the check restarted the pollers. -/
  restarts : List UInt64 := []
  accepted : List ReloadRequest := []
  executed : List ReloadRequest := []
  finished : List (ReloadRequest × ReloadResult) := []
deriving DecidableEq

structure ReloadServer where
  shared : ReloadShared := {}
  handlers : Nat → ReloadHandler := fun _ => .idle

inductive ReloadEvent
  /-- The handler takes its number; the target of `POST /reload` is empty. -/
  | post (handler : Nat) (target : String)
  /-- The admission check. -/
  | admission (handler : Nat)
  /-- The condition variable is notified, or wakes up for nothing. -/
  | wake (handler : Nat)
  /-- 30 s are over. -/
  | timeout (handler : Nat)
  | readSync (handler : Nat)
  /-- A Modbus connection is to be recovered. -/
  | recover (id : String)
  /-- The main loop looks for a request. -/
  | take
  | startPollers
  | finish (ok : Bool) (error : String) (opcuaSync : OpcUaSyncResult)
  | checkGeneration

namespace ReloadShared

def busy (s : ReloadShared) : Bool := s.record.requested || s.record.inProgress

def accept (s : ReloadShared) (request : ReloadRequest) : ReloadShared :=
  { s with
    record := { requested := true, gen := request.gen, targetConnectionId := request.target }
    accepted := s.accepted ++ [request] }

/-- The next number, from the counter of the kind of reload. -/
def number (s : ReloadShared) (target : String) : ReloadShared × ReloadRequest :=
  if target.isEmpty then
    ({ s with configGeneration := s.configGeneration + 1 }, ⟨s.configGeneration + 1, target⟩)
  else
    ({ s with reloadRequestGeneration := s.reloadRequestGeneration + 1 },
      ⟨s.reloadRequestGeneration + 1, target⟩)

def recover (s : ReloadShared) (id : String) : ReloadShared :=
  if s.mainLoop = .top ∧ s.busy = false then
    let gen := s.reloadRequestGeneration + 1
    { s with reloadRequestGeneration := gen }.accept ⟨gen, id⟩
  else s

def take (s : ReloadShared) : ReloadShared :=
  if s.mainLoop = .top then
    if s.record.requested && !s.record.inProgress then
      let request : ReloadRequest := ⟨s.record.gen, s.record.targetConnectionId⟩
      { s with
        record := { s.record with inProgress := true }
        mainLoop := .executing request false
        executed := s.executed ++ [request] }
    else { s with mainLoop := .checking }
  else s

def startPollers (s : ReloadShared) : ReloadShared :=
  match s.mainLoop with
  | .executing request false =>
    { s with
      mainLoop := .executing request true
      activeGen := if request.target.isEmpty then s.configGeneration else s.activeGen }
  | _ => s

def finish (s : ReloadShared) (ok : Bool) (error : String) (opcuaSync : OpcUaSyncResult) :
    ReloadShared :=
  match s.mainLoop with
  | .executing request true =>
    let opcuaSync := if request.target.isEmpty then {} else opcuaSync
    { s with
      record := { s.record with
        ok := ok, error := error, opcuaSync := opcuaSync, done := true, requested := false
        inProgress := false }
      mainLoop := .top
      finished := s.finished ++ [(request, ⟨ok, error, opcuaSync⟩)] }
  | _ => s

def checkGeneration (s : ReloadShared) : ReloadShared :=
  if s.mainLoop = .checking then
    if s.configGeneration ≠ s.activeGen then
      { s with
        mainLoop := .top, activeGen := s.configGeneration
        restarts := s.restarts ++ [s.configGeneration] }
    else { s with mainLoop := .top }
  else s

end ReloadShared

namespace ReloadServer

def setHandler (s : ReloadServer) (handler : Nat) (h : ReloadHandler) : ReloadServer :=
  { s with handlers := Function.update s.handlers handler h }

def post (s : ReloadServer) (handler : Nat) (target : String) : ReloadServer :=
  match s.handlers handler with
  | .idle =>
    { s with shared := (s.shared.number target).1 }.setHandler handler
      (.numbered (s.shared.number target).2)
  | _ => s

def admission (s : ReloadServer) (handler : Nat) : ReloadServer :=
  match s.handlers handler with
  | .numbered request =>
    if s.shared.busy then s.setHandler handler .rejected
    else
      { s with shared := s.shared.accept request }.setHandler handler
        (.waiting s.shared.accepted.length request)
  | _ => s

/-- The wait is over: the record is read under the lock. -/
def endWait (s : ReloadServer) (handler n : Nat) (request : ReloadRequest) : ReloadServer :=
  let own := decide (n < s.shared.finished.length)
  if s.shared.record.ok then s.setHandler handler (.reading n request own)
  else
    s.setHandler handler
      (.answered n own (.failed (reloadError request.target s.shared.record.error)))

def wake (s : ReloadServer) (handler : Nat) : ReloadServer :=
  match s.handlers handler with
  | .waiting n request => if s.shared.record.done then s.endWait handler n request else s
  | _ => s

def timeout (s : ReloadServer) (handler : Nat) : ReloadServer :=
  match s.handlers handler with
  | .waiting n request =>
    if s.shared.record.done then s.endWait handler n request
    else
      s.setHandler handler
        (.answered n (decide (n < s.shared.finished.length)) (.pending request.gen request.target))
  | _ => s

def readSync (s : ReloadServer) (handler : Nat) : ReloadServer :=
  match s.handlers handler with
  | .reading n request own =>
    s.setHandler handler
      (.answered n own (.reloaded request.gen request.target s.shared.record.opcuaSync))
  | _ => s

def step (s : ReloadServer) : ReloadEvent → ReloadServer
  | .post handler target => s.post handler target
  | .admission handler => s.admission handler
  | .wake handler => s.wake handler
  | .timeout handler => s.timeout handler
  | .readSync handler => s.readSync handler
  | .recover id => { s with shared := s.shared.recover id }
  | .take => { s with shared := s.shared.take }
  | .startPollers => { s with shared := s.shared.startPollers }
  | .finish ok error opcuaSync => { s with shared := s.shared.finish ok error opcuaSync }
  | .checkGeneration => { s with shared := s.shared.checkGeneration }

end ReloadServer

def reloadsAfter (es : List ReloadEvent) : ReloadServer := run ReloadServer.step {} es

theorem reloadsAfter_snoc (es : List ReloadEvent) (e : ReloadEvent) :
    reloadsAfter (es ++ [e]) = (reloadsAfter es).step e := by
  unfold reloadsAfter
  rw [run_append]
  rfl

/-! ## What is promised -/

/-- The answer that a request and its result call for. -/
def ReloadRequest.answer (request : ReloadRequest) (result : ReloadResult) : ReloadAnswer :=
  if result.ok then .reloaded request.gen request.target result.opcuaSync
  else .failed (reloadError request.target result.error)

/-- At most one request is accepted and not finished. -/
def OneUnfinished (s : ReloadServer) : Prop :=
  s.shared.accepted.length ≤ s.shared.finished.length + 1

/-- The accepted requests are executed in order, each once and as its handler made it; they finish
in that order. -/
structure ExecutedInOrder (s : ReloadServer) : Prop where
  executed : s.shared.executed <+: s.shared.accepted
  finished : s.shared.finished.map Prod.fst <+: s.shared.executed
  waiting : ∀ handler n request, s.handlers handler = .waiting n request →
    s.shared.accepted[n]? = some request
  reading : ∀ handler n request own, s.handlers handler = .reading n request own →
    s.shared.accepted[n]? = some request

/-- An iteration of the main loop executes whatever is accepted when it looks. -/
def ExecutesNext (es : List ReloadEvent) : Prop :=
  ∀ pre, Happens es pre .take → (reloadsAfter pre).shared.mainLoop = .top →
    (reloadsAfter (pre ++ [.take])).shared.executed = (reloadsAfter pre).shared.accepted

/-- A handler whose request was finished when its wait ended answers with the result of this
request, any other handler that its request is still in progress. -/
def OwnAnswers (s : ReloadServer) : Prop :=
  ∀ handler n own answer, s.handlers handler = .answered n own answer →
    if own then ∃ request result, s.shared.finished[n]? = some (request, result) ∧
      s.shared.accepted[n]? = some request ∧ answer = request.answer result
    else ∃ request, s.shared.accepted[n]? = some request ∧
      answer = .pending request.gen request.target

/-- The event is a request that is answered 409. -/
def RejectsReload (s : ReloadServer) (handler : Nat) : Prop :=
  (∃ request, s.handlers handler = .numbered request) ∧ s.shared.busy = true

/-- What a rejected handler does leaves no trace: neither taking its number nor the check. -/
def RejectedWithoutEffect (es : List ReloadEvent) : Prop :=
  ∀ posted target rejected handler, Happens es posted (.post handler target) →
    (reloadsAfter posted).handlers handler = .idle → Happens es rejected (.admission handler) →
    RejectsReload (reloadsAfter rejected) handler →
    (reloadsAfter (posted ++ [.post handler target])).shared = (reloadsAfter posted).shared ∧
      (reloadsAfter (rejected ++ [.admission handler])).shared = (reloadsAfter rejected).shared

/-! ## When it is kept -/

/-- The handler's request is finished and the handler has not read all of its result. -/
def Unread (s : ReloadServer) (handler : Nat) : Prop :=
  (∃ n request, s.handlers handler = .waiting n request ∧ n < s.shared.finished.length) ∨
    ∃ n request own, s.handlers handler = .reading n request own

def AcceptsReload (s : ReloadServer) : ReloadEvent → Prop
  | .admission handler => (∃ request, s.handlers handler = .numbered request) ∧ s.shared.busy = false
  | .recover _ => s.shared.mainLoop = .top ∧ s.shared.busy = false
  | _ => False

/-- No request is accepted while the result of an earlier one is still to be read. -/
def ReadBeforeNext (es : List ReloadEvent) : Prop :=
  ∀ pre e, Happens es pre e → AcceptsReload (reloadsAfter pre) e →
    ∀ handler, ¬ Unread (reloadsAfter pre) handler

def NoneRejected (es : List ReloadEvent) : Prop :=
  ∀ pre handler, Happens es pre (.admission handler) → ¬ RejectsReload (reloadsAfter pre) handler

/-! ## The shared part -/

/-- Where the requests are: while one is executed it is the last one accepted; else it waits in the
record, if there is one. What the record has of a result is that of the last request finished. -/
structure SharedInv (s : ReloadShared) : Prop where
  phase :
    match s.mainLoop with
    | .executing request _ => s.record.requested = true ∧ s.record.inProgress = true ∧
        s.accepted = s.executed ∧ s.executed = s.finished.map Prod.fst ++ [request]
    | _ => s.record.inProgress = false ∧ s.executed = s.finished.map Prod.fst ∧
        s.accepted = s.executed ++
          if s.record.requested then [⟨s.record.gen, s.record.targetConnectionId⟩] else []
  settled : s.record.requested = false →
    (s.finished = [] ∧ s.record.done = false) ∨
      ∃ before request result, s.finished = before ++ [(request, result)] ∧
        s.record.done = true ∧ s.record.ok = result.ok ∧ s.record.error = result.error ∧
        s.record.opcuaSync = result.opcuaSync
  unsettled : s.record.requested = true → s.record.done = false

namespace SharedInv

variable {s : ReloadShared}

theorem init : SharedInv {} where
  phase := ⟨rfl, rfl, rfl⟩
  settled _ := .inl ⟨rfl, rfl⟩
  unsettled h := by cases h

theorem number (h : SharedInv s) (target : String) : SharedInv (s.number target).1 := by
  unfold ReloadShared.number
  split <;> exact ⟨h.phase, h.settled, h.unsettled⟩

/-- A request is accepted while none is there. -/
theorem accept (h : SharedInv s) (hbusy : s.busy = false) (request : ReloadRequest) :
    SharedInv (s.accept request) := by
  obtain ⟨hreq, hprog⟩ := Bool.or_eq_false_iff.1 hbusy
  refine ⟨?_, fun hno => (by cases hno), fun _ => rfl⟩
  have hphase := h.phase
  show match s.mainLoop with
    | .executing _ _ => _
    | _ => _
  cases hmain : s.mainLoop with
  | executing r started =>
    rw [hmain] at hphase
    rw [hphase.1] at hreq
    cases hreq
  | top =>
    rw [hmain, hreq] at hphase
    refine ⟨rfl, hphase.2.1, ?_⟩
    show s.accepted ++ [request] = s.executed ++ [request]
    rw [hphase.2.2]
    simp
  | checking =>
    rw [hmain, hreq] at hphase
    refine ⟨rfl, hphase.2.1, ?_⟩
    show s.accepted ++ [request] = s.executed ++ [request]
    rw [hphase.2.2]
    simp

theorem recover (h : SharedInv s) (id : String) : SharedInv (s.recover id) := by
  unfold ReloadShared.recover
  split
  · rename_i hidle
    exact accept (s := { s with reloadRequestGeneration := s.reloadRequestGeneration + 1 })
      ⟨h.phase, h.settled, h.unsettled⟩ hidle.2 _
  · exact h

theorem take (h : SharedInv s) : SharedInv s.take := by
  unfold ReloadShared.take
  split
  · rename_i htop
    have hphase := h.phase
    rw [htop] at hphase
    obtain ⟨hprog, hexec, hacc⟩ := hphase
    split
    · rename_i hreq
      rw [Bool.and_eq_true] at hreq
      rw [if_pos hreq.1] at hacc
      refine ⟨⟨hreq.1, rfl, hacc, ?_⟩, h.settled, h.unsettled⟩
      show s.executed ++ _ = _
      rw [hexec]
    · exact ⟨⟨hprog, hexec, hacc⟩, h.settled, h.unsettled⟩
  · exact h

theorem startPollers (h : SharedInv s) : SharedInv s.startPollers := by
  unfold ReloadShared.startPollers
  split
  · rename_i request hmain
    have hphase := h.phase
    rw [hmain] at hphase
    exact ⟨hphase, h.settled, h.unsettled⟩
  · exact h

theorem finish (h : SharedInv s) (ok : Bool) (error : String) (opcuaSync : OpcUaSyncResult) :
    SharedInv (s.finish ok error opcuaSync) := by
  unfold ReloadShared.finish
  split
  · rename_i request hmain
    have hphase := h.phase
    rw [hmain] at hphase
    obtain ⟨-, -, hacc, hexec⟩ := hphase
    refine ⟨⟨rfl, ?_, ?_⟩, fun _ => .inr ⟨_, _, _, rfl, rfl, rfl, rfl, rfl⟩, fun hno => by cases hno⟩
    · show s.executed = (s.finished ++ _).map Prod.fst
      rw [hexec, List.map_append]
      rfl
    · show s.accepted = s.executed ++ []
      rw [hacc, List.append_nil]
  · exact h

theorem checkGeneration (h : SharedInv s) : SharedInv s.checkGeneration := by
  unfold ReloadShared.checkGeneration
  split
  · rename_i hmain
    have hphase := h.phase
    rw [hmain] at hphase
    split <;> exact ⟨hphase, h.settled, h.unsettled⟩
  · exact h

/-- Every accepted request is finished but the one that is asked for. -/
theorem accepted_length (h : SharedInv s) :
    s.accepted.length = s.finished.length + if s.record.requested then 1 else 0 := by
  have hphase := h.phase
  cases hmain : s.mainLoop with
  | executing request started =>
    rw [hmain] at hphase
    obtain ⟨hreq, -, hacc, hexec⟩ := hphase
    rw [hacc, hexec, hreq]
    simp
  | top =>
    rw [hmain] at hphase
    rw [hphase.2.2, hphase.2.1]
    split <;> simp
  | checking =>
    rw [hmain] at hphase
    rw [hphase.2.2, hphase.2.1]
    split <;> simp

/-- Where the record says that a request is done it has the result of the last one. -/
theorem done_result (h : SharedInv s) (hdone : s.record.done = true) :
    ∃ before request result, s.finished = before ++ [(request, result)] ∧
      s.accepted.length = before.length + 1 ∧ s.record.ok = result.ok ∧
      s.record.error = result.error ∧ s.record.opcuaSync = result.opcuaSync := by
  have hreq : s.record.requested = false := by
    cases hreq : s.record.requested with
    | false => rfl
    | true =>
      rw [h.unsettled hreq] at hdone
      cases hdone
  obtain ⟨-, hno⟩ | ⟨before, request, result, hfin, -, hok, herr, hsync⟩ := h.settled hreq
  · rw [hno] at hdone
    cases hdone
  · refine ⟨before, request, result, hfin, ?_, hok, herr, hsync⟩
    rw [h.accepted_length, hreq, hfin]
    simp

end SharedInv

/-! ## One step -/

/-- What becomes of the shared part. -/
inductive SharedStep (s : ReloadServer) : ReloadEvent → ReloadShared → Prop
  | kept {e : ReloadEvent} (hnot : ¬ AcceptsReload s e) : SharedStep s e s.shared
  | numbered (handler : Nat) (target : String) :
      SharedStep s (.post handler target) (s.shared.number target).1
  | accepted {handler : Nat} {request : ReloadRequest}
      (hnum : s.handlers handler = .numbered request) (hbusy : s.shared.busy = false) :
      SharedStep s (.admission handler) (s.shared.accept request)
  | recover (id : String) : SharedStep s (.recover id) (s.shared.recover id)
  | take : SharedStep s .take s.shared.take
  | startPollers : SharedStep s .startPollers s.shared.startPollers
  | finish (ok : Bool) (error : String) (opcuaSync : OpcUaSyncResult) :
      SharedStep s (.finish ok error opcuaSync) (s.shared.finish ok error opcuaSync)
  | checkGeneration : SharedStep s .checkGeneration s.shared.checkGeneration

/-- What becomes of one handler. -/
inductive HandlerStep (s : ReloadServer) (handler : Nat) : ReloadEvent → ReloadHandler → Prop
  | kept {e : ReloadEvent} : HandlerStep s handler e (s.handlers handler)
  | numbered (target : String) (hidle : s.handlers handler = .idle) :
      HandlerStep s handler (.post handler target) (.numbered (s.shared.number target).2)
  | rejected (hrejects : RejectsReload s handler) : HandlerStep s handler (.admission handler) .rejected
  | accepted {request : ReloadRequest} (hnum : s.handlers handler = .numbered request)
      (hbusy : s.shared.busy = false) :
      HandlerStep s handler (.admission handler) (.waiting s.shared.accepted.length request)
  | read {e : ReloadEvent} {n : Nat} {request : ReloadRequest}
      (hwait : s.handlers handler = .waiting n request) (hdone : s.shared.record.done = true)
      (hok : s.shared.record.ok = true) :
      HandlerStep s handler e (.reading n request (decide (n < s.shared.finished.length)))
  | failed {e : ReloadEvent} {n : Nat} {request : ReloadRequest}
      (hwait : s.handlers handler = .waiting n request) (hdone : s.shared.record.done = true)
      (hok : s.shared.record.ok = false) :
      HandlerStep s handler e (.answered n (decide (n < s.shared.finished.length))
        (.failed (reloadError request.target s.shared.record.error)))
  | pending {e : ReloadEvent} {n : Nat} {request : ReloadRequest}
      (hwait : s.handlers handler = .waiting n request) (hdone : s.shared.record.done = false) :
      HandlerStep s handler e (.answered n (decide (n < s.shared.finished.length))
        (.pending request.gen request.target))
  | synced {n : Nat} {request : ReloadRequest} {own : Bool}
      (hread : s.handlers handler = .reading n request own) :
      HandlerStep s handler (.readSync handler)
        (.answered n own (.reloaded request.gen request.target s.shared.record.opcuaSync))

namespace ReloadServer

variable {s : ReloadServer}

theorem endWait_shared (handler n : Nat) (request : ReloadRequest) :
    (s.endWait handler n request).shared = s.shared := by
  unfold ReloadServer.endWait
  dsimp only
  split <;> rfl

theorem sharedStep (s : ReloadServer) (e : ReloadEvent) : SharedStep s e (s.step e).shared := by
  cases e with
  | post handler target =>
    show SharedStep s _ (s.post handler target).shared
    unfold ReloadServer.post
    split
    · exact .numbered handler target
    · exact .kept id
  | admission handler =>
    show SharedStep s _ (s.admission handler).shared
    unfold ReloadServer.admission
    split
    · rename_i request hnum
      cases hbusy : s.shared.busy with
      | true =>
        rw [if_pos rfl]
        refine .kept fun h => ?_
        rw [h.2] at hbusy
        cases hbusy
      | false => exact .accepted hnum hbusy
    · rename_i hnot
      exact .kept fun h => by
        obtain ⟨request, h⟩ := h.1
        exact hnot request h
  | wake handler =>
    show SharedStep s _ (s.wake handler).shared
    unfold ReloadServer.wake
    split
    · split
      · rw [endWait_shared]
        exact .kept id
      · exact .kept id
    · exact .kept id
  | timeout handler =>
    show SharedStep s _ (s.timeout handler).shared
    unfold ReloadServer.timeout
    split
    · split
      · rw [endWait_shared]
        exact .kept id
      · exact .kept id
    · exact .kept id
  | readSync handler =>
    show SharedStep s _ (s.readSync handler).shared
    unfold ReloadServer.readSync
    split <;> exact .kept id
  | recover id => exact .recover id
  | take => exact .take
  | startPollers => exact .startPollers
  | finish ok error opcuaSync => exact .finish ok error opcuaSync
  | checkGeneration => exact .checkGeneration

theorem handlers_setHandler (s : ReloadServer) (i j : Nat) (h : ReloadHandler) :
    (s.setHandler i h).handlers j = if j = i then h else s.handlers j :=
  Function.update_apply _ _ _ _

/-- A step of another handler. -/
theorem handlerStep_of_ne {i j : Nat} {e : ReloadEvent} {h : ReloadHandler}
    (hstep : j = i → HandlerStep s j e h) :
    HandlerStep s j e (if j = i then h else s.handlers j) := by
  split
  · rename_i heq
    exact hstep heq
  · exact .kept

theorem handlerStep_endWait {i n : Nat} {request : ReloadRequest} {e : ReloadEvent}
    (hwait : s.handlers i = .waiting n request) (hdone : s.shared.record.done = true) (j : Nat) :
    HandlerStep s j e ((s.endWait i n request).handlers j) := by
  unfold ReloadServer.endWait
  dsimp only
  split
  · rename_i hok
    rw [handlers_setHandler]
    refine handlerStep_of_ne ?_
    rintro rfl
    exact .read hwait hdone hok
  · rename_i hok
    rw [handlers_setHandler]
    refine handlerStep_of_ne ?_
    rintro rfl
    exact .failed hwait hdone (Bool.eq_false_iff.2 hok)

theorem handlerStep (s : ReloadServer) (j : Nat) (e : ReloadEvent) :
    HandlerStep s j e ((s.step e).handlers j) := by
  cases e with
  | post handler target =>
    show HandlerStep s j _ ((s.post handler target).handlers j)
    unfold ReloadServer.post
    split
    · rename_i hidle
      rw [handlers_setHandler]
      refine handlerStep_of_ne ?_
      rintro rfl
      exact .numbered target hidle
    · exact .kept
  | admission handler =>
    show HandlerStep s j _ ((s.admission handler).handlers j)
    unfold ReloadServer.admission
    split
    · rename_i request hnum
      split
      · rename_i hbusy
        rw [handlers_setHandler]
        refine handlerStep_of_ne ?_
        rintro rfl
        exact .rejected ⟨⟨request, hnum⟩, hbusy⟩
      · rename_i hbusy
        rw [handlers_setHandler]
        refine handlerStep_of_ne ?_
        rintro rfl
        exact .accepted hnum (Bool.eq_false_iff.2 hbusy)
    · exact .kept
  | wake handler =>
    show HandlerStep s j _ ((s.wake handler).handlers j)
    unfold ReloadServer.wake
    split
    · rename_i n request hwait
      split
      · rename_i hdone
        exact handlerStep_endWait hwait hdone j
      · exact .kept
    · exact .kept
  | timeout handler =>
    show HandlerStep s j _ ((s.timeout handler).handlers j)
    unfold ReloadServer.timeout
    split
    · rename_i n request hwait
      split
      · rename_i hdone
        exact handlerStep_endWait hwait hdone j
      · rename_i hdone
        rw [handlers_setHandler]
        refine handlerStep_of_ne ?_
        rintro rfl
        exact .pending hwait (Bool.eq_false_iff.2 hdone)
    · exact .kept
  | readSync handler =>
    show HandlerStep s j _ ((s.readSync handler).handlers j)
    unfold ReloadServer.readSync
    split
    · rename_i n request own hread
      rw [handlers_setHandler]
      refine handlerStep_of_ne ?_
      rintro rfl
      exact .synced hread
    · exact .kept
  | recover id => exact .kept
  | take => exact .kept
  | startPollers => exact .kept
  | finish ok error opcuaSync => exact .kept
  | checkGeneration => exact .kept

end ReloadServer

theorem SharedInv.step {s : ReloadServer} (h : SharedInv s.shared) (e : ReloadEvent) :
    SharedInv (s.step e).shared := by
  have hstep := s.sharedStep e
  generalize (s.step e).shared = shared at hstep
  cases hstep with
  | kept hnot => exact h
  | numbered handler target => exact h.number target
  | accepted hnum hbusy => exact h.accept hbusy _
  | recover id => exact h.recover id
  | take => exact h.take
  | startPollers => exact h.startPollers
  | finish ok error opcuaSync => exact h.finish ok error opcuaSync
  | checkGeneration => exact h.checkGeneration

/-- The list of the accepted requests grows where a request is accepted, and there the finished ones
stay. -/
theorem accepted_step (s : ReloadServer) (e : ReloadEvent) :
    ((s.step e).shared.accepted = s.shared.accepted ∧ ¬ AcceptsReload s e) ∨
      (AcceptsReload s e ∧ (s.step e).shared.finished = s.shared.finished ∧
        ∃ request, (s.step e).shared.accepted = s.shared.accepted ++ [request]) := by
  have hstep := s.sharedStep e
  generalize (s.step e).shared = shared at hstep
  cases hstep with
  | kept hnot => exact .inl ⟨rfl, hnot⟩
  | numbered handler target =>
    refine .inl ⟨?_, id⟩
    unfold ReloadShared.number
    split <;> rfl
  | @accepted handler request hnum hbusy =>
    exact .inr ⟨⟨⟨request, hnum⟩, hbusy⟩, rfl, request, rfl⟩
  | recover id =>
    unfold ReloadShared.recover
    split
    · rename_i hidle
      exact .inr ⟨hidle, rfl, _, rfl⟩
    · rename_i hidle
      exact .inl ⟨rfl, hidle⟩
  | take =>
    refine .inl ⟨?_, id⟩
    unfold ReloadShared.take
    split
    · split <;> rfl
    · rfl
  | startPollers =>
    refine .inl ⟨?_, id⟩
    unfold ReloadShared.startPollers
    split <;> rfl
  | finish ok error opcuaSync =>
    refine .inl ⟨?_, id⟩
    unfold ReloadShared.finish
    split <;> rfl
  | checkGeneration =>
    refine .inl ⟨?_, id⟩
    unfold ReloadShared.checkGeneration
    split
    · split <;> rfl
    · rfl

/-- What is finished stays finished. -/
theorem finished_step (s : ReloadServer) (e : ReloadEvent) :
    s.shared.finished <+: (s.step e).shared.finished := by
  have hstep := s.sharedStep e
  generalize (s.step e).shared = shared at hstep
  cases hstep with
  | kept hnot => exact List.prefix_refl _
  | numbered handler target =>
    unfold ReloadShared.number
    split <;> exact List.prefix_refl _
  | accepted hnum hbusy => exact List.prefix_refl _
  | recover id =>
    unfold ReloadShared.recover
    split <;> exact List.prefix_refl _
  | take =>
    unfold ReloadShared.take
    split
    · split <;> exact List.prefix_refl _
    · exact List.prefix_refl _
  | startPollers =>
    unfold ReloadShared.startPollers
    split <;> exact List.prefix_refl _
  | finish ok error opcuaSync =>
    unfold ReloadShared.finish
    split
    · exact List.prefix_append _ _
    · exact List.prefix_refl _
  | checkGeneration =>
    unfold ReloadShared.checkGeneration
    split
    · split <;> exact List.prefix_refl _
    · exact List.prefix_refl _

theorem accepted_prefix (s : ReloadServer) (e : ReloadEvent) :
    s.shared.accepted <+: (s.step e).shared.accepted := by
  obtain ⟨heq, -⟩ | ⟨-, -, request, heq⟩ := accepted_step s e
  · rw [heq]
  · rw [heq]
    exact List.prefix_append _ _

/-! ## Runs -/

/-- The request of a handler is the one that was accepted under its number. -/
structure ReloadInv (s : ReloadServer) : Prop where
  shared : SharedInv s.shared
  waiting : ∀ handler n request, s.handlers handler = .waiting n request →
    s.shared.accepted[n]? = some request
  reading : ∀ handler n request own, s.handlers handler = .reading n request own →
    s.shared.accepted[n]? = some request

theorem getElem?_of_part {α : Type*} {l l' : List α} {n : Nat} {x : α} (h : l <+: l')
    (hx : l[n]? = some x) : l'[n]? = some x := by
  obtain ⟨rest, rfl⟩ := h
  rw [List.getElem?_append_left (List.getElem?_eq_some_iff.1 hx).1]
  exact hx

theorem ReloadInv.step {s : ReloadServer} (h : ReloadInv s) (e : ReloadEvent) :
    ReloadInv (s.step e) := by
  have hpart := accepted_prefix s e
  refine ⟨h.shared.step e, ?_, ?_⟩
  · intro handler n request hwait
    have hstep := s.handlerStep handler e
    rw [hwait] at hstep
    generalize hnew : ReloadHandler.waiting n request = new at hstep
    cases hstep with
    | kept => exact getElem?_of_part hpart (h.waiting handler n request hnew.symm)
    | accepted hnum hbusy =>
      cases hnew
      have heq : (s.step (.admission handler)).shared.accepted = s.shared.accepted ++ [request] := by
        show (s.admission handler).shared.accepted = _
        unfold ReloadServer.admission
        rw [hnum]
        dsimp only
        rw [hbusy]
        rfl
      rw [heq]
      simp
    | numbered target hidle => cases hnew
    | rejected hrejects => cases hnew
    | read hwait hdone hok => cases hnew
    | failed hwait hdone hok => cases hnew
    | pending hwait hdone => cases hnew
    | synced hread => cases hnew
  · intro handler n request own hread
    have hstep := s.handlerStep handler e
    rw [hread] at hstep
    generalize hnew : ReloadHandler.reading n request own = new at hstep
    cases hstep with
    | kept => exact getElem?_of_part hpart (h.reading handler n request own hnew.symm)
    | read hwait hdone hok =>
      cases hnew
      exact getElem?_of_part hpart (h.waiting handler n request hwait)
    | accepted hnum hbusy => cases hnew
    | numbered target hidle => cases hnew
    | rejected hrejects => cases hnew
    | failed hwait hdone hok => cases hnew
    | pending hwait hdone => cases hnew
    | synced hread => cases hnew

theorem reloadInv (es : List ReloadEvent) : ReloadInv (reloadsAfter es) :=
  run_induct (fun _ e h => h.step e)
    ⟨SharedInv.init, fun _ _ _ h => (by cases h), fun _ _ _ _ h => (by cases h)⟩ es

theorem oneUnfinished (es : List ReloadEvent) : OneUnfinished (reloadsAfter es) := by
  have hlen := (reloadInv es).shared.accepted_length
  unfold OneUnfinished
  split at hlen <;> omega

theorem executedInOrder (es : List ReloadEvent) : ExecutedInOrder (reloadsAfter es) := by
  have hinv := reloadInv es
  have hphase := hinv.shared.phase
  refine ⟨?_, ?_, hinv.waiting, hinv.reading⟩
  · split at hphase
    · rw [hphase.2.2.1]
    · rw [hphase.2.2]
      exact List.prefix_append _ _
  · split at hphase
    · rw [hphase.2.2.2]
      exact List.prefix_append _ _
    · rw [hphase.2.1]

theorem executesNext (es : List ReloadEvent) : ExecutesNext es := by
  intro pre _ htop
  have hphase := (reloadInv pre).shared.phase
  rw [htop] at hphase
  obtain ⟨hprog, hexec, hacc⟩ := hphase
  rw [reloadsAfter_snoc]
  show (reloadsAfter pre).shared.take.executed = _
  unfold ReloadShared.take
  rw [if_pos htop]
  cases hreq : (reloadsAfter pre).shared.record.requested with
  | true =>
    rw [hprog, hacc, hreq]
    rfl
  | false =>
    rw [hacc, hreq]
    simp

end OpcBridge
