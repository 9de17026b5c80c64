import OpcBridge.Load.ReloadRequests

/-!
# The answers to reload requests

A handler answers with what it finds in the record, so it answers for its own request as long as no
request is accepted before it has read all of it (`AnswerInv`). A rejected handler has taken its
number before it was rejected, so it is never without effect (`rejectedWithoutEffect_iff`).
-/

namespace OpcBridge

open Lib

/-- No request was accepted after that of a handler whose result is there; what a handler has read
is its own. -/
structure AnswerInv (s : ReloadServer) : Prop where
  inv : ReloadInv s
  waiting : ∀ handler n request, s.handlers handler = .waiting n request →
    n < s.shared.finished.length → n + 1 = s.shared.accepted.length
  reading : ∀ handler n request own, s.handlers handler = .reading n request own →
    own = true ∧ n + 1 = s.shared.accepted.length ∧
      ∃ result, s.shared.finished[n]? = some (request, result) ∧ result.ok = true
  answered : OwnAnswers s

/-- The finished requests are the first of the accepted ones. -/
theorem ReloadInv.request_eq {s : ReloadServer} (h : ReloadInv s) {n : Nat}
    {request request' : ReloadRequest} {result : ReloadResult}
    (hacc : s.shared.accepted[n]? = some request)
    (hfin : s.shared.finished[n]? = some (request', result)) : request' = request := by
  have hpart : s.shared.finished.map Prod.fst <+: s.shared.accepted := by
    have hphase := h.shared.phase
    split at hphase
    · rw [hphase.2.2.1, hphase.2.2.2]
      exact List.prefix_append _ _
    · rw [hphase.2.2, hphase.2.1]
      exact List.prefix_append _ _
  have hfst : (s.shared.finished.map Prod.fst)[n]? = some request' := by
    rw [List.getElem?_map, hfin]
    rfl
  have := getElem?_of_part hpart hfst
  rw [hacc] at this
  exact (Option.some.inj this).symm

/-- A handler that finds the record done finds its own result there. -/
theorem AnswerInv.own_result {s : ReloadServer} (h : AnswerInv s) {handler n : Nat}
    {request : ReloadRequest} (hwait : s.handlers handler = .waiting n request)
    (hdone : s.shared.record.done = true) :
    n + 1 = s.shared.accepted.length ∧ ∃ result, s.shared.finished[n]? = some (request, result) ∧
      s.shared.record.ok = result.ok ∧ s.shared.record.error = result.error ∧
      s.shared.record.opcuaSync = result.opcuaSync := by
  obtain ⟨before, last, result, hfin, hlen, hok, herr, hsync⟩ := h.inv.shared.done_result hdone
  have hacc := h.inv.waiting handler n request hwait
  have hlt := (List.getElem?_eq_some_iff.1 hacc).1
  have hn : n + 1 = s.shared.accepted.length := by
    refine h.waiting handler n request hwait ?_
    rw [hfin, List.length_append, List.length_singleton]
    omega
  have hget : s.shared.finished[n]? = some (last, result) := by
    rw [hfin, show n = before.length by omega]
    simp
  obtain rfl := h.inv.request_eq hacc hget
  exact ⟨hn, result, hget, hok, herr, hsync⟩

/-- An unfinished handler that finds nothing done is told that its request goes on. -/
theorem AnswerInv.own_pending {s : ReloadServer} (h : AnswerInv s) {handler n : Nat}
    {request : ReloadRequest} (hwait : s.handlers handler = .waiting n request)
    (hdone : s.shared.record.done = false) : ¬ n < s.shared.finished.length := by
  intro hlt
  have hn := h.waiting handler n request hwait hlt
  have hlen := h.inv.shared.accepted_length
  have hreq : s.shared.record.requested = false := by
    cases hreq : s.shared.record.requested with
    | false => rfl
    | true =>
      rw [hreq, if_pos rfl] at hlen
      omega
  obtain ⟨hnil, -⟩ | ⟨-, -, -, -, hdone', -⟩ := h.inv.shared.settled hreq
  · rw [hnil] at hlt
    cases hlt
  · rw [hdone] at hdone'
    cases hdone'

/-- What a handler reads after it released the lock is still its own. -/
theorem AnswerInv.own_sync {s : ReloadServer} (h : AnswerInv s) {handler n : Nat}
    {request : ReloadRequest} {own : Bool} {result : ReloadResult}
    (hread : s.handlers handler = .reading n request own)
    (hget : s.shared.finished[n]? = some (request, result)) :
    s.shared.record.opcuaSync = result.opcuaSync := by
  obtain ⟨-, hn, -⟩ := h.reading handler n request own hread
  have hlen := h.inv.shared.accepted_length
  have hlt := (List.getElem?_eq_some_iff.1 hget).1
  have hreq : s.shared.record.requested = false := by
    cases hreq : s.shared.record.requested with
    | false => rfl
    | true =>
      rw [hreq, if_pos rfl] at hlen
      omega
  obtain ⟨hnil, -⟩ | ⟨before, last, result', hlast, -, -, -, hsync⟩ := h.inv.shared.settled hreq
  · rw [hnil] at hlt
    cases hlt
  · rw [hreq, hlast, List.length_append, List.length_singleton] at hlen
    rw [hlast, show n = before.length by simp at hlen; omega] at hget
    simp only [List.getElem?_concat_length, Option.some.injEq, Prod.mk.injEq] at hget
    rw [hsync, hget.2]

theorem AnswerInv.step {s : ReloadServer} (h : AnswerInv s) {e : ReloadEvent}
    (hnext : AcceptsReload s e → ∀ handler, ¬ Unread s handler) : AnswerInv (s.step e) := by
  have hinv := h.inv.step e
  have hfin := finished_step s e
  have hacc := accepted_prefix s e
  refine ⟨hinv, ?_, ?_, ?_⟩
  · intro handler n request hwait hlt
    have hstep := s.handlerStep handler e
    rw [hwait] at hstep
    generalize hnew : ReloadHandler.waiting n request = new at hstep
    cases hstep with
    | kept =>
      have hget := h.inv.waiting handler n request hnew.symm
      have hn := (List.getElem?_eq_some_iff.1 hget).1
      obtain ⟨heq, -⟩ | ⟨haccepts, heq, -⟩ := accepted_step s e
      · -- the request is finished by this step, or was before
        have hlen := hinv.shared.accepted_length
        rw [heq] at hlen ⊢
        by_cases hlt' : n < s.shared.finished.length
        · exact h.waiting handler n request hnew.symm hlt'
        · have hold := h.inv.shared.accepted_length
          split at hold <;> omega
      · rw [heq] at hlt
        exact absurd (.inl ⟨n, request, hnew.symm, hlt⟩) (hnext haccepts handler)
    | accepted hnum hbusy =>
      cases hnew
      have hlen := h.inv.shared.accepted_length
      obtain ⟨-, hno⟩ | ⟨-, heq, -⟩ := accepted_step s (.admission handler)
      · exact absurd ⟨⟨request, hnum⟩, hbusy⟩ hno
      · rw [heq] at hlt
        omega
    | numbered target hidle => cases hnew
    | rejected hrejects => cases hnew
    | read hwait hdone hok => cases hnew
    | failed hwait hdone hok => cases hnew
    | pending hwait hdone => cases hnew
    | synced hread => cases hnew
  · intro handler n request own hread
    have hstep := s.handlerStep handler e
    rw [hread] at hstep
    generalize hnew : ReloadHandler.reading n request own = new at hstep
    have hsame : ∀ handler, Unread s handler →
        (s.step e).shared.accepted = s.shared.accepted := by
      intro handler hunread
      obtain ⟨heq, -⟩ | ⟨haccepts, -⟩ := accepted_step s e
      · exact heq
      · exact absurd hunread (hnext haccepts handler)
    cases hstep with
    | kept =>
      obtain ⟨hown, hn, result, hget, hok⟩ := h.reading handler n request own hnew.symm
      rw [hsame handler (.inr ⟨n, request, own, hnew.symm⟩)]
      exact ⟨hown, hn, result, getElem?_of_part hfin hget, hok⟩
    | read hwait hdone hok =>
      cases hnew
      obtain ⟨hn, result, hget, hok', -⟩ := h.own_result hwait hdone
      have hlt := (List.getElem?_eq_some_iff.1 hget).1
      rw [hsame handler (.inl ⟨n, request, hwait, hlt⟩)]
      exact ⟨decide_eq_true hlt, hn, result, getElem?_of_part hfin hget, hok'.symm.trans hok⟩
    | accepted hnum hbusy => cases hnew
    | numbered target hidle => cases hnew
    | rejected hrejects => cases hnew
    | failed hwait hdone hok => cases hnew
    | pending hwait hdone => cases hnew
    | synced hread => cases hnew
  · intro handler n own answer hans
    have hstep := s.handlerStep handler e
    rw [hans] at hstep
    generalize hnew : ReloadHandler.answered n own answer = new at hstep
    cases hstep with
    | kept =>
      have hold := h.answered handler n own answer hnew.symm
      cases own with
      | true =>
        obtain ⟨request, result, hget, hreq, hanswer⟩ := hold
        exact ⟨request, result, getElem?_of_part hfin hget, getElem?_of_part hacc hreq, hanswer⟩
      | false =>
        obtain ⟨request, hreq, hanswer⟩ := hold
        exact ⟨request, getElem?_of_part hacc hreq, hanswer⟩
    | @failed _ _ request hwait hdone hok =>
      cases hnew
      obtain ⟨-, result, hget, hok', herr, -⟩ := h.own_result hwait hdone
      rw [decide_eq_true (List.getElem?_eq_some_iff.1 hget).1, if_pos rfl]
      refine ⟨request, result, getElem?_of_part hfin hget,
        getElem?_of_part hacc (h.inv.waiting handler n request hwait), ?_⟩
      rw [ReloadRequest.answer, ← hok', hok, herr]
      rfl
    | @pending _ _ request hwait hdone =>
      cases hnew
      rw [decide_eq_false (h.own_pending hwait hdone), if_neg (by simp)]
      exact ⟨request, getElem?_of_part hacc (h.inv.waiting handler n request hwait), rfl⟩
    | @synced _ request _ hread =>
      cases hnew
      obtain ⟨rfl, hn, result, hget, hok⟩ := h.reading handler n request own hread
      have hacc' := h.inv.reading handler n request true hread
      have hsync := h.own_sync hread hget
      refine ⟨request, result, getElem?_of_part hfin hget, getElem?_of_part hacc hacc', ?_⟩
      rw [ReloadRequest.answer, hok, hsync]
      rfl
    | accepted hnum hbusy => cases hnew
    | numbered target hidle => cases hnew
    | rejected hrejects => cases hnew
    | read hwait hdone hok => cases hnew

theorem answerInv {es : List ReloadEvent} (h : ReadBeforeNext es) : AnswerInv (reloadsAfter es) := by
  induction es using List.reverseRecOn with
  | nil =>
    exact ⟨reloadInv [], fun _ _ _ h => (by cases h), fun _ _ _ _ h => (by cases h),
      fun _ _ _ _ h => (by cases h)⟩
  | append_singleton es e ih =>
    rw [reloadsAfter_snoc]
    exact (ih fun pre x hx => h pre x hx.snoc).step (h es e (happens_self es e))

/-! ## Rejected requests -/

theorem succ_ne (n : UInt64) : n + 1 ≠ n := by
  intro h
  have hnat := congrArg UInt64.toNat h
  rw [UInt64.toNat_add, UInt64.toNat_one] at hnat
  have := n.toNat_lt
  omega

theorem number_ne (s : ReloadShared) (target : String) : (s.number target).1 ≠ s := by
  unfold ReloadShared.number
  split
  · intro h
    exact succ_ne _ (congrArg ReloadShared.configGeneration h)
  · intro h
    exact succ_ne _ (congrArg ReloadShared.reloadRequestGeneration h)

/-- A handler that has a number took it. -/
theorem numbered_posted {es : List ReloadEvent} {handler : Nat} {request : ReloadRequest}
    (h : (reloadsAfter es).handlers handler = .numbered request) :
    ∃ posted target, Happens es posted (.post handler target) ∧
      (reloadsAfter posted).handlers handler = .idle := by
  induction es using List.reverseRecOn with
  | nil => cases h
  | append_singleton es e ih =>
    rw [reloadsAfter_snoc] at h
    have hstep := (reloadsAfter es).handlerStep handler e
    rw [h] at hstep
    generalize hnew : ReloadHandler.numbered request = new at hstep
    cases hstep with
    | kept =>
      obtain ⟨posted, target, hposted, hidle⟩ := ih hnew.symm
      exact ⟨posted, target, hposted.snoc, hidle⟩
    | numbered target hidle => exact ⟨es, target, happens_self es _, hidle⟩
    | accepted hnum hbusy => cases hnew
    | rejected hrejects => cases hnew
    | read hwait hdone hok => cases hnew
    | failed hwait hdone hok => cases hnew
    | pending hwait hdone => cases hnew
    | synced hread => cases hnew

theorem rejectedWithoutEffect_iff (es : List ReloadEvent) :
    RejectedWithoutEffect es ↔ NoneRejected es := by
  constructor
  · intro h pre handler hadm hrejects
    obtain ⟨request, hnum⟩ := hrejects.1
    obtain ⟨posted, target, hposted, hidle⟩ := numbered_posted hnum
    have hpre : pre <+: es := (List.prefix_append _ _).trans hadm
    obtain ⟨hsame, -⟩ :=
      h posted target pre handler (hposted.of_part hpre) hidle hadm hrejects
    rw [reloadsAfter_snoc] at hsame
    refine number_ne (reloadsAfter posted).shared target (Eq.trans ?_ hsame)
    show _ = ((reloadsAfter posted).post handler target).shared
    unfold ReloadServer.post
    rw [hidle]
    rfl
  · intro h posted target rejected handler _ _ hadm hrejects
    exact absurd hrejects (h rejected handler hadm)

/-- The pollers run with the generation of the configuration, and never had to be restarted. -/
def Settled (s : ReloadShared) : Prop := s.configGeneration = s.activeGen ∧ s.restarts = []

theorem settled_step {s : ReloadServer} {e : ReloadEvent} (h : Settled s.shared)
    (hpost : ∀ handler, e ≠ .post handler "") : Settled (s.step e).shared := by
  have hstep := s.sharedStep e
  generalize (s.step e).shared = shared at hstep
  cases hstep with
  | kept hnot => exact h
  | numbered handler target =>
    unfold ReloadShared.number
    rw [if_neg]
    · exact h
    · intro hempty
      rw [String.isEmpty_iff] at hempty
      exact hpost handler (by rw [hempty])
  | accepted hnum hbusy => exact h
  | recover id =>
    unfold ReloadShared.recover
    split <;> exact h
  | take =>
    unfold ReloadShared.take
    split
    · split <;> exact h
    · exact h
  | startPollers =>
    unfold ReloadShared.startPollers
    split
    · refine ⟨?_, h.2⟩
      dsimp only
      split
      · rfl
      · exact h.1
    · exact h
  | finish ok error opcuaSync =>
    unfold ReloadShared.finish
    split <;> exact h
  | checkGeneration =>
    unfold ReloadShared.checkGeneration
    split
    · rw [if_neg (by simpa using h.1)]
      exact h
    · exact h

/-- **Without `POST /reload` the generation check restarts nothing**, whether the other requests are
accepted or rejected. -/
theorem settled_of_no_reload {es : List ReloadEvent}
    (h : ∀ pre handler, ¬ Happens es pre (.post handler "")) : Settled (reloadsAfter es).shared := by
  induction es using List.reverseRecOn with
  | nil => exact ⟨rfl, rfl⟩
  | append_singleton es e ih =>
    rw [reloadsAfter_snoc]
    refine settled_step (ih fun pre handler hx => h pre handler hx.snoc) ?_
    rintro handler rfl
    exact h es handler (happens_self es _)

/-- **Reload requests and their answers.** In every run one request at a time is accepted and not
finished, and the main loop executes each one once, in order and as its handler made it. Handlers
answer for their own requests where none is accepted while a result is still to be read, and rejected
requests are without effect only where there are none. -/
theorem reloads_correspond (es : List ReloadEvent) :
    (OneUnfinished (reloadsAfter es) ∧ ExecutedInOrder (reloadsAfter es) ∧ ExecutesNext es) ∧
      (ReadBeforeNext es → OwnAnswers (reloadsAfter es)) ∧
      (RejectedWithoutEffect es ↔ NoneRejected es) :=
  ⟨⟨oneUnfinished es, executedInOrder es, executesNext es⟩, fun h => (answerInv h).answered,
    rejectedWithoutEffect_iff es⟩

/-! ## Runs -/

/-- The second request is accepted after the first handler has answered. -/
def inTurn : List ReloadEvent :=
  [.post 0 "", .admission 0, .take, .startPollers, .finish true "" {}, .wake 0, .readSync 0,
   .post 1 "PLC", .admission 1]

theorem inTurn_readBeforeNext : ReadBeforeNext inTurn := by
  intro pre e h haccepts handler hunread
  simp [inTurn, happens_cons, and_or_left, exists_or] at h
  rcases h with ⟨rfl, rfl⟩ | ⟨rfl, rfl⟩ | ⟨rfl, rfl⟩ | ⟨rfl, rfl⟩ | ⟨rfl, rfl⟩ | ⟨rfl, rfl⟩ |
    ⟨rfl, rfl⟩ | ⟨rfl, rfl⟩ | ⟨rfl, rfl⟩
  case inr.inl =>
    obtain ⟨n, request, h, -⟩ | ⟨n, request, own, h⟩ := hunread <;> rcases handler with _ | k <;>
      cases h
  case inr.inr.inr.inr.inr.inr.inr.inr =>
    obtain ⟨n, request, h, -⟩ | ⟨n, request, own, h⟩ := hunread <;>
      rcases handler with _ | _ | k <;> cases h
  all_goals exact haccepts

theorem inTurn_answered : OwnAnswers (reloadsAfter inTurn) ∧
    (reloadsAfter inTurn).handlers 0 = .answered 0 true (.reloaded 2 "" {}) :=
  ⟨(reloads_correspond inTurn).2.1 inTurn_readBeforeNext, by decide +kernel⟩

/-- The second request is accepted before the first handler wakes up, and fails. -/
def lateReader : List ReloadEvent :=
  [.post 0 "", .admission 0, .take, .startPollers, .finish true "" {}, .post 1 "PLC", .admission 1,
   .wake 0, .take, .startPollers, .finish false "boom" {}, .wake 0]

/-- A full reload is asked for while a connection is reloaded. -/
def rejectedReload : List ReloadEvent :=
  [.post 0 "PLC", .admission 0, .take, .post 1 "", .admission 1, .startPollers, .finish true "" {},
   .take, .checkGeneration]

/-- The same without the rejected handler. -/
def oneReload : List ReloadEvent :=
  [.post 0 "PLC", .admission 0, .take, .startPollers, .finish true "" {}, .take, .checkGeneration]

theorem oneReload_settled : Settled (reloadsAfter oneReload).shared := by
  refine settled_of_no_reload fun pre handler h => ?_
  simp [oneReload, happens_cons] at h

/-- The first handler answers that its reload failed, and the rejected request restarts the
pollers. -/
theorem reloads_do_not_correspond :
    ¬ OwnAnswers (reloadsAfter lateReader) ∧ ¬ RejectedWithoutEffect rejectedReload ∧
      (reloadsAfter rejectedReload).shared.restarts = [2] ∧
      (reloadsAfter oneReload).shared.restarts = [] := by
  refine ⟨fun h => ?_, fun h => ?_, by decide +kernel, by decide +kernel⟩
  · obtain ⟨request, result, hget, hreq, hanswer⟩ := h 0 0 true (.failed "boom") (by decide +kernel)
    have hfirst : (reloadsAfter lateReader).shared.finished[0]? = some (⟨2, ""⟩, ⟨true, "", {}⟩) := by
      decide +kernel
    rw [hfirst] at hget
    cases hget
    cases hanswer
  · refine (rejectedWithoutEffect_iff _).1 h (rejectedReload.take 4) 1 ⟨_, rfl⟩ ⟨⟨⟨2, ""⟩, ?_⟩, ?_⟩
    · decide +kernel
    · decide +kernel

end OpcBridge
