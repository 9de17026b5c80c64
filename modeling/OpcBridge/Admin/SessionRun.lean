import OpcBridge.Admin.SessionSteps
import OpcBridge.Lib.History
import Mathlib.Algebra.Group.Int.Defs

/-!
# Sessions over a run

What is promised of a session token over runs with restarts, and when it is kept: `Undisturbed`. A
token has its idle time from its last use, its creation or its last refreshing request. No session
outlives it (`keepsIdleLimit`), and a session that was erased and saved stays erased
(`staysErased`).
-/

namespace OpcBridge.Admin

open Lib SessionServer

/-! ## Runs -/

section
variable (cfg : AuthConfig) (start : Int)

def serverAfter (es : List SessionEvent) : SessionServer :=
  run (SessionServer.step cfg) { clock := start } es

theorem serverAfter_snoc (es : List SessionEvent) (e : SessionEvent) :
    serverAfter cfg start (es ++ [e]) = SessionServer.step cfg (serverAfter cfg start es) e := by
  unfold serverAfter
  rw [run_append]
  rfl

/-- After the events `pre` the token's session is created, or refreshed by a request that is
authorised. -/
def Uses (token : String) (pre : List SessionEvent) (e : SessionEvent) : Prop :=
  UsesIn cfg (serverAfter cfg start pre) token e

/-- The last use of the token came after the events `used`. -/
def LastUse (token : String) (es used : List SessionEvent) : Prop :=
  ∃ e, Latest (Uses cfg start token) es used e

/-! ## What is promised -/

/-- Within the timeout after the last use of a token, to the nanosecond. -/
def InTime (token : String) (es : List SessionEvent) : Prop :=
  ∃ used, LastUse cfg start token es used ∧
    (serverAfter cfg start es).clock - (serverAfter cfg start used).clock ≤ cfg.idleTimeout

/-- No lookup authorises a session longer than the timeout after its last use. -/
def KeepsIdleLimit (es : List SessionEvent) : Prop :=
  ∀ pre req refresh, Happens es pre (.lookup req refresh) → req.token ≠ cfg.adminServiceToken →
    Authorises cfg (serverAfter cfg start pre) req refresh → InTime cfg start req.token pre

/-- The event takes the token out of the table. -/
def Removes (token : String) (pre : List SessionEvent) (e : SessionEvent) : Prop :=
  (∀ saved, e ≠ .restart saved) ∧ (serverAfter cfg start pre).sessions.contains token = true ∧
    (serverAfter cfg start (pre ++ [e])).sessions.contains token = false

/-- The write after `pre` is that of a save that was begun after `begun`. -/
def SaveCompletes (begun pre : List SessionEvent) (thread : Nat) : Prop :=
  ∃ copy, (serverAfter cfg start pre).saving thread = some copy ∧
    (serverAfter cfg start begun).copied ≤ copy.number

/-- The token was removed and not created again, a save that followed was completed in the same
process, and then came a restart. -/
structure Erased (token : String) (es : List SessionEvent) : Prop where
  erased : ∃ removal e write thread restart saved,
    Happens es removal e ∧ Removes cfg start token removal e ∧
    Happens es write (.write thread true) ∧ removal ++ [e] <+: write ∧
    SaveCompletes cfg start removal write thread ∧
    (∀ pre saved, removal <+: pre → ¬ Happens write pre (.restart saved)) ∧
    Happens es restart (.restart saved) ∧ write <+: restart ∧
    ∀ pre username groups, removal <+: pre → ¬ Happens es pre (.create token username groups)

/-- An erased session stays erased. -/
def StaysErased (es : List SessionEvent) : Prop :=
  ∀ pre req refresh, Happens es pre (.lookup req refresh) → req.token ≠ cfg.adminServiceToken →
    Erased cfg start req.token pre → ¬ Authorises cfg (serverAfter cfg start pre) req refresh

/-- The token is created once and never logged out. -/
structure Steady (token : String) (es : List SessionEvent) : Prop where
  once : ∀ pre pre' username username' groups groups',
    Happens es pre (.create token username groups) →
    Happens es pre' (.create token username' groups') → pre = pre'
  kept : ∀ pre, ¬ Happens es pre (.remove token)

/-- A session under the token that the store keeps. -/
def HeldBy (copy : StoreCopy) (token : String) : Prop :=
  ∃ session, copy.table.find token = some session ∧ Savable token session

/-- The token got into the file. -/
def Saved (token : String) (es : List SessionEvent) : Prop :=
  ∃ pre copy, pre <+: es ∧ (serverAfter cfg start pre).file = some copy ∧ HeldBy copy token

/-- A token that is saved stays authorised, over restarts, until the timeout after its last use. -/
def StaysLive (es : List SessionEvent) : Prop :=
  ∀ pre req refresh used, Happens es pre (.lookup req refresh) → Steady req.token pre →
    Saved cfg start req.token pre → LastUse cfg start req.token pre used →
    (serverAfter cfg start pre).clock - (serverAfter cfg start used).clock < cfg.idleTimeout →
    Authorises cfg (serverAfter cfg start pre) req refresh

/-! ## When it is kept -/

/-- What an event must not do, after the events `pre`: put a copy into the file that is older than
the one there, restart while the file lacks the last activity of a session, or meet a session in the
part of a millisecond in which its stored activity is idle and the true one is not. -/
structure Admits (pre : List SessionEvent) (e : SessionEvent) : Prop where
  inOrder : ∀ thread copy file, e = .write thread true →
    (serverAfter cfg start pre).saving thread = some copy →
    (serverAfter cfg start pre).file = some file → file.number ≤ copy.number
  current : ∀ saved, e = .restart saved → ∀ item ∈ (serverAfter cfg start pre).storeItems,
    ∀ session, (serverAfter cfg start pre).sessions.find item.token = some session →
      item.lastActivityMs = timepointToMs session.lastActivityAt
  whole : (∀ elapsed, e ≠ .tick elapsed) → ∀ token used, LastUse cfg start token pre used →
    cfg.idleTimeout <
      (serverAfter cfg start pre).clock - wholeMs (serverAfter cfg start used).clock →
    cfg.idleTimeout ≤ (serverAfter cfg start pre).clock - (serverAfter cfg start used).clock

structure Undisturbed (es : List SessionEvent) : Prop where
  /-- The clock is at least a millisecond past its epoch: an activity at 0 is never idle. -/
  epoch : 1000000 ≤ start
  /-- The timeout is a number of nanoseconds of 64 bits. -/
  fits : cfg.idleTimeout < 2 ^ 63
  admits : ∀ pre e, Happens es pre e → Admits cfg start pre e

end

/-! ## The last use -/

section
variable {cfg : AuthConfig} {start : Int} {es : List SessionEvent} {token : String}

theorem clock_le_of_part (cfg : AuthConfig) (start : Int) {pre : List SessionEvent} (h : pre <+: es) :
    (serverAfter cfg start pre).clock ≤ (serverAfter cfg start es).clock := by
  obtain ⟨rest, rfl⟩ := h
  unfold serverAfter
  rw [run_append]
  exact run_induct (I := fun s => (run (SessionServer.step cfg) { clock := start } pre).clock ≤
    s.clock) (fun s e h => h.trans (clock_le_step cfg s e)) le_rfl rest

theorem lastUse_snoc_self {e : SessionEvent} (h : Uses cfg start token es e) :
    LastUse cfg start token (es ++ [e]) es := ⟨e, latest_snoc_self h⟩

theorem lastUse_snoc {e : SessionEvent} {used : List SessionEvent}
    (h : ¬ Uses cfg start token es e) :
    LastUse cfg start token (es ++ [e]) used ↔ LastUse cfg start token es used :=
  exists_congr fun _ => latest_snoc h

theorem LastUse.part {used : List SessionEvent} (h : LastUse cfg start token es used) :
    used <+: es := by
  obtain ⟨e, h⟩ := h
  exact (List.prefix_append _ _).trans h.happens

theorem LastUse.unique {used used' : List SessionEvent} (h : LastUse cfg start token es used)
    (h' : LastUse cfg start token es used') : used = used' := by
  obtain ⟨e, h⟩ := h
  obtain ⟨e', h'⟩ := h'
  exact (h.unique h').1

/-- No activity is later than the last use, and none is at the epoch. -/
def Recent (cfg : AuthConfig) (start : Int) (token : String) (es : List SessionEvent)
    (session : AdminSessionInfo) : Prop :=
  1000000 ≤ session.lastActivityAt ∧ ∃ used, LastUse cfg start token es used ∧
    session.lastActivityAt ≤ (serverAfter cfg start used).clock

theorem Recent.snoc {session : AdminSessionInfo} (h : Recent cfg start token es session)
    (e : SessionEvent) : Recent cfg start token (es ++ [e]) session := by
  obtain ⟨hms, used, hused, hle⟩ := h
  by_cases huse : Uses cfg start token es e
  · exact ⟨hms, es, lastUse_snoc_self huse, hle.trans (clock_le_of_part cfg start hused.part)⟩
  · exact ⟨hms, used, (lastUse_snoc huse).2 hused, hle⟩

theorem wholeMs_eq {time : Int} (h : 0 ≤ time) : wholeMs time = time / 1000000 * 1000000 := by
  rw [wholeMs, msToTimepoint, timepointToMs, Int.tdiv_eq_ediv_of_nonneg h]

/-- Every session, in the table or in a copy, is recent. -/
structure SessionInv (cfg : AuthConfig) (start : Int) (es : List SessionEvent) : Prop where
  numbered : Numbered (serverAfter cfg start es)
  table : ∀ token session, (serverAfter cfg start es).sessions.find token = some session →
    Recent cfg start token es session
  copies : ∀ copy token session, Image (serverAfter cfg start es) copy →
    copy.table.find token = some session → Recent cfg start token es session

theorem SessionInv.step (hepoch : 1000000 ≤ start) (h : SessionInv cfg start es)
    (e : SessionEvent) : SessionInv cfg start (es ++ [e]) := by
  have hclock : 1000000 ≤ (serverAfter cfg start es).clock :=
    hepoch.trans (clock_le_of_part cfg start (List.nil_prefix : [] <+: es))
  have htable : ∀ token session,
      (serverAfter cfg start (es ++ [e])).sessions.find token = some session →
      Recent cfg start token (es ++ [e]) session := by
    intro token session hfind
    rw [serverAfter_snoc] at hfind
    have hstep := tokenStep cfg (serverAfter cfg start es) token e
    rw [hfind] at hstep
    generalize hnew : some session = new at hstep
    cases hstep with
    | kept hrestart hremove hnot => exact (h.table token session hnew.symm).snoc e
    | created username groups =>
      obtain rfl := Option.some.inj hnew
      exact ⟨hclock, es, lastUse_snoc_self rfl, le_rfl⟩
    | refreshed hfound huse =>
      obtain rfl := Option.some.inj hnew
      exact ⟨hclock, es, lastUse_snoc_self huse, le_rfl⟩
    | idle hfound hidle hnot htick hrestart => cases hnew
    | removed => cases hnew
    | restarted saved =>
      obtain ⟨file, old, hfile, hold, hsave, hidle, rfl⟩ := find_restarted.1 hnew.symm
      obtain ⟨hms, used, hused, hle⟩ := (h.copies file token old (.inr hfile) hold).snoc (.restart saved)
      have hwhole := wholeMs_eq (by omega : 0 ≤ old.lastActivityAt)
      refine ⟨?_, used, hused, ?_⟩
      · rw [reloaded_lastActivityAt, hwhole]
        omega
      · rw [reloaded_lastActivityAt, hwhole]
        omega
  refine ⟨?_, htable, ?_⟩
  · rw [serverAfter_snoc]
    exact h.numbered.step e
  · intro copy token session himage hfind
    rw [serverAfter_snoc] at himage
    obtain himage | ⟨rfl, -⟩ := image_step himage
    · exact (h.copies copy token session himage hfind).snoc e
    · refine htable token session ?_
      rw [serverAfter_snoc]
      exact hfind

theorem sessionInv (hepoch : 1000000 ≤ start) (es : List SessionEvent) :
    SessionInv cfg start es := by
  induction es using List.reverseRecOn with
  | nil =>
    have himage : ∀ copy, ¬ Image ({ clock := start } : SessionServer) copy := by
      rintro copy (⟨thread, h⟩ | h) <;> cases h
    exact ⟨fun copy h => absurd h (himage copy), fun _ _ h => (by cases h),
      fun copy _ _ h => absurd h (himage copy)⟩
  | append_singleton es e ih => exact ih.step hepoch e

/-! ## The idle limit -/

theorem idleLimit_le (cfg : AuthConfig) : cfg.idleLimit ≤ cfg.idleTimeout := by
  have hpos := cfg.positive
  unfold AuthConfig.idleLimit AuthConfig.idleTimeout
  rw [Int.bmod_eq_emod]
  split <;> omega

theorem idleLimit_eq {cfg : AuthConfig} (h : cfg.idleTimeout < 2 ^ 63) :
    cfg.idleLimit = cfg.idleTimeout := by
  have hpos := cfg.positive
  unfold AuthConfig.idleLimit
  refine Int.bmod_eq_of_le ?_ (by omega)
  unfold AuthConfig.idleTimeout
  omega

/-- What the test says of a session whose activity is not at the epoch. -/
theorem idleExpired_eq {session : AdminSessionInfo} (h : 1000000 ≤ session.lastActivityAt)
    (now : Int) :
    idleExpired cfg now session = decide (cfg.idleLimit < now - session.lastActivityAt) := by
  have hpos := cfg.positive
  unfold idleExpired
  rw [decide_eq_true (by omega : cfg.authTimeoutMinutes > 0),
    decide_eq_true (by omega : session.lastActivityAt > 0)]
  rfl

/-- A lookup of a session token is authorised exactly if its session is there and not idle. -/
theorem authorises_iff {s : SessionServer} {req : AuthRequest} {refresh : Bool}
    (hempty : req.token ≠ "") (hservice : req.token ≠ cfg.adminServiceToken) :
    Authorises cfg s req refresh ↔ ∃ session, s.sessions.find req.token = some session ∧
      idleExpired cfg s.clock session = false := by
  have heq : getSessionFromRequest cfg s.clock s.sessions req refresh = _ :=
    (if_neg (by simpa using hempty)).trans (if_neg (by simp [hservice]))
  unfold Authorises
  rw [heq]
  cases hfind : s.sessions.find req.token with
  | none => simp
  | some session =>
    cases hidle : idleExpired cfg s.clock session with
    | true => simp [hidle]
    | false => cases refresh <;> simp [hidle]

theorem not_authorises_empty {s : SessionServer} {req : AuthRequest} {refresh : Bool}
    (hempty : req.token = "") : ¬ Authorises cfg s req refresh := by
  have heq : getSessionFromRequest cfg s.clock s.sessions req refresh = (s.sessions, none) :=
    if_pos (by simp [hempty])
  rw [Authorises, heq]
  simp

theorem keepsIdleLimit (hepoch : 1000000 ≤ start) (es : List SessionEvent) :
    KeepsIdleLimit cfg start es := by
  intro pre req refresh _ hservice hauth
  have hempty : req.token ≠ "" := fun hempty => not_authorises_empty hempty hauth
  obtain ⟨session, hfind, hidle⟩ := (authorises_iff hempty hservice).1 hauth
  obtain ⟨hms, used, hused, hle⟩ := (sessionInv hepoch pre).table _ session hfind
  rw [idleExpired_eq hms, decide_eq_false_iff_not] at hidle
  have := idleLimit_le cfg
  exact ⟨used, hused, by omega⟩

/-! ## Erased sessions -/

/-- The token is in the table no more, nor in any copy from number `k` on. -/
structure Gone (token : String) (k : Nat) (s : SessionServer) : Prop where
  table : s.sessions.find token = none
  copies : ∀ copy, Image s copy → k ≤ copy.number → copy.table.find token = none
  copied : k ≤ s.copied

theorem Gone.step {s : SessionServer} {k : Nat} {e : SessionEvent} (h : Gone token k s)
    (hcreate : ∀ username groups, e ≠ .create token username groups)
    (hrestart : ∀ saved, e = .restart saved → ∀ file, s.file = some file → k ≤ file.number) :
    Gone token k (SessionServer.step cfg s e) := by
  have htable : (SessionServer.step cfg s e).sessions.find token = none := by
    have hstep := tokenStep cfg s token e
    generalize (SessionServer.step cfg s e).sessions.find token = new at hstep
    cases hstep with
    | kept hrestart hremove hnot => exact h.table
    | created username groups => exact absurd rfl (hcreate username groups)
    | refreshed hfound huse =>
      rw [h.table] at hfound
      cases hfound
    | idle hfound hidle hnot htick hrestart => rfl
    | removed => rfl
    | restarted saved =>
      rw [Option.eq_none_iff_forall_ne_some]
      intro session hfind
      obtain ⟨file, old, hfile, hold, -⟩ := find_restarted.1 hfind
      rw [h.copies file (.inr hfile) (hrestart saved rfl file hfile)] at hold
      cases hold
  refine ⟨htable, fun copy himage hk => ?_, h.copied.trans (copied_step cfg s e)⟩
  obtain himage | ⟨rfl, -⟩ := image_step himage
  · exact h.copies copy himage hk
  · exact htable

/-- The file is newer, too. -/
def FileFrom (k : Nat) (s : SessionServer) : Prop := ∃ file, s.file = some file ∧ k ≤ file.number

theorem FileFrom.step {s : SessionServer} {k : Nat} {e : SessionEvent} (h : FileFrom k s)
    (hnum : Numbered s)
    (horder : ∀ thread copy file, e = .write thread true → s.saving thread = some copy →
      s.file = some file → file.number ≤ copy.number) :
    FileFrom k (SessionServer.step cfg s e) := by
  obtain ⟨file, hfile, hk⟩ := h
  cases e with
  | write thread ok =>
    show FileFrom k (s.finishWrite thread ok)
    unfold SessionServer.finishWrite
    split
    · exact ⟨file, hfile, hk⟩
    · rename_i copy hcopy
      cases ok with
      | true => exact ⟨copy, rfl, hk.trans (horder thread copy file rfl hcopy hfile)⟩
      | false => exact ⟨file, hfile, hk⟩
  | restart saved =>
    show FileFrom k (s.restart cfg saved)
    unfold SessionServer.restart
    dsimp only
    split
    · exact ⟨_, rfl, hk.trans (hnum file (.inr hfile)).le⟩
    · exact ⟨file, hfile, hk⟩
  | tick elapsed => exact ⟨file, hfile, hk⟩
  | create t username groups => exact ⟨file, hfile, hk⟩
  | remove t => exact ⟨file, hfile, hk⟩
  | cleanup => exact ⟨file, hfile, hk⟩
  | lookup req refresh => exact ⟨file, hfile, hk⟩
  | copy thread => exact ⟨file, hfile, hk⟩

theorem contains_eq_false {m : AdminSessions} (h : m.contains token = false) :
    m.find token = none := by
  unfold SortedMap.contains at h
  exact Option.isSome_eq_false_iff.1 h |> Option.isNone_iff_eq_none.1

theorem Removes.gone {e : SessionEvent} (hnum : Numbered (serverAfter cfg start es))
    (h : Removes cfg start token es e) :
    Gone token (serverAfter cfg start es).copied (serverAfter cfg start (es ++ [e])) := by
  have htable := contains_eq_false h.2.2
  refine ⟨htable, fun copy himage hk => ?_, ?_⟩
  · rw [serverAfter_snoc] at himage
    obtain himage | ⟨rfl, -⟩ := image_step himage
    · have := hnum copy himage
      omega
    · rw [serverAfter_snoc] at htable
      exact htable
  · rw [serverAfter_snoc]
    exact copied_step _ _ _

theorem SaveCompletes.fileFrom {begun : List SessionEvent} {thread : Nat}
    (h : SaveCompletes cfg start begun es thread) :
    FileFrom (serverAfter cfg start begun).copied
      (serverAfter cfg start (es ++ [.write thread true])) := by
  obtain ⟨copy, hcopy, hk⟩ := h
  rw [serverAfter_snoc]
  show FileFrom _ ((serverAfter cfg start es).finishWrite thread true)
  unfold SessionServer.finishWrite
  rw [hcopy]
  exact ⟨copy, rfl, hk⟩

theorem staysErased (h : Undisturbed cfg start es) : StaysErased cfg start es := by
  intro pre req refresh hlookup hservice herased hauth
  obtain ⟨removal, e, write, thread, restart, saved, -, hremoves, hwrite, hafter, hsave, hnone, -, -,
    hcreate⟩ := herased.erased
  have hes : pre <+: es := (List.prefix_append _ _).trans hlookup
  have hnum := fun es => (sessionInv h.epoch es : SessionInv cfg start es).numbered
  have hremoval : removal <+: removal ++ [e] := List.prefix_append _ _
  have hwrites : write <+: pre := (List.prefix_append _ _).trans hwrite
  -- until the write there is no restart
  have hgone : Gone req.token (serverAfter cfg start removal).copied
      (serverAfter cfg start write) := by
    refine prefix_induct (Q := fun es => Gone req.token (serverAfter cfg start removal).copied
      (serverAfter cfg start es)) hafter (hremoves.gone (hnum _)) fun mid x hmid hx hgone => ?_
    rw [serverAfter_snoc]
    refine hgone.step ?_ ?_
    · rintro username groups rfl
      exact hcreate mid username groups (hremoval.trans hmid) (hx.of_part hwrites)
    · rintro saved rfl
      exact absurd hx (hnone mid saved (hremoval.trans hmid))
  have hdone : Gone req.token (serverAfter cfg start removal).copied
      (serverAfter cfg start (write ++ [.write thread true])) := by
    rw [serverAfter_snoc]
    exact hgone.step (by simp) (by simp)
  have hend : Gone req.token (serverAfter cfg start removal).copied (serverAfter cfg start pre) ∧
      FileFrom (serverAfter cfg start removal).copied (serverAfter cfg start pre) := by
    refine prefix_induct (Q := fun es => Gone req.token (serverAfter cfg start removal).copied
      (serverAfter cfg start es) ∧ FileFrom (serverAfter cfg start removal).copied
      (serverAfter cfg start es)) hwrite ⟨hdone, hsave.fileFrom⟩ fun mid x hmid hx ih => ?_
    have hadmits := h.admits mid x (hx.of_part hes)
    rw [serverAfter_snoc]
    refine ⟨ih.1.step ?_ ?_, ih.2.step (hnum mid) hadmits.inOrder⟩
    · rintro username groups rfl
      exact hcreate mid username groups
        ((hremoval.trans hafter).trans ((List.prefix_append _ _).trans hmid)) hx
    · rintro saved rfl file hfile
      obtain ⟨file', hfile', hk⟩ := ih.2
      rw [hfile] at hfile'
      obtain rfl := Option.some.inj hfile'
      exact hk
  have hempty : req.token ≠ "" := fun hempty => not_authorises_empty hempty hauth
  obtain ⟨session, hfind, -⟩ := (authorises_iff hempty hservice).1 hauth
  rw [hend.1.table] at hfind
  cases hfind

end

end OpcBridge.Admin
