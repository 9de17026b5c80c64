import OpcBridge.Admin.Sessions

/-!
# The steps of the session server

The server between its steps: the table in memory, the copies that threads of
`save_admin_sessions_store` hold between the lock and the write, and the file. The events are the
locked sections and the writes, in any order; the order in which one thread takes its own steps is
not used. A copy carries its number in the order of copying, so that a statement can say which of
two copies is the older one; the code has no such number.
-/

namespace OpcBridge.Admin

open Lib

structure StoreCopy where
  number : Nat
  /-- The table when it was copied. -/
  table : AdminSessions

/-- What a copy writes. -/
def StoreCopy.items (copy : StoreCopy) : List StoredSession := storedSessions copy.table

structure SessionServer where
  clock : Int
  sessions : AdminSessions := {}
  saving : Nat → Option StoreCopy := fun _ => none
  file : Option StoreCopy := none
  copied : Nat := 0

inductive SessionEvent
  | tick (elapsed : Nat)
  /-- `/auth/login` -/
  | create (token : String) (username : AuthUsername) (groups : List String)
  /-- `/auth/logout` -/
  | remove (token : String)
  | cleanup
  | lookup (req : AuthRequest) (refreshActivity : Bool)
  /-- `save_admin_sessions_store` under the lock. -/
  | copy (thread : Nat)
  /-- Its file write, which may throw. -/
  | write (thread : Nat) (ok : Bool)
  /-- A new process; if the loader skips a session it saves what it loaded. -/
  | restart (saved : Bool)

namespace SessionServer

/-- The copy that a save takes now. -/
def nextCopy (s : SessionServer) : StoreCopy := ⟨s.copied, s.sessions⟩

def startCopy (s : SessionServer) (thread : Nat) : SessionServer :=
  { s with
    saving := fun t => if t = thread then some s.nextCopy else s.saving t
    copied := s.copied + 1 }

def finishWrite (s : SessionServer) (thread : Nat) (ok : Bool) : SessionServer :=
  match s.saving thread with
  | none => s
  | some copy =>
    { s with
      saving := fun t => if t = thread then none else s.saving t
      file := if ok then some copy else s.file }

/-- The items in the file; none if there is no file. -/
def storeItems (s : SessionServer) : List StoredSession := (s.file.map StoreCopy.items).getD []

def restart (cfg : AuthConfig) (s : SessionServer) (saved : Bool) : SessionServer :=
  let loaded : SessionServer :=
    { s with
      sessions := loadAdminSessionsStore cfg s.clock s.storeItems
      saving := fun _ => none }
  if skippedSessions cfg s.clock s.storeItems > 0 && saved then
    { loaded with file := some loaded.nextCopy, copied := loaded.copied + 1 }
  else loaded

def step (cfg : AuthConfig) (s : SessionServer) : SessionEvent → SessionServer
  | .tick elapsed => { s with clock := s.clock + elapsed }
  | .create token username groups =>
    { s with sessions := s.sessions.insert token (newSession s.clock username groups) }
  | .remove token => { s with sessions := eraseSession s.sessions token }
  | .cleanup => { s with sessions := cleanupExpiredAdminSessions cfg s.clock s.sessions }
  | .lookup req refresh =>
    { s with sessions := (getSessionFromRequest cfg s.clock s.sessions req refresh).1 }
  | .copy thread => s.startCopy thread
  | .write thread ok => s.finishWrite thread ok
  | .restart saved => s.restart cfg saved

/-- The lookup of a request, answered now, finds a session. -/
def Authorises (cfg : AuthConfig) (s : SessionServer) (req : AuthRequest) (refresh : Bool) : Prop :=
  (getSessionFromRequest cfg s.clock s.sessions req refresh).2.isSome

end SessionServer

open SessionServer

/-! ## What a step does to one token -/

/-- The event is the creation of the token's session or an authorised refreshing request; `s` is the
state that it meets. -/
def UsesIn (cfg : AuthConfig) (s : SessionServer) (token : String) : SessionEvent → Prop
  | .create t _ _ => t = token
  | .lookup req refresh => req.token = token ∧ token ≠ cfg.adminServiceToken ∧ refresh = true ∧
      Authorises cfg s req refresh
  | _ => False

/-- What becomes of the session of one token. -/
inductive TokenStep (cfg : AuthConfig) (s : SessionServer) (token : String) :
    SessionEvent → Option AdminSessionInfo → Prop
  | kept {e : SessionEvent} (hrestart : ∀ saved, e ≠ .restart saved)
      (hremove : e ≠ .remove token) (hnot : ¬ UsesIn cfg s token e) :
      TokenStep cfg s token e (s.sessions.find token)
  | created (username : AuthUsername) (groups : List String) :
      TokenStep cfg s token (.create token username groups)
        (some (newSession s.clock username groups))
  | refreshed {req : AuthRequest} {session : AdminSessionInfo}
      (hfind : s.sessions.find token = some session)
      (huse : UsesIn cfg s token (.lookup req true)) :
      TokenStep cfg s token (.lookup req true)
        (some { session with lastActivityAt := s.clock, expiresAt := s.clock + tenYears })
  | idle {e : SessionEvent} {session : AdminSessionInfo}
      (hfind : s.sessions.find token = some session) (hidle : idleExpired cfg s.clock session = true)
      (hnot : ¬ UsesIn cfg s token e) (hclock : ∀ elapsed, e ≠ .tick elapsed)
      (hrestart : ∀ saved, e ≠ .restart saved) : TokenStep cfg s token e none
  | removed : TokenStep cfg s token (.remove token) none
  | restarted (saved : Bool) : TokenStep cfg s token (.restart saved)
      ((loadAdminSessionsStore cfg s.clock s.storeItems).find token)

theorem restart_sessions (cfg : AuthConfig) (s : SessionServer) (saved : Bool) :
    (s.restart cfg saved).sessions = loadAdminSessionsStore cfg s.clock s.storeItems := by
  unfold SessionServer.restart
  dsimp only
  split <;> rfl

theorem finishWrite_sessions (s : SessionServer) (thread : Nat) (ok : Bool) :
    (s.finishWrite thread ok).sessions = s.sessions := by
  unfold SessionServer.finishWrite
  split <;> rfl

theorem lookup_step (cfg : AuthConfig) (s : SessionServer) (token : String) (req : AuthRequest)
    (refresh : Bool) : TokenStep cfg s token (.lookup req refresh)
      ((getSessionFromRequest cfg s.clock s.sessions req refresh).1.find token) := by
  have hkept : ¬ UsesIn cfg s token (.lookup req refresh) →
      TokenStep cfg s token (.lookup req refresh) (s.sessions.find token) :=
    TokenStep.kept (by simp) (by simp)
  by_cases hempty : req.token.isEmpty
  · have heq : getSessionFromRequest cfg s.clock s.sessions req refresh = (s.sessions, none) :=
      if_pos hempty
    rw [heq]
    refine hkept fun huse => ?_
    have hauth := huse.2.2.2
    rw [Authorises, heq] at hauth
    cases hauth
  by_cases hservice : !cfg.adminServiceToken.isEmpty && req.token == cfg.adminServiceToken
  · rw [getSessionFromRequest, if_neg hempty, if_pos hservice]
    refine hkept fun huse => huse.2.1 ?_
    rw [← huse.1]
    simp only [Bool.and_eq_true, beq_iff_eq] at hservice
    exact hservice.2
  have heq : getSessionFromRequest cfg s.clock s.sessions req refresh = _ :=
    (if_neg hempty).trans (if_neg hservice)
  cases hfind : s.sessions.find req.token with
  | none =>
    rw [hfind] at heq
    rw [heq]
    refine hkept fun huse => ?_
    have hauth := huse.2.2.2
    rw [Authorises, heq] at hauth
    cases hauth
  | some session =>
    rw [hfind] at heq
    dsimp only at heq
    cases hidle : idleExpired cfg s.clock session with
    | true =>
      rw [hidle, if_pos rfl] at heq
      have hnot : ¬ UsesIn cfg s token (.lookup req refresh) := by
        intro huse
        have hauth := huse.2.2.2
        rw [Authorises, heq] at hauth
        cases hauth
      rw [heq, find_eraseSession]
      split
      · rename_i h
        subst h
        exact .idle hfind hidle hnot (by simp) (by simp)
      · exact hkept hnot
    | false =>
      rw [hidle, if_neg (by simp)] at heq
      cases refresh with
      | false =>
        rw [heq]
        exact hkept fun huse => by cases huse.2.2.1
      | true =>
        rw [if_pos rfl] at heq
        rw [heq, SortedMap.find_insert]
        split
        · rename_i h
          subst h
          refine .refreshed hfind ⟨rfl, fun hsvc => hservice ?_, rfl, ?_⟩
          · rw [hsvc, beq_self_eq_true, Bool.and_true, ← hsvc]
            simpa using hempty
          · rw [Authorises, heq]
            rfl
        · rename_i h
          exact hkept fun huse => h huse.1

theorem tokenStep (cfg : AuthConfig) (s : SessionServer) (token : String) (e : SessionEvent) :
    TokenStep cfg s token e ((SessionServer.step cfg s e).sessions.find token) := by
  cases e with
  | tick elapsed => exact .kept (by simp) (by simp) id
  | copy thread => exact .kept (by simp) (by simp) id
  | write thread ok =>
    show TokenStep cfg s token _ ((s.finishWrite thread ok).sessions.find token)
    rw [finishWrite_sessions]
    exact .kept (by simp) (by simp) id
  | restart saved =>
    show TokenStep cfg s token _ ((s.restart cfg saved).sessions.find token)
    rw [restart_sessions]
    exact .restarted saved
  | create t username groups =>
    show TokenStep cfg s token _ ((s.sessions.insert t _).find token)
    rw [SortedMap.find_insert]
    split
    · rename_i h
      subst h
      exact .created username groups
    · rename_i h
      exact .kept (by simp) (by simp) h
  | remove t =>
    show TokenStep cfg s token _ ((eraseSession s.sessions t).find token)
    rw [find_eraseSession]
    split
    · rename_i h
      subst h
      exact .removed
    · rename_i h
      exact .kept (by simp) (by simpa using Ne.symm h) id
  | cleanup =>
    show TokenStep cfg s token _ ((cleanupExpiredAdminSessions cfg s.clock s.sessions).find token)
    rw [find_cleanup]
    cases hfind : s.sessions.find token with
    | none => exact hfind.subst (motive := TokenStep cfg s token .cleanup) (.kept (by simp) (by simp) id)
    | some session =>
      cases hidle : idleExpired cfg s.clock session with
      | true =>
        rw [Option.filter_some, if_neg (by simp [hidle])]
        exact .idle hfind hidle id (by simp) (by simp)
      | false =>
        rw [Option.filter_some, if_pos (by simp [hidle]), ← hfind]
        exact .kept (by simp) (by simp) id
  | lookup req refresh => exact lookup_step cfg s token req refresh

/-! ## Copies -/

/-- A copy that a thread holds or that is in the file. -/
def Image (s : SessionServer) (copy : StoreCopy) : Prop :=
  (∃ thread, s.saving thread = some copy) ∨ s.file = some copy

/-- A copy after a step was there before or is taken by the step. -/
theorem image_step {cfg : AuthConfig} {s : SessionServer} {e : SessionEvent} {copy : StoreCopy}
    (h : Image (SessionServer.step cfg s e) copy) :
    Image s copy ∨ (copy = ⟨s.copied, (SessionServer.step cfg s e).sessions⟩ ∧
      (SessionServer.step cfg s e).copied = s.copied + 1) := by
  cases e with
  | copy thread =>
    obtain ⟨t, h⟩ | h := h
    · replace h : (if t = thread then some s.nextCopy else s.saving t) = some copy := h
      split at h
      · exact .inr ⟨(Option.some.inj h).symm, rfl⟩
      · exact .inl (.inl ⟨t, h⟩)
    · exact .inl (.inr h)
  | write thread ok =>
    replace h : Image (s.finishWrite thread ok) copy := h
    refine .inl ?_
    unfold SessionServer.finishWrite at h
    split at h
    · exact h
    · rename_i held hheld
      obtain ⟨t, h⟩ | h := h
      · dsimp only at h
        split at h
        · cases h
        · exact .inl ⟨t, h⟩
      · dsimp only at h
        split at h
        · obtain rfl := Option.some.inj h
          exact .inl ⟨thread, hheld⟩
        · exact .inr h
  | restart saved =>
    show Image s copy ∨ copy = ⟨s.copied, (s.restart cfg saved).sessions⟩ ∧
      (s.restart cfg saved).copied = s.copied + 1
    replace h : Image (s.restart cfg saved) copy := h
    unfold SessionServer.restart at h ⊢
    dsimp only at h ⊢
    split
    · rename_i hskip
      rw [if_pos hskip] at h
      obtain ⟨t, h⟩ | h := h
      · cases h
      · exact .inr ⟨(Option.some.inj h).symm, rfl⟩
    · rename_i hskip
      rw [if_neg hskip] at h
      obtain ⟨t, h⟩ | h := h
      · cases h
      · exact .inl (.inr h)
  | tick elapsed => exact .inl h
  | create t username groups => exact .inl h
  | remove t => exact .inl h
  | cleanup => exact .inl h
  | lookup req refresh => exact .inl h

theorem copied_step (cfg : AuthConfig) (s : SessionServer) (e : SessionEvent) :
    s.copied ≤ (SessionServer.step cfg s e).copied := by
  cases e with
  | copy thread => exact Nat.le_succ _
  | write thread ok =>
    show s.copied ≤ (s.finishWrite thread ok).copied
    unfold SessionServer.finishWrite
    split <;> exact le_rfl
  | restart saved =>
    show s.copied ≤ (s.restart cfg saved).copied
    unfold SessionServer.restart
    dsimp only
    split
    · exact Nat.le_succ _
    · exact le_rfl
  | tick elapsed => exact le_rfl
  | create t username groups => exact le_rfl
  | remove t => exact le_rfl
  | cleanup => exact le_rfl
  | lookup req refresh => exact le_rfl

/-- Every copy was taken before now. -/
def Numbered (s : SessionServer) : Prop := ∀ copy, Image s copy → copy.number < s.copied

theorem Numbered.step {cfg : AuthConfig} {s : SessionServer} (h : Numbered s) (e : SessionEvent) :
    Numbered (SessionServer.step cfg s e) := by
  intro copy himage
  obtain himage | ⟨rfl, hcopied⟩ := image_step himage
  · exact lt_of_lt_of_le (h copy himage) (copied_step cfg s e)
  · rw [hcopied]
    exact Nat.lt_succ_self _

theorem clock_step (cfg : AuthConfig) (s : SessionServer) (e : SessionEvent) :
    (SessionServer.step cfg s e).clock =
      match e with
      | .tick elapsed => s.clock + elapsed
      | _ => s.clock := by
  cases e with
  | write thread ok =>
    show (s.finishWrite thread ok).clock = s.clock
    unfold SessionServer.finishWrite
    split <;> rfl
  | restart saved =>
    show (s.restart cfg saved).clock = s.clock
    unfold SessionServer.restart
    dsimp only
    split <;> rfl
  | tick elapsed => rfl
  | create t username groups => rfl
  | remove t => rfl
  | cleanup => rfl
  | lookup req refresh => rfl
  | copy thread => rfl

theorem clock_le_step (cfg : AuthConfig) (s : SessionServer) (e : SessionEvent) :
    s.clock ≤ (SessionServer.step cfg s e).clock := by
  rw [clock_step]
  split
  · omega
  · exact le_rfl

/-- What a restart finds under a token is what the file holds, unless it is idle. -/
theorem find_restarted {cfg : AuthConfig} {s : SessionServer} {token : String}
    {session : AdminSessionInfo} :
    (loadAdminSessionsStore cfg s.clock s.storeItems).find token = some session ↔
      ∃ file saved, s.file = some file ∧ file.table.find token = some saved ∧ Savable token saved ∧
        idleExpired cfg s.clock (reloaded s.clock token saved) = false ∧
        session = reloaded s.clock token saved := by
  unfold SessionServer.storeItems
  cases hfile : s.file with
  | none =>
    constructor
    · intro h
      cases h
    · rintro ⟨file, saved, h, -⟩
      cases h
  | some file =>
    refine find_loadAdminSessionsStore.trans ?_
    constructor
    · rintro ⟨saved, h⟩
      exact ⟨file, saved, rfl, h⟩
    · rintro ⟨file', saved, h, h'⟩
      obtain rfl := Option.some.inj h
      exact ⟨saved, h'⟩

end OpcBridge.Admin
