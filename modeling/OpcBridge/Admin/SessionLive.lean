import OpcBridge.Admin.SessionRun

/-!
# Live sessions

A token that is created once and never logged out: while its time is not over its session is in the
table, and every copy that is newer than one with the session has it too (`LiveInv`). So a saved
session comes through every restart (`staysLive`). The last section has the runs in which a stale
copy is written last and in which a refresh is not saved.
-/

namespace OpcBridge.Admin

open Lib SessionServer

section
variable {cfg : AuthConfig} {start : Int} {es : List SessionEvent} {token : String}

/-! ## Live sessions -/

/-- The session is out of the table, and its time is over. -/
structure Expired (cfg : AuthConfig) (start : Int) (token : String) (es : List SessionEvent) :
    Prop where
  table : (serverAfter cfg start es).sessions.find token = none
  timeOver : ∃ used, LastUse cfg start token es used ∧
    cfg.idleTimeout <
      (serverAfter cfg start es).clock - wholeMs (serverAfter cfg start used).clock ∧
    cfg.idleTimeout ≤ (serverAfter cfg start es).clock - (serverAfter cfg start used).clock

/-- The session is in the table, and the store keeps it. -/
def Live (cfg : AuthConfig) (start : Int) (token : String) (es : List SessionEvent) : Prop :=
  ∃ session, (serverAfter cfg start es).sessions.find token = some session ∧ Savable token session

theorem wholeMs_mono {a b : Int} (ha : 0 ≤ a) (hab : a ≤ b) : wholeMs a ≤ wholeMs b := by
  rw [wholeMs_eq ha, wholeMs_eq (ha.trans hab)]
  omega

theorem wholeMs_wholeMs {time : Int} (h : 0 ≤ time) : wholeMs (wholeMs time) = wholeMs time := by
  have hwhole := wholeMs_eq h
  rw [wholeMs_eq (by omega), hwhole]
  omega

theorem clock_ms (cfg : AuthConfig) (hepoch : 1000000 ≤ start) (es : List SessionEvent) :
    1000000 ≤ (serverAfter cfg start es).clock :=
  hepoch.trans (clock_le_of_part cfg start (List.nil_prefix : [] <+: es))

/-- A restart drops a session whose stored activity is over. -/
theorem reloaded_idle {session : AdminSessionInfo} (hfits : cfg.idleTimeout < 2 ^ 63)
    (hms : 1000000 ≤ session.lastActivityAt) (now : Int) :
    idleExpired cfg now (reloaded now token session) =
      decide (cfg.idleTimeout < now - wholeMs session.lastActivityAt) := by
  have hwhole := wholeMs_eq (by omega : 0 ≤ session.lastActivityAt)
  rw [idleExpired_eq, idleLimit_eq hfits, reloaded_lastActivityAt]
  rw [reloaded_lastActivityAt, hwhole]
  omega

theorem Expired.step {e : SessionEvent} (h : Expired cfg start token es)
    (hinv : SessionInv cfg start es) (hfits : cfg.idleTimeout < 2 ^ 63)
    (hcreate : ∀ username groups, e ≠ .create token username groups) :
    Expired cfg start token (es ++ [e]) := by
  obtain ⟨used, hused, hwhole, hover⟩ := h.timeOver
  have hclock := clock_le_of_part cfg start (List.prefix_append es [e])
  have hlast : ¬ Uses cfg start token es e → ∃ used, LastUse cfg start token (es ++ [e]) used ∧
      cfg.idleTimeout < (serverAfter cfg start (es ++ [e])).clock -
        wholeMs (serverAfter cfg start used).clock ∧
      cfg.idleTimeout ≤
        (serverAfter cfg start (es ++ [e])).clock - (serverAfter cfg start used).clock :=
    fun hnot => ⟨used, (lastUse_snoc hnot).2 hused, by omega, by omega⟩
  have hstep := tokenStep cfg (serverAfter cfg start es) token e
  rw [← serverAfter_snoc] at hstep
  generalize hnew : (serverAfter cfg start (es ++ [e])).sessions.find token = new at hstep
  cases hstep with
  | kept hrestart hremove hnot => exact ⟨hnew.trans h.table, hlast hnot⟩
  | created username groups => exact absurd rfl (hcreate username groups)
  | refreshed hfound huse =>
    rw [h.table] at hfound
    cases hfound
  | idle hfound hidle hnot htick hrestart => exact ⟨hnew, hlast hnot⟩
  | removed => exact ⟨hnew, hlast id⟩
  | restarted saved =>
    refine ⟨?_, hlast id⟩
    rw [hnew, Option.eq_none_iff_forall_ne_some]
    intro session hfind
    obtain ⟨file, old, hfile, hold, -, hidle, -⟩ := find_restarted.1 hfind
    obtain ⟨hms, used', hused', hle⟩ := hinv.copies file token old (.inr hfile) hold
    obtain rfl := hused.unique hused'
    rw [reloaded_idle hfits hms, decide_eq_false_iff_not] at hidle
    have := wholeMs_mono (by omega : 0 ≤ old.lastActivityAt) hle
    omega

/-- What holds of a token that is created once and not logged out. -/
structure LiveInv (cfg : AuthConfig) (start : Int) (token : String) (es : List SessionEvent) :
    Prop where
  created : ∀ session, ((serverAfter cfg start es).sessions.find token = some session ∨
      ∃ copy, Image (serverAfter cfg start es) copy ∧ copy.table.find token = some session) →
    ∃ pre username groups, Happens es pre (.create token username groups)
  near : ∀ session, (serverAfter cfg start es).sessions.find token = some session →
    ∃ used, LastUse cfg start token es used ∧
      wholeMs (serverAfter cfg start used).clock ≤ session.lastActivityAt
  image : ∀ copy, Image (serverAfter cfg start es) copy → HeldBy copy token →
    Live cfg start token es ∨ Expired cfg start token es
  newer : ∀ copy copy', Image (serverAfter cfg start es) copy →
    Image (serverAfter cfg start es) copy' → copy.number ≤ copy'.number → HeldBy copy token →
    HeldBy copy' token ∨ Expired cfg start token es

/-- At a restart the file holds the last use of a live session, in whole milliseconds. -/
theorem stored_activity {saved : Bool} {file : StoreCopy} {session old : AdminSessionInfo}
    {used : List SessionEvent} (hepoch : 1000000 ≤ start) (hinv : SessionInv cfg start es)
    (hadmits : Admits cfg start es (.restart saved))
    (hfile : (serverAfter cfg start es).file = some file)
    (hold : file.table.find token = some old) (hsave : Savable token old)
    (hfind : (serverAfter cfg start es).sessions.find token = some session)
    (hused : LastUse cfg start token es used)
    (hnear : wholeMs (serverAfter cfg start used).clock ≤ session.lastActivityAt) :
    wholeMs old.lastActivityAt = wholeMs (serverAfter cfg start used).clock := by
  obtain ⟨hms, used', hused', hle⟩ := hinv.table token session hfind
  obtain rfl := hused.unique hused'
  have hitem : toStored token old ∈ (serverAfter cfg start es).storeItems := by
    unfold SessionServer.storeItems
    rw [hfile]
    exact List.mem_filterMap.2 ⟨(token, old), SortedMap.find_eq_some.1 hold, storeSession_of hsave⟩
  have hcurrent : wholeMs old.lastActivityAt = wholeMs session.lastActivityAt :=
    congrArg msToTimepoint (hadmits.current saved rfl _ hitem session hfind)
  have hclock := clock_ms cfg hepoch used
  have hlow := wholeMs_mono (by rw [wholeMs_eq (by omega)]; omega) hnear
  have hhigh := wholeMs_mono (by omega) hle
  rw [wholeMs_wholeMs (by omega)] at hlow
  omega

/-- A session that the file holds comes through a restart, or its time is over. -/
theorem restart_held {saved : Bool} {file : StoreCopy} (hepoch : 1000000 ≤ start)
    (hfits : cfg.idleTimeout < 2 ^ 63) (hinv : SessionInv cfg start es)
    (hlive : LiveInv cfg start token es) (hadmits : Admits cfg start es (.restart saved))
    (hfile : (serverAfter cfg start es).file = some file) (hheld : HeldBy file token) :
    Expired cfg start token (es ++ [.restart saved]) ∨
      ∃ session used, (serverAfter cfg start (es ++ [.restart saved])).sessions.find token =
          some session ∧ Savable token session ∧ LastUse cfg start token es used ∧
        wholeMs (serverAfter cfg start used).clock ≤ session.lastActivityAt := by
  obtain hsome | hexpired := hlive.image file (.inr hfile) hheld
  swap
  · exact .inl (hexpired.step hinv hfits (by simp))
  obtain ⟨session, hfind, -⟩ := hsome
  obtain ⟨old, hold, hsave⟩ := hheld
  obtain ⟨used, hused, hnear⟩ := hlive.near session hfind
  have hwhole := stored_activity hepoch hinv hadmits hfile hold hsave hfind hused hnear
  obtain ⟨holdms, -⟩ := hinv.copies file token old (.inr hfile) hold
  have hsessions : (serverAfter cfg start (es ++ [.restart saved])).sessions =
      loadAdminSessionsStore cfg (serverAfter cfg start es).clock
        (serverAfter cfg start es).storeItems := by
    rw [serverAfter_snoc]
    exact restart_sessions _ _ _
  have hsame : (serverAfter cfg start (es ++ [.restart saved])).clock =
      (serverAfter cfg start es).clock := by
    rw [serverAfter_snoc]
    exact clock_step _ _ _
  cases hidle : idleExpired cfg (serverAfter cfg start es).clock
      (reloaded (serverAfter cfg start es).clock token old) with
  | true =>
    have hover := hidle
    rw [reloaded_idle hfits holdms, decide_eq_true_iff, hwhole] at hover
    refine .inl ⟨?_, used, (lastUse_snoc id).2 hused, ?_, ?_⟩
    · rw [hsessions, Option.eq_none_iff_forall_ne_some]
      intro x hx
      obtain ⟨file', old', hfile', hold', -, hidle', -⟩ := find_restarted.1 hx
      rw [hfile] at hfile'
      obtain rfl := Option.some.inj hfile'
      rw [hold] at hold'
      obtain rfl := Option.some.inj hold'
      rw [hidle] at hidle'
      cases hidle'
    · rw [hsame]
      exact hover
    · rw [hsame]
      exact hadmits.whole (by simp) token used hused hover
  | false =>
    refine .inr ⟨reloaded (serverAfter cfg start es).clock token old, used, ?_, hsave, hused, ?_⟩
    · rw [hsessions]
      exact find_restarted.2 ⟨file, old, hfile, hold, hsave, hidle, rfl⟩
    · rw [reloaded_lastActivityAt, hwhole]

/-- After a restart there is one copy, in the file: the one that was there or a new one. -/
theorem image_restart {s : SessionServer} {saved : Bool} {copy : StoreCopy}
    (h : Image (SessionServer.step cfg s (.restart saved)) copy) :
    (SessionServer.step cfg s (.restart saved)).file = some copy ∧
      (s.file = some copy ∨
        copy = ⟨s.copied, (SessionServer.step cfg s (.restart saved)).sessions⟩) := by
  show (s.restart cfg saved).file = some copy ∧
    (s.file = some copy ∨ copy = ⟨s.copied, (s.restart cfg saved).sessions⟩)
  replace h : Image (s.restart cfg saved) copy := h
  unfold SessionServer.restart at h ⊢
  dsimp only at h ⊢
  split at h
  · rename_i hskip
    rw [if_pos hskip]
    obtain ⟨thread, h⟩ | h := h
    · cases h
    · exact ⟨h, .inr (Option.some.inj h).symm⟩
  · rename_i hskip
    rw [if_neg hskip]
    obtain ⟨thread, h⟩ | h := h
    · cases h
    · exact ⟨h, .inl h⟩

theorem Steady.of_part {pre : List SessionEvent} (h : Steady token es) (hpre : pre <+: es) :
    Steady token pre where
  once pre' pre'' username username' groups groups' h' h'' :=
    h.once pre' pre'' username username' groups groups' (h'.of_part hpre) (h''.of_part hpre)
  kept pre' h' := h.kept pre' (h'.of_part hpre)

/-- A token that some table holds is not created by the next event. -/
theorem LiveInv.not_created {e : SessionEvent} (h : LiveInv cfg start token es)
    (hsteady : Steady token (es ++ [e])) {session : AdminSessionInfo}
    (hheld : (serverAfter cfg start es).sessions.find token = some session ∨
      ∃ copy, Image (serverAfter cfg start es) copy ∧ copy.table.find token = some session) :
    ∀ username groups, e ≠ .create token username groups := by
  rintro username groups rfl
  obtain ⟨pre, username', groups', hpre⟩ := h.created session hheld
  have heq := hsteady.once pre es username' username groups' groups hpre.snoc (happens_self es _)
  have := hpre.lt
  rw [heq] at this
  omega

/-- A session that is live stays live or its time is over. -/
theorem LiveInv.live_step {e : SessionEvent} (h : LiveInv cfg start token es)
    (hinv : SessionInv cfg start es) (hfits : cfg.idleTimeout < 2 ^ 63)
    (hadmits : Admits cfg start es e) (hsteady : Steady token (es ++ [e]))
    (hrestart : ∀ saved, e ≠ .restart saved) (hlive : Live cfg start token es) :
    Live cfg start token (es ++ [e]) ∨ Expired cfg start token (es ++ [e]) := by
  obtain ⟨session, hfind, hsave⟩ := hlive
  have hstep := tokenStep cfg (serverAfter cfg start es) token e
  rw [← serverAfter_snoc] at hstep
  generalize hnew : (serverAfter cfg start (es ++ [e])).sessions.find token = new at hstep
  cases hstep with
  | kept hrestart hremove hnot => exact .inl ⟨session, hnew.trans hfind, hsave⟩
  | created username groups =>
    exact absurd rfl (h.not_created hsteady (.inl hfind) username groups)
  | refreshed hfound huse =>
    rw [hfind] at hfound
    obtain rfl := Option.some.inj hfound
    exact .inl ⟨_, hnew, hsave⟩
  | idle hfound hidle hnot htick hno =>
    rw [hfind] at hfound
    obtain rfl := Option.some.inj hfound
    obtain ⟨used, hused, hnear⟩ := h.near session hfind
    obtain ⟨hms, -⟩ := hinv.table token session hfind
    rw [idleExpired_eq hms, decide_eq_true_iff, idleLimit_eq hfits] at hidle
    have hover := hadmits.whole htick token used hused (by omega)
    have hclock := clock_le_of_part cfg start (List.prefix_append es [e])
    exact .inr ⟨hnew, used, (lastUse_snoc hnot).2 hused, by omega, by omega⟩
  | removed => exact absurd (happens_self es _) (hsteady.kept es)
  | restarted saved => exact absurd rfl (hrestart saved)

theorem wholeMs_clock_le (hepoch : 1000000 ≤ start) (es : List SessionEvent) :
    wholeMs (serverAfter cfg start es).clock ≤ (serverAfter cfg start es).clock := by
  have hclock := clock_ms cfg hepoch es
  rw [wholeMs_eq (by omega)]
  omega

/-- A session in the table after a step: where it came from, and that it is near its last use. -/
theorem LiveInv.table_step {e : SessionEvent} {session : AdminSessionInfo}
    (hepoch : 1000000 ≤ start) (hfits : cfg.idleTimeout < 2 ^ 63)
    (h : LiveInv cfg start token es) (hinv : SessionInv cfg start es)
    (hadmits : Admits cfg start es e)
    (hfind : (serverAfter cfg start (es ++ [e])).sessions.find token = some session) :
    (∃ pre username groups, Happens (es ++ [e]) pre (.create token username groups)) ∧
      ∃ used, LastUse cfg start token (es ++ [e]) used ∧
        wholeMs (serverAfter cfg start used).clock ≤ session.lastActivityAt := by
  have hcreated : ∀ session, ((serverAfter cfg start es).sessions.find token = some session ∨
      ∃ copy, Image (serverAfter cfg start es) copy ∧ copy.table.find token = some session) →
      ∃ pre username groups, Happens (es ++ [e]) pre (.create token username groups) := by
    intro session hheld
    obtain ⟨pre, username, groups, hpre⟩ := h.created session hheld
    exact ⟨pre, username, groups, hpre.snoc⟩
  have hstep := tokenStep cfg (serverAfter cfg start es) token e
  rw [← serverAfter_snoc] at hstep
  generalize hnew : (serverAfter cfg start (es ++ [e])).sessions.find token = new at hstep
  rw [hnew] at hfind
  cases hstep with
  | kept hrestart hremove hnot =>
    obtain ⟨used, hused, hnear⟩ := h.near session hfind
    exact ⟨hcreated session (.inl hfind), used, (lastUse_snoc hnot).2 hused, hnear⟩
  | created username groups =>
    obtain rfl := Option.some.inj hfind
    exact ⟨⟨es, username, groups, happens_self es _⟩, es, lastUse_snoc_self rfl,
      wholeMs_clock_le hepoch es⟩
  | refreshed hfound huse =>
    obtain rfl := Option.some.inj hfind
    exact ⟨hcreated _ (.inl hfound), es, lastUse_snoc_self huse, wholeMs_clock_le hepoch es⟩
  | idle hfound hidle hnot htick hrestart => cases hfind
  | removed => cases hfind
  | restarted saved =>
    obtain ⟨file, old, hfile, hold, hsave, -⟩ := find_restarted.1 hfind
    refine ⟨hcreated old (.inr ⟨file, .inr hfile, hold⟩), ?_⟩
    obtain hexpired | ⟨session', used, hfind', -, hused, hnear⟩ :=
      restart_held hepoch hfits hinv h hadmits hfile ⟨old, hold, hsave⟩
    · rw [hexpired.table] at hnew
      rw [← hnew] at hfind
      cases hfind
    · rw [hfind'] at hnew
      obtain rfl := Option.some.inj (hnew.trans hfind)
      exact ⟨used, (lastUse_snoc id).2 hused, hnear⟩

theorem LiveInv.step {e : SessionEvent} (hepoch : 1000000 ≤ start)
    (hfits : cfg.idleTimeout < 2 ^ 63) (h : LiveInv cfg start token es)
    (hinv : SessionInv cfg start es) (hadmits : Admits cfg start es e)
    (hsteady : Steady token (es ++ [e])) : LiveInv cfg start token (es ++ [e]) := by
  have htable := fun session => @h.table_step _ _ _ _ _ session hepoch hfits hinv hadmits
  have hself : ∀ copy : StoreCopy, copy.table = (serverAfter cfg start (es ++ [e])).sessions →
      HeldBy copy token → Live cfg start token (es ++ [e]) := by
    rintro copy hcopy ⟨session, hfind, hsave⟩
    exact ⟨session, hcopy ▸ hfind, hsave⟩
  have hkeeps : ∀ copy, Image (serverAfter cfg start es) copy → HeldBy copy token →
      Expired cfg start token es → Expired cfg start token (es ++ [e]) := by
    rintro copy himage ⟨old, hold, -⟩ hexpired
    exact hexpired.step hinv hfits (h.not_created hsteady (.inr ⟨copy, himage, hold⟩))
  refine ⟨?_, fun session hfind => (htable session hfind).2, ?_, ?_⟩
  · rintro session (hfind | ⟨copy, himage, hfind⟩)
    · exact (htable session hfind).1
    · rw [serverAfter_snoc] at himage
      obtain himage | ⟨rfl, -⟩ := image_step himage
      · obtain ⟨pre, username, groups, hpre⟩ := h.created session (.inr ⟨copy, himage, hfind⟩)
        exact ⟨pre, username, groups, hpre.snoc⟩
      · exact (htable session (by rw [serverAfter_snoc]; exact hfind)).1
  · intro copy himage hheld
    rw [serverAfter_snoc] at himage
    by_cases hrestart : ∃ saved, e = .restart saved
    · obtain ⟨saved, rfl⟩ := hrestart
      obtain ⟨-, hfile | rfl⟩ := image_restart himage
      · obtain hexpired | ⟨session, used, hfind, hsave, -⟩ :=
          restart_held hepoch hfits hinv h hadmits hfile hheld
        · exact .inr hexpired
        · exact .inl ⟨session, hfind, hsave⟩
      · exact .inl (hself _ (by rw [serverAfter_snoc]) hheld)
    · obtain himage | ⟨rfl, -⟩ := image_step himage
      · obtain hlive | hexpired := h.image copy himage hheld
        · exact h.live_step hinv hfits hadmits hsteady (fun saved heq => hrestart ⟨saved, heq⟩) hlive
        · exact .inr (hkeeps copy himage hheld hexpired)
      · exact .inl (hself _ (by rw [serverAfter_snoc]) hheld)
  · intro copy copy' himage himage' hnum hheld
    rw [serverAfter_snoc] at himage himage'
    by_cases hrestart : ∃ saved, e = .restart saved
    · obtain ⟨saved, rfl⟩ := hrestart
      obtain ⟨hfile, -⟩ := image_restart himage
      obtain ⟨hfile', -⟩ := image_restart himage'
      rw [hfile] at hfile'
      obtain rfl := Option.some.inj hfile'
      exact .inl hheld
    · obtain himage' | ⟨rfl, -⟩ := image_step himage'
      · obtain himage | ⟨rfl, -⟩ := image_step himage
        · obtain hheld' | hexpired := h.newer copy copy' himage himage' hnum hheld
          · exact .inl hheld'
          · exact .inr (hkeeps copy himage hheld hexpired)
        · have := hinv.numbered copy' himage'
          dsimp only at hnum
          omega
      · obtain himage | ⟨rfl, -⟩ := image_step himage
        · obtain hlive | hexpired := h.image copy himage hheld
          · obtain ⟨session, hfind, hsave⟩ | hexpired := h.live_step hinv hfits hadmits hsteady
              (fun saved heq => hrestart ⟨saved, heq⟩) hlive
            · refine .inl ⟨session, ?_, hsave⟩
              rw [serverAfter_snoc] at hfind
              exact hfind
            · exact .inr hexpired
          · exact .inr (hkeeps copy himage hheld hexpired)
        · exact .inl hheld

theorem liveInv (hepoch : 1000000 ≤ start) (hfits : cfg.idleTimeout < 2 ^ 63)
    (hadmits : ∀ pre e, Happens es pre e → Admits cfg start pre e) (hsteady : Steady token es) :
    LiveInv cfg start token es := by
  induction es using List.reverseRecOn with
  | nil =>
    have himage : ∀ copy, ¬ Image ({ clock := start } : SessionServer) copy := by
      rintro copy (⟨thread, h⟩ | h) <;> cases h
    refine ⟨?_, ?_, fun copy h => absurd h (himage copy), fun copy _ h => absurd h (himage copy)⟩
    · rintro session (h | ⟨copy, h, -⟩)
      · cases h
      · exact absurd h (himage copy)
    · intro session h
      cases h
  | append_singleton es e ih =>
    have hih := ih (fun pre x hx => hadmits pre x hx.snoc)
      (hsteady.of_part (List.prefix_append _ _))
    exact hih.step hepoch hfits (sessionInv hepoch es) (hadmits es e (happens_self es e)) hsteady

/-- Once saved the token stays in the file, or its time is over. -/
def Kept (cfg : AuthConfig) (start : Int) (token : String) (es : List SessionEvent) : Prop :=
  (∃ file, (serverAfter cfg start es).file = some file ∧ HeldBy file token) ∨
    Expired cfg start token es

theorem Kept.step {e : SessionEvent} (hepoch : 1000000 ≤ start)
    (hfits : cfg.idleTimeout < 2 ^ 63) (h : Kept cfg start token es)
    (hlive : LiveInv cfg start token es) (hinv : SessionInv cfg start es)
    (hadmits : Admits cfg start es e)
    (hcreate : ∀ username groups, e ≠ .create token username groups) :
    Kept cfg start token (es ++ [e]) := by
  obtain ⟨file, hfile, hheld⟩ | hexpired := h
  swap
  · exact .inr (hexpired.step hinv hfits hcreate)
  cases e with
  | write thread ok =>
    cases hcopy : (serverAfter cfg start es).saving thread with
    | none =>
      refine .inl ⟨file, ?_, hheld⟩
      rw [serverAfter_snoc]
      show ((serverAfter cfg start es).finishWrite thread ok).file = some file
      rw [SessionServer.finishWrite, hcopy]
      exact hfile
    | some copy =>
      have hnew : (serverAfter cfg start (es ++ [.write thread ok])).file =
          if ok then some copy else some file := by
        rw [serverAfter_snoc, ← hfile]
        show ((serverAfter cfg start es).finishWrite thread ok).file = _
        rw [SessionServer.finishWrite, hcopy]
      cases ok with
      | false => exact .inl ⟨file, hnew, hheld⟩
      | true =>
        have hnum := hadmits.inOrder thread copy file rfl hcopy hfile
        obtain hheld' | hexpired :=
          hlive.newer file copy (.inr hfile) (.inl ⟨thread, hcopy⟩) hnum hheld
        · exact .inl ⟨copy, hnew, hheld'⟩
        · exact .inr (hexpired.step hinv hfits hcreate)
  | restart saved =>
    obtain hexpired | ⟨session, used, hfind, hsave, -⟩ :=
      restart_held hepoch hfits hinv hlive hadmits hfile hheld
    · exact .inr hexpired
    · cases hfile' : (serverAfter cfg start (es ++ [.restart saved])).file with
      | none =>
        rw [serverAfter_snoc] at hfile'
        have hfrom : FileFrom 0 (SessionServer.step cfg (serverAfter cfg start es) (.restart saved)) :=
          FileFrom.step ⟨file, hfile, Nat.zero_le _⟩ hinv.numbered (by simp)
        obtain ⟨file', h, -⟩ := hfrom
        rw [hfile'] at h
        cases h
      | some file' =>
        refine .inl ⟨file', hfile', ?_⟩
        rw [serverAfter_snoc] at hfile' hfind
        obtain ⟨-, hsame | rfl⟩ := image_restart (.inr hfile')
        · rw [hfile] at hsame
          obtain rfl := Option.some.inj hsame
          exact hheld
        · exact ⟨session, hfind, hsave⟩
  | tick elapsed => exact .inl ⟨file, by rw [serverAfter_snoc]; exact hfile, hheld⟩
  | create t username groups => exact .inl ⟨file, by rw [serverAfter_snoc]; exact hfile, hheld⟩
  | remove t => exact .inl ⟨file, by rw [serverAfter_snoc]; exact hfile, hheld⟩
  | cleanup => exact .inl ⟨file, by rw [serverAfter_snoc]; exact hfile, hheld⟩
  | lookup req refresh => exact .inl ⟨file, by rw [serverAfter_snoc]; exact hfile, hheld⟩
  | copy thread => exact .inl ⟨file, by rw [serverAfter_snoc]; exact hfile, hheld⟩

theorem kept_of_saved (hepoch : 1000000 ≤ start) (hfits : cfg.idleTimeout < 2 ^ 63)
    (hadmits : ∀ pre e, Happens es pre e → Admits cfg start pre e) (hsteady : Steady token es)
    (hsaved : Saved cfg start token es) : Kept cfg start token es := by
  obtain ⟨saved, copy, hpre, hfile, hheld⟩ := hsaved
  have hinv := fun mid (hmid : mid <+: es) =>
    liveInv hepoch hfits (fun pre x hx => hadmits pre x (hx.of_part hmid)) (hsteady.of_part hmid)
  obtain ⟨session, hfind, -⟩ := id hheld
  obtain ⟨created, username, groups, hcreated⟩ :=
    (hinv saved hpre).created session (.inr ⟨copy, .inr hfile, hfind⟩)
  refine prefix_induct hpre (.inl ⟨copy, hfile, hheld⟩ : Kept cfg start token saved)
    fun mid x hmid hx hkept => ?_
  have hmides : mid <+: es := (List.prefix_append _ _).trans hx
  refine hkept.step hepoch hfits (hinv mid hmides) (sessionInv hepoch mid) (hadmits mid x hx) ?_
  rintro username' groups' rfl
  have heq := hsteady.once created mid username username' groups groups' (hcreated.of_part hpre) hx
  have hlt := hcreated.lt
  have hle := hmid.length_le
  rw [heq] at hlt
  omega

theorem staysLive (h : Undisturbed cfg start es) : StaysLive cfg start es := by
  intro pre req refresh used hlookup hsteady hsaved hused hintime
  have hpre : pre <+: es := (List.prefix_append _ _).trans hlookup
  have hadmits := fun mid x hx => h.admits mid x (Happens.of_part hx hpre)
  have hlive := liveInv h.epoch h.fits hadmits hsteady
  have hover : ∀ used', LastUse cfg start req.token pre used' → ¬ cfg.idleTimeout ≤
      (serverAfter cfg start pre).clock - (serverAfter cfg start used').clock := by
    intro used' hused'
    rw [hused.unique hused'] at hintime
    omega
  have hfound : Live cfg start req.token pre := by
    obtain ⟨file, hfile, hheld⟩ | hexpired :=
      kept_of_saved h.epoch h.fits hadmits hsteady hsaved
    · obtain hlive | hexpired := hlive.image file (.inr hfile) hheld
      · exact hlive
      · obtain ⟨used', hused', -, hle⟩ := hexpired.timeOver
        exact absurd hle (hover used' hused')
    · obtain ⟨used', hused', -, hle⟩ := hexpired.timeOver
      exact absurd hle (hover used' hused')
  obtain ⟨session, hfind, hsave⟩ := hfound
  by_cases hservice : req.token = cfg.adminServiceToken
  · have hnonempty : ¬ req.token.isEmpty := by simpa using hsave.1
    have heq : getSessionFromRequest cfg (serverAfter cfg start pre).clock
        (serverAfter cfg start pre).sessions req refresh = _ :=
      (if_neg hnonempty).trans (if_pos (by rw [← hservice]; simpa using hnonempty))
    rw [Authorises, heq]
    rfl
  · refine (authorises_iff hsave.1 hservice).2 ⟨session, hfind, ?_⟩
    obtain ⟨hms, -⟩ := (sessionInv h.epoch pre).table _ session hfind
    obtain ⟨used', hused', hnear⟩ := hlive.near session hfind
    rw [idleExpired_eq hms, decide_eq_false_iff_not, idleLimit_eq h.fits]
    intro hidle
    refine hover used' hused' ((h.admits pre _ hlookup).whole (by simp) req.token used' hused' ?_)
    omega

/-- **Sessions over restarts**: in a run whose events are all admitted no session outlives its
timeout, no erased session comes back, and every saved session stays until its time is over. -/
theorem sessions_survive (cfg : AuthConfig) (start : Int) (es : List SessionEvent)
    (h : Undisturbed cfg start es) :
    KeepsIdleLimit cfg start es ∧ StaysErased cfg start es ∧ StaysLive cfg start es :=
  ⟨keepsIdleLimit h.epoch es, staysErased h, staysLive h⟩

end

/-! ## Runs -/

section

def oneMinute : AuthConfig where
  authTimeoutMinutes := 1
  positive := by decide

def anna : AuthUsername where
  name := "anna"
  nonempty := by decide
  normal := by decide

def annasRequest : AuthRequest where
  adminToken := "a"

/-- A session is created and saved, and the server restarts. -/
def savedRun : List SessionEvent :=
  [.create "a" anna ["admin"], .copy 0, .write 0 true, .restart true, .lookup annasRequest true]

theorem savedRun_clock {pre : List SessionEvent} (h : pre <+: savedRun) :
    (serverAfter oneMinute 1000000 pre).clock = 1000000 := by
  refine prefix_induct (Q := fun es => es <+: savedRun →
    (serverAfter oneMinute 1000000 es).clock = 1000000) (List.nil_prefix : [] <+: pre)
    (fun _ => rfl) (fun mid e _ hx ih hmid => ?_) h
  have hmem : e ∈ savedRun := (Happens.of_part (happens_self mid e) hmid).mem
  rw [serverAfter_snoc, clock_step, ih ((List.prefix_append _ _).trans hmid)]
  simp only [savedRun, List.mem_cons, List.not_mem_nil, or_false] at hmem
  rcases hmem with rfl | rfl | rfl | rfl | rfl <;> rfl

theorem savedRun_undisturbed : Undisturbed oneMinute 1000000 savedRun where
  epoch := le_rfl
  fits := by decide
  admits pre e h := by
    have hpre : pre <+: savedRun := (List.prefix_append _ _).trans h
    refine ⟨?_, ?_, ?_⟩
    · rintro thread copy file rfl hcopy hfile
      simp [savedRun, happens_cons] at h
      obtain ⟨rfl, rfl⟩ := h
      cases hfile
    · rintro saved rfl item hitem session hfind
      simp [savedRun, happens_cons] at h
      obtain ⟨rfl, rfl⟩ := h
      have hitems : (serverAfter oneMinute 1000000 [.create "a" anna ["admin"], .copy 0,
          .write 0 true]).storeItems = [toStored "a" (newSession 1000000 anna ["admin"])] := by
        decide +kernel
      have hsession : (serverAfter oneMinute 1000000 [.create "a" anna ["admin"], .copy 0,
          .write 0 true]).sessions.find "a" = some (newSession 1000000 anna ["admin"]) := by
        decide +kernel
      rw [hitems, List.mem_singleton] at hitem
      subst hitem
      obtain rfl := Option.some.inj (hsession.symm.trans hfind)
      rfl
    · intro _ token used hused hover
      rw [savedRun_clock hpre, savedRun_clock (hused.part.trans hpre)] at hover
      exact absurd hover (by decide)

/-- After the restart the saved session is authorised. -/
theorem savedRun_survives :
    Undisturbed oneMinute 1000000 savedRun ∧ KeepsIdleLimit oneMinute 1000000 savedRun ∧
      StaysErased oneMinute 1000000 savedRun ∧ StaysLive oneMinute 1000000 savedRun :=
  ⟨savedRun_undisturbed, sessions_survive oneMinute 1000000 savedRun savedRun_undisturbed⟩

/-- The copy that thread 0 took before the logout is written after that of thread 1. -/
def staleRun : List SessionEvent :=
  [.create "a" anna ["admin"], .copy 0, .remove "a", .copy 1, .write 1 true, .write 0 true,
   .restart true, .lookup annasRequest true]

/-- A session is refreshed 50 s after it was saved, and 50 s later the server restarts. -/
def refreshedRun : List SessionEvent :=
  [.create "a" anna ["admin"], .copy 0, .write 0 true, .tick 50000000000,
   .lookup annasRequest true, .tick 50000000000, .restart true, .lookup annasRequest true]

theorem staleRun_erased : Erased oneMinute 1000000 "a" (staleRun.take 7) := by
  refine ⟨staleRun.take 2, .remove "a", staleRun.take 4, 1, staleRun.take 6, true, ⟨_, rfl⟩,
    ⟨by simp, by decide +kernel, by decide +kernel⟩, ⟨_, rfl⟩, ⟨_, rfl⟩,
    ⟨_, rfl, by decide +kernel⟩, ?_, ⟨_, rfl⟩, ⟨_, rfl⟩, ?_⟩
  · intro pre saved _ h
    simp [staleRun, happens_cons] at h
  · intro pre username groups hpre h
    simp [staleRun, happens_cons] at h
    obtain ⟨rfl, -⟩ := h
    exact absurd hpre.length_le (by decide)

/-- The erased session is back, and a session that was refreshed in time is lost. -/
theorem sessions_do_not_survive :
    ¬ StaysErased oneMinute 1000000 staleRun ∧ ¬ StaysLive oneMinute 1000000 refreshedRun := by
  constructor
  · intro h
    refine h (staleRun.take 7) annasRequest true ⟨_, rfl⟩ (by decide) staleRun_erased ?_
    show Option.isSome _ = true
    decide +kernel
  · intro h
    have hauth := h (refreshedRun.take 7) annasRequest true (refreshedRun.take 4) ⟨_, rfl⟩ ?_ ?_ ?_ ?_
    · have hnot : ¬ (Option.isSome (getSessionFromRequest oneMinute
          (serverAfter oneMinute 1000000 (refreshedRun.take 7)).clock
          (serverAfter oneMinute 1000000 (refreshedRun.take 7)).sessions annasRequest true).2) := by
        decide +kernel
      exact hnot hauth
    · refine ⟨?_, ?_⟩
      · intro pre pre' username username' groups groups' hpre hpre'
        simp [refreshedRun, happens_cons] at hpre hpre'
        rw [hpre.1, hpre'.1]
      · intro pre hpre
        simp [refreshedRun, happens_cons] at hpre
    · refine ⟨refreshedRun.take 3, _, ⟨_, rfl⟩, rfl, newSession 1000000 anna ["admin"], ?_, ?_⟩
      · decide +kernel
      · exact ⟨by decide, by decide⟩
    · refine ⟨.lookup annasRequest true, ⟨_, rfl⟩, ⟨rfl, by decide, rfl, ?_⟩, ?_⟩
      · show Option.isSome _ = true
        decide +kernel
      · intro pre e hpre huse
        simp [refreshedRun, happens_cons, and_or_left, exists_or] at hpre
        rcases hpre with ⟨rfl, -⟩ | ⟨rfl, -⟩ | ⟨rfl, -⟩ | ⟨rfl, -⟩ | ⟨rfl, -⟩ | ⟨rfl, rfl⟩ | ⟨rfl, rfl⟩
        all_goals first
          | exact absurd huse id
          | decide
    · decide +kernel

end

end OpcBridge.Admin
