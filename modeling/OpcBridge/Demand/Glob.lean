import OpcBridge.Demand.Sources

/-!
# Globs

The language of a pattern, where `*` stands for any text and `?` for any character, and what
`consumer_demand_glob` accepts of it: the loop compares a star with the text before it takes it for
a star, so a star that begins at a `*` of the text stands for that character only
(`consumerDemandGlob_iff`).
-/

namespace OpcBridge

/-- The texts of a pattern. What a star takes, before the rest of the text, has to be allowed. -/
inductive Glob (allowed : List Char → List Char → Prop) : List Char → List Char → Prop
  | nil : Glob allowed [] []
  | any (c : Char) {p t : List Char} (h : Glob allowed p t) : Glob allowed ('?' :: p) (c :: t)
  | char {c : Char} {p t : List Char} (hc : c ≠ '*') (h : Glob allowed p t) :
      Glob allowed (c :: p) (c :: t)
  | star {taken p t : List Char} (ha : allowed taken t) (h : Glob allowed p t) :
      Glob allowed ('*' :: p) (taken ++ t)

/-- The language of a pattern. -/
def GlobMatches : List Char → List Char → Prop := Glob fun _ _ => True

/-- A star that begins at a `*` takes this character and no more. -/
def StarFirst (taken rest : List Char) : Prop :=
  (taken ++ rest).head? = some '*' → taken = ['*']

def GlobReads : List Char → List Char → Prop := Glob StarFirst

theorem Glob.mono {allowed allowed' : List Char → List Char → Prop}
    (hmono : ∀ taken rest, allowed taken rest → allowed' taken rest) {p t : List Char}
    (h : Glob allowed p t) : Glob allowed' p t := by
  induction h with
  | nil => exact .nil
  | any c h ih => exact .any c ih
  | char hc h ih => exact .char hc ih
  | star ha h ih => exact .star (hmono _ _ ha) ih

theorem GlobReads.matches {p t : List Char} (h : GlobReads p t) : GlobMatches p t :=
  Glob.mono (fun _ _ _ => trivial) h

/-! ## One character of the pattern -/

section
variable {c q : Char} {p t : List Char}

theorem glob_cons {allowed : List Char → List Char → Prop} : Glob allowed (q :: p) t ↔
    (q = '?' ∧ ∃ c rest, t = c :: rest ∧ Glob allowed p rest) ∨
      (q ≠ '*' ∧ ∃ rest, t = q :: rest ∧ Glob allowed p rest) ∨
        (q = '*' ∧ ∃ taken rest, t = taken ++ rest ∧ allowed taken rest ∧ Glob allowed p rest) := by
  constructor
  · intro h
    generalize hp : q :: p = p' at h
    cases h with
    | nil => cases hp
    | any c h =>
      cases hp
      exact .inl ⟨rfl, c, _, rfl, h⟩
    | char hc h =>
      cases hp
      exact .inr (.inl ⟨hc, _, rfl, h⟩)
    | star ha h =>
      cases hp
      exact .inr (.inr ⟨rfl, _, _, rfl, ha, h⟩)
  · intro h
    rcases h with ⟨rfl, c, rest, rfl, h⟩ | ⟨hc, rest, rfl, h⟩ | ⟨rfl, taken, rest, rfl, ha, h⟩
    · exact .any c h
    · exact .char hc h
    · exact .star ha h

theorem globReads_nil : GlobReads [] t ↔ t = [] := by
  constructor
  · intro h
    cases h
    rfl
  · rintro rfl
    exact .nil

/-- A character of the pattern that meets itself or a `?` takes one character of the text. -/
theorem globReads_direct (h : q = '?' ∨ q = c) : GlobReads (q :: p) (c :: t) ↔ GlobReads p t := by
  unfold GlobReads
  rw [glob_cons]
  constructor
  · rintro (⟨-, c', rest, heq, hrest⟩ | ⟨-, rest, heq, hrest⟩ | ⟨rfl, taken, rest, heq, ha, hrest⟩)
    · cases heq
      exact hrest
    · cases heq
      exact hrest
    · rcases h with h | rfl
      · cases h
      · have htaken : taken = ['*'] := ha (by rw [← heq]; rfl)
        subst htaken
        cases heq
        exact hrest
  · intro hrest
    rcases h with rfl | rfl
    · exact .inl ⟨rfl, c, t, rfl, hrest⟩
    · by_cases hq : q = '*'
      · subst hq
        exact .inr (.inr ⟨rfl, ['*'], t, rfl, fun _ => rfl, hrest⟩)
      · exact .inr (.inl ⟨hq, t, rfl, hrest⟩)

theorem globReads_mismatch (hdirect : ¬ (q = '?' ∨ q = c)) (hstar : q ≠ '*') :
    ¬ GlobReads (q :: p) (c :: t) := by
  unfold GlobReads
  rw [glob_cons]
  rintro (⟨rfl, -⟩ | ⟨-, rest, heq, -⟩ | ⟨rfl, -⟩)
  · exact hdirect (.inl rfl)
  · exact hdirect (.inr (List.cons.inj heq).1.symm)
  · exact hstar rfl

theorem GlobReads.after_star (h : GlobReads ('*' :: p) t) : ∃ n, GlobReads p (t.drop n) := by
  unfold GlobReads at h
  rw [glob_cons] at h
  rcases h with ⟨hq, -⟩ | ⟨hq, -⟩ | ⟨-, taken, rest, rfl, -, hrest⟩
  · cases hq
  · exact absurd rfl hq
  · exact ⟨taken.length, by rwa [List.drop_left]⟩

/-- A star before another character takes any text. -/
theorem globReads_star (ht : t.head? ≠ some '*') :
    GlobReads ('*' :: p) t ↔ ∃ n, GlobReads p (t.drop n) := by
  refine ⟨GlobReads.after_star, fun ⟨n, hrest⟩ => ?_⟩
  refine glob_cons.2 (.inr (.inr ⟨rfl, t.take n, t.drop n, (List.take_append_drop n t).symm, ?_,
    hrest⟩))
  intro hhead
  rw [List.take_append_drop] at hhead
  exact absurd hhead ht

theorem globReads_end : GlobReads p [] ↔ (p.dropWhile (· == '*')).isEmpty = true := by
  induction p with
  | nil => exact iff_of_true .nil rfl
  | cons q p ih =>
    by_cases hq : q = '*'
    · subst hq
      rw [globReads_star (by simp), List.dropWhile_cons_of_pos (by simp), ← ih]
      simp
    · rw [List.dropWhile_cons_of_neg (by simpa using hq)]
      refine iff_of_false ?_ (by simp)
      unfold GlobReads
      rw [glob_cons]
      rintro (⟨-, c, rest, heq, -⟩ | ⟨-, rest, heq, -⟩ | ⟨h, -⟩)
      · cases heq
      · cases heq
      · exact hq h

end

/-! ## The loop -/

/-- A character of the pattern against one of the text, as the loop compares them. -/
def GlobDirect (q c : Char) : Prop := q = '?' ∨ q = c

/-- Where a piece of the pattern stands directly on the text, any reading from a later place stays at
or behind it: it can fall back only at a star, and the star of the piece stands on a `*`. -/
theorem reads_behind {u p m : List Char} (hdirect : List.Forall₂ GlobDirect u (m.take u.length))
    {j : Nat} (h : GlobReads (u ++ p) (m.drop j)) : ∃ i, u.length ≤ i ∧ GlobReads p (m.drop i) := by
  induction u generalizing m j with
  | nil => exact ⟨j, Nat.zero_le _, h⟩
  | cons q u ih =>
    cases m with
    | nil => cases hdirect
    | cons c m =>
      obtain ⟨hq, hmore⟩ := List.forall₂_cons.1 hdirect
      have hstep : ∃ i, GlobReads (u ++ p) (m.drop i) := by
        unfold GlobReads at h
        rw [List.cons_append, glob_cons] at h
        cases j with
        | zero =>
          rw [List.drop_zero] at h
          exact ⟨0, (globReads_direct hq).1 (glob_cons.2 h)⟩
        | succ j =>
          rw [List.drop_succ_cons] at h
          rcases h with ⟨-, x, rest, heq, h⟩ | ⟨-, rest, heq, h⟩ | ⟨-, taken, rest, heq, -, h⟩
          · refine ⟨j + 1, ?_⟩
            rw [← List.drop_drop, heq]
            exact h
          · refine ⟨j + 1, ?_⟩
            rw [← List.drop_drop, heq]
            exact h
          · refine ⟨j + taken.length, ?_⟩
            rw [← List.drop_drop, heq, List.drop_left]
            exact h
      obtain ⟨i, hi⟩ := hstep
      obtain ⟨k, hk, hread⟩ := ih hmore hi
      exact ⟨k + 1, by rw [List.length_cons]; omega, hread⟩

/-- The pattern since the last star stands directly on the text since its match. -/
def StarInv (star : Option (List Char)) (m : List Char) (k : Nat) (p : List Char) : Prop :=
  ∀ ps, star = some ps → ∃ u, ps = u ++ p ∧ u.length = k ∧ List.Forall₂ GlobDirect u (m.take k)

section
variable {star : Option (List Char)} {m : List Char} {k : Nat} {p : List Char}

theorem globLoop_end (h : m.drop k = []) :
    globLoop star m k p = (p.dropWhile (· == '*')).isEmpty := by
  rw [globLoop.eq_def]
  split
  · rfl
  · rename_i heq
    rw [h] at heq
    cases heq

theorem globLoop_step {c : Char} {rest : List Char} (h : m.drop k = c :: rest) :
    globLoop star m k p = match p with
      | q :: p' =>
        if q = '?' ∨ q = c then globLoop star m (k + 1) p'
        else if q = '*' then globLoop (some p') (m.drop k) 0 p'
        else match star with
          | some p => globLoop star m.tail 0 p
          | none => false
      | [] => match star with
        | some p => globLoop star m.tail 0 p
        | none => false := by
  rw [globLoop.eq_def]
  split
  · rename_i heq
    rw [h] at heq
    cases heq
  · rename_i c' rest' heq
    rw [h] at heq
    obtain ⟨rfl, rfl⟩ := List.cons.inj heq
    rfl

/-- A later place of the last star reads the rest of the pattern at the present place or behind. -/
theorem StarInv.behind (h : StarInv star m k p) {ps : List Char} (hps : star = some ps) {j : Nat}
    (hread : GlobReads ps (m.drop j)) : ∃ i, k ≤ i ∧ GlobReads p (m.drop i) := by
  obtain ⟨u, rfl, rfl, hdirect⟩ := h ps hps
  exact reads_behind hdirect hread

theorem StarInv.direct {c q : Char} {rest p' : List Char} (h : StarInv star m k (q :: p'))
    (hdrop : m.drop k = c :: rest) (hq : GlobDirect q c) : StarInv star m (k + 1) p' := by
  intro ps hps
  obtain ⟨u, rfl, rfl, hdirect⟩ := h ps hps
  refine ⟨u ++ [q], by simp, by simp, ?_⟩
  have htake : m.take (u.length + 1) = m.take u.length ++ [c] := by
    rw [List.take_add, hdrop]
    rfl
  rw [htake]
  exact List.rel_append hdirect (.cons hq .nil)

theorem starInv_start (ps m : List Char) : StarInv (some ps) m 0 ps := by
  intro ps' hps
  obtain rfl := Option.some.inj hps
  exact ⟨[], rfl, rfl, .nil⟩

end

/-- What the loop finds: a reading from the present place, or from a later place of the last star. -/
theorem globLoop_iff (star : Option (List Char)) (m : List Char) (k : Nat) (p : List Char)
    (hinv : StarInv star m k p) : globLoop star m k p = true ↔
      GlobReads p (m.drop k) ∨ ∃ ps, star = some ps ∧ ∃ j, GlobReads ps (m.drop (j + 1)) := by
  have hrestart : ∀ ps m, (GlobReads ps (List.drop 0 (List.tail m)) ∨
      ∃ ps', some ps = some ps' ∧ ∃ j, GlobReads ps' (m.tail.drop (j + 1))) ↔
        ∃ j, GlobReads ps (m.drop (j + 1)) := by
    intro ps m
    cases m with
    | nil => simp
    | cons c m =>
      constructor
      · rintro (h | ⟨ps', hps, j, h⟩)
        · exact ⟨0, h⟩
        · obtain rfl := Option.some.inj hps
          exact ⟨j + 1, h⟩
      · rintro ⟨j, h⟩
        cases j with
        | zero => exact .inl h
        | succ j => exact .inr ⟨ps, rfl, j, h⟩
  induction star, m, k, p using globLoop.induct with
  | case1 star m k p hdrop =>
    rw [globLoop_end hdrop, hdrop, globReads_end]
    constructor
    · exact .inl
    · intro h
      rcases h with h | ⟨ps, hps, j, hread⟩
      · exact h
      · obtain ⟨i, hi, hend⟩ := hinv.behind hps hread
        rw [List.drop_eq_nil_of_le (by have := List.drop_eq_nil_iff.1 hdrop; omega)] at hend
        exact globReads_end.1 hend
  | case2 star m k c rest hdrop q p' hq ih =>
    rw [globLoop_step hdrop]
    dsimp only
    have hnext : m.drop (k + 1) = rest := by
      rw [← List.drop_drop, hdrop]
      rfl
    rw [if_pos hq, hdrop, globReads_direct hq, ← hnext]
    exact ih (hinv.direct hdrop hq)
  | case3 star m k c rest hdrop p' hq ih =>
    rw [globLoop_step hdrop]
    dsimp only
    rw [if_neg hq, if_pos rfl]
    have hhead : (m.drop k).head? ≠ some '*' := by
      rw [hdrop]
      intro h
      exact hq (.inr (Option.some.inj h).symm)
    have hold : (∃ ps, star = some ps ∧ ∃ j, GlobReads ps (m.drop (j + 1))) →
        GlobReads ('*' :: p') (m.drop k) := by
      rintro ⟨ps, hps, j, hread⟩
      obtain ⟨i, hi, hread⟩ := hinv.behind hps hread
      obtain ⟨n, hread⟩ := hread.after_star
      refine (globReads_star hhead).2 ⟨i - k + n, ?_⟩
      rwa [List.drop_drop, show k + (i - k + n) = i + n by omega, ← List.drop_drop]
    rw [or_iff_left_of_imp hold, globReads_star hhead]
    refine (ih (starInv_start _ _)).trans ?_
    constructor
    · rintro (h | ⟨ps, hps, j, h⟩)
      · exact ⟨0, h⟩
      · obtain rfl := Option.some.inj hps
        exact ⟨j + 1, h⟩
    · rintro ⟨j, h⟩
      cases j with
      | zero => exact .inl h
      | succ j => exact .inr ⟨p', rfl, j, h⟩
  | case4 m k c rest hdrop q p' hq hstar ps ih =>
    rw [globLoop_step hdrop]
    dsimp only
    rw [if_neg hq, if_neg hstar, hdrop, or_iff_right (globReads_mismatch hq hstar)]
    refine (ih (starInv_start _ _)).trans ((hrestart ps m).trans ?_)
    exact ⟨fun h => ⟨ps, rfl, h⟩, fun ⟨ps', hps, h⟩ => by rwa [Option.some.inj hps]⟩
  | case5 m k c rest hdrop q p' hq hstar =>
    rw [globLoop_step hdrop]
    dsimp only
    rw [if_neg hq, if_neg hstar, hdrop]
    refine iff_of_false Bool.false_ne_true ?_
    rintro (h | ⟨ps, hps, -⟩)
    · exact globReads_mismatch hq hstar h
    · cases hps
  | case6 m k c rest hdrop ps ih =>
    rw [globLoop_step hdrop]
    dsimp only
    have hno : ¬ GlobReads [] (m.drop k) := by
      rw [hdrop, globReads_nil]
      exact List.cons_ne_nil _ _
    rw [or_iff_right hno]
    refine (ih (starInv_start _ _)).trans ((hrestart ps m).trans ?_)
    exact ⟨fun h => ⟨ps, rfl, h⟩, fun ⟨ps', hps, h⟩ => by rwa [Option.some.inj hps]⟩
  | case7 m k c rest hdrop =>
    rw [globLoop_step hdrop]
    dsimp only
    rw [hdrop, globReads_nil]
    refine iff_of_false Bool.false_ne_true ?_
    rintro (h | ⟨ps, hps, -⟩)
    · cases h
    · cases hps

theorem consumerDemandGlob_reads {pattern text : String} :
    consumerDemandGlob pattern text = true ↔ GlobReads pattern.toList text.toList := by
  refine (globLoop_iff none text.toList 0 pattern.toList fun ps hps => nomatch hps).trans ?_
  rw [List.drop_zero, or_iff_left]
  rintro ⟨ps, hps, -⟩
  cases hps

/-- **Globs.** The matcher ends on every pattern and text, and accepts what the pattern stands for
exactly where a text of its language has a reading in which a star that begins at a `*` takes only
this character. -/
theorem consumerDemandGlob_iff (pattern text : String) :
    (consumerDemandGlob pattern text = true ↔ GlobMatches pattern.toList text.toList) ↔
      (GlobMatches pattern.toList text.toList → GlobReads pattern.toList text.toList) := by
  rw [consumerDemandGlob_reads]
  exact ⟨Iff.mpr, fun h => ⟨GlobReads.matches, h⟩⟩

/-- A pattern of one star does not find the texts that begin with a `*` and go on. -/
theorem star_misses : ¬ (consumerDemandGlob "*" "*a" = true ↔
    GlobMatches "*".toList "*a".toList) := by
  intro h
  have hmatch : GlobMatches ['*'] (['*', 'a'] ++ []) := .star trivial .nil
  have hread : GlobReads ['*'] ['*', 'a'] := consumerDemandGlob_reads.1 (h.2 hmatch)
  rw [globReads_direct (.inr rfl), globReads_nil] at hread
  cases hread

end OpcBridge
