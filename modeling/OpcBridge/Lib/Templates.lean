import Mathlib.Data.List.Induction

/-!
# Templates with named places

A template is a text with places such as `{name}`. `simultaneous` puts the fields' values into the
places of the template, all at once. `expand` does it one field after another on the growing text,
so that a place inside a value, or one that a value and the text around it make up, is taken for a
place of the template. The two agree after every field if and only if no place of a field arises
before its turn (`expand_iff`).

The word of a place has no brace: two places do not overlap, and none reaches over the start of
another. Everything here rests on that (`fill_brace`).
-/

namespace Lib.Templates

structure Field where
  word : List Char
  value : List Char
  plain : ∀ c ∈ word, c ≠ '{' ∧ c ≠ '}' := by decide

def Field.key (f : Field) : List Char := '{' :: (f.word ++ ['}'])

/-- The text with the values in the places, after `n` characters of a place. -/
def fill (fs : List Field) : Nat → List Char → List Char
  | _, [] => []
  | n + 1, _ :: cs => fill fs n cs
  | 0, c :: cs =>
    match fs.find? fun f => f.key.isPrefixOf (c :: cs) with
    | some f => f.value ++ fill fs (f.key.length - 1) cs
    | none => c :: fill fs 0 cs

def simultaneous (fs : List Field) (t : List Char) : List Char := fill fs 0 t

/-- Every place of one field, from left to right. -/
def replaceAll (f : Field) (t : List Char) : List Char := simultaneous [f] t

/-- One field after another. -/
def expand (fs : List Field) (t : List Char) : List Char := fs.foldl (fun t f => replaceAll f t) t

/-- How often a key occurs. -/
def occurrences (key : List Char) : List Char → Nat
  | [] => 0
  | c :: cs => (if key.isPrefixOf (c :: cs) then 1 else 0) + occurrences key cs

/-! ## Places do not overlap -/

theorem not_mem_rest (f : Field) : '{' ∉ f.word ++ ['}'] := by
  intro hmem
  rcases List.mem_append.1 hmem with hword | hclose
  · exact (f.plain _ hword).1 rfl
  · exact absurd (List.mem_singleton.1 hclose) (by decide)

/-- A place does not reach over an opening brace. -/
theorem prefix_of_brace {f : Field} {c : Char} {a r : List Char} :
    f.key <+: c :: a ++ '{' :: r ↔ f.key <+: c :: a := by
  refine ⟨fun h => ?_, fun h => h.trans (List.prefix_append _ _)⟩
  rcases List.prefix_or_prefix_of_prefix h (List.prefix_append _ _) with hinside | hover
  · exact hinside
  · obtain ⟨y, hy⟩ := hover
    obtain ⟨z, hz⟩ := h
    rw [← hy, List.append_assoc] at hz
    have hrest : y ++ z = '{' :: r := List.append_cancel_left hz
    cases y with
    | nil =>
      have hall : f.key = c :: a := hy.symm.trans (List.append_nil _)
      exact ⟨[], (List.append_nil _).trans hall⟩
    | cons d y =>
      obtain rfl : d = '{' := (List.cons.inj hrest).1
      have hmem : '{' ∈ f.word ++ ['}'] := by
        rw [← (List.cons.inj hy).2]
        exact List.mem_append_right _ List.mem_cons_self
      exact absurd hmem (not_mem_rest f)

/-- Two places that start together are the same. -/
theorem prefix_of_key {f g : Field} {b : List Char} : f.key <+: g.key ++ b ↔ f.key = g.key := by
  constructor
  · rintro ⟨x, hx⟩
    have hwords : f.word ++ '}' :: x = g.word ++ '}' :: b := by
      simpa [Field.key] using hx
    have htake := congrArg (List.takeWhile (· != '}')) hwords
    have hplain : ∀ (h : Field) (r : List Char),
        (h.word ++ '}' :: r).takeWhile (· != '}') = h.word := by
      intro h r
      rw [List.takeWhile_append_of_pos fun c hc => bne_iff_ne.2 (h.plain c hc).2]
      simp
    rw [hplain, hplain] at htake
    rw [Field.key, Field.key, htake]
  · intro h
    rw [h]
    exact List.prefix_append _ _

theorem key_length (f : Field) : f.key.length = (f.word ++ ['}']).length + 1 := rfl

/-! ## Filling in -/

theorem fill_skip (fs : List Field) (a b : List Char) : fill fs a.length (a ++ b) = fill fs 0 b := by
  induction a with
  | nil => rfl
  | cons c a ih => exact ih

/-- The text up to an opening brace is filled in on its own. -/
theorem fill_brace (fs : List Field) (r : List Char) : ∀ (a : List Char) (n : Nat), n ≤ a.length →
    fill fs n (a ++ '{' :: r) = fill fs n a ++ fill fs 0 ('{' :: r) := by
  intro a
  induction a with
  | nil =>
    intro n hn
    obtain rfl : n = 0 := Nat.le_zero.1 hn
    rfl
  | cons c a ih =>
    intro n hn
    cases n with
    | succ n => exact ih n (Nat.le_of_succ_le_succ hn)
    | zero =>
      have hfind : (fs.find? fun f => f.key.isPrefixOf (c :: (a ++ '{' :: r))) =
          fs.find? fun f => f.key.isPrefixOf (c :: a) := by
        congr 1
        funext f
        rw [Bool.eq_iff_iff, List.isPrefixOf_iff_prefix, List.isPrefixOf_iff_prefix]
        exact prefix_of_brace
      rw [List.cons_append, fill, hfind, fill]
      split
      · rename_i f hf
        have hfound : f.key.isPrefixOf (c :: a) = true :=
          List.find?_some (p := fun f : Field => f.key.isPrefixOf (c :: a)) hf
        have hstarts := List.isPrefixOf_iff_prefix.1 hfound
        have hlength := hstarts.length_le
        rw [List.length_cons] at hlength
        rw [ih _ (by omega), List.append_assoc]
      · rw [ih 0 (Nat.zero_le _), List.cons_append]

/-- Nothing starts inside a place. -/
theorem fill_plain (fs : List Field) (b : List Char) {a : List Char} (ha : '{' ∉ a) :
    fill fs 0 (a ++ b) = a ++ fill fs 0 b := by
  induction a with
  | nil => rfl
  | cons c a ih =>
    rw [List.mem_cons, not_or] at ha
    have hfind : (fs.find? fun f => f.key.isPrefixOf (c :: (a ++ b))) = none := by
      refine List.find?_eq_none.2 fun f _ hstarts => ha.1 ?_
      exact (List.cons_prefix_cons.1 (List.isPrefixOf_iff_prefix.1 hstarts)).1
    rw [List.cons_append, fill, hfind, List.cons_append]
    exact congrArg (c :: ·) (ih ha.2)

variable {fs : List Field} {g : Field}

theorem find_key (h : ∀ f ∈ fs, f.key ≠ g.key) (b : List Char) :
    (fs.find? fun f => f.key.isPrefixOf (g.key ++ b)) = none :=
  List.find?_eq_none.2 fun f hf hstarts =>
    h f hf (prefix_of_key.1 (List.isPrefixOf_iff_prefix.1 hstarts))

/-- The place of another field stays. -/
theorem fill_other (h : ∀ f ∈ fs, f.key ≠ g.key) (a b : List Char) :
    simultaneous fs (a ++ (g.key ++ b)) =
      simultaneous fs a ++ (g.key ++ simultaneous fs b) := by
  have hfind := find_key h b
  unfold simultaneous
  rw [Field.key, List.cons_append] at hfind ⊢
  rw [fill_brace fs _ a 0 (Nat.zero_le _)]
  congr 1
  rw [fill, hfind]
  exact congrArg ('{' :: ·) (fill_plain fs b (not_mem_rest g))

/-- The place of the last field gets its value. -/
theorem fill_own (h : ∀ f ∈ fs, f.key ≠ g.key) (a b : List Char) :
    simultaneous (fs ++ [g]) (a ++ (g.key ++ b)) =
      simultaneous (fs ++ [g]) a ++ (g.value ++ simultaneous (fs ++ [g]) b) := by
  have hfind : ((fs ++ [g]).find? fun f => f.key.isPrefixOf (g.key ++ b)) = some g := by
    rw [List.find?_append, find_key h b, Option.none_or]
    exact List.find?_cons_of_pos (List.isPrefixOf_iff_prefix.2 (List.prefix_append _ _))
  unfold simultaneous
  rw [Field.key, List.cons_append] at hfind ⊢
  rw [fill_brace _ _ a 0 (Nat.zero_le _)]
  congr 1
  rw [fill, hfind]
  exact congrArg (g.value ++ ·) (fill_skip _ _ b)

theorem fill_nil : ∀ (t : List Char) , simultaneous [] t = t := by
  intro t
  induction t with
  | nil => rfl
  | cons c t ih => exact congrArg (c :: ·) ih

/-- A field without a place changes nothing. -/
theorem fill_absent (t : List Char) (h : occurrences g.key t = 0) :
    simultaneous (fs ++ [g]) t = simultaneous fs t := by
  suffices hall : ∀ n, fill (fs ++ [g]) n t = fill fs n t from hall 0
  induction t with
  | nil =>
    intro n
    cases n <;> rfl
  | cons c t ih =>
    have hsum := Nat.add_eq_zero_iff.1 h
    have habsent : g.key.isPrefixOf (c :: t) = false := by
      by_contra hstarts
      rw [Bool.not_eq_false] at hstarts
      simp [hstarts] at hsum
    intro n
    cases n with
    | succ n => exact ih hsum.2 n
    | zero =>
      have hfind : ((fs ++ [g]).find? fun f => f.key.isPrefixOf (c :: t)) =
          fs.find? fun f => f.key.isPrefixOf (c :: t) := by
        rw [List.find?_append, List.find?_cons_of_neg (by simp [habsent]), List.find?_nil,
          Option.or_none]
      rw [fill, hfind, fill]
      split
      · rw [ih hsum.2]
      · rw [ih hsum.2]

/-! ## Occurrences -/

theorem occurrences_brace (r a : List Char) :
    occurrences g.key (a ++ '{' :: r) = occurrences g.key a + occurrences g.key ('{' :: r) := by
  induction a with
  | nil => exact (Nat.zero_add _).symm
  | cons c a ih =>
    have hstarts : g.key.isPrefixOf (c :: (a ++ '{' :: r)) = g.key.isPrefixOf (c :: a) := by
      rw [Bool.eq_iff_iff, List.isPrefixOf_iff_prefix, List.isPrefixOf_iff_prefix]
      exact prefix_of_brace
    rw [List.cons_append, occurrences, hstarts, ih, ← Nat.add_assoc]
    rfl

theorem occurrences_plain (b : List Char) {a : List Char} (ha : '{' ∉ a) :
    occurrences g.key (a ++ b) = occurrences g.key b := by
  induction a with
  | nil => rfl
  | cons c a ih =>
    rw [List.mem_cons, not_or] at ha
    have hstarts : g.key.isPrefixOf (c :: (a ++ b)) = false := by
      by_contra hstarts
      rw [Bool.not_eq_false, List.isPrefixOf_iff_prefix] at hstarts
      exact ha.1 (List.cons_prefix_cons.1 hstarts).1
    rw [List.cons_append, occurrences, hstarts, ih ha.2]
    exact Nat.zero_add _

theorem occurrences_append (a b : List Char) :
    occurrences g.key (a ++ (g.key ++ b)) = occurrences g.key a + (1 + occurrences g.key b) := by
  have hstarts : g.key.isPrefixOf (g.key ++ b) = true :=
    List.isPrefixOf_iff_prefix.2 (List.prefix_append _ _)
  have hkey : occurrences g.key (g.key ++ b) = 1 + occurrences g.key b := by
    show (if g.key.isPrefixOf (g.key ++ b) then 1 else 0) +
      occurrences g.key ((g.word ++ ['}']) ++ b) = _
    rw [hstarts, occurrences_plain b (not_mem_rest g)]
    rfl
  exact (occurrences_brace _ a).trans (congrArg _ hkey)

/-- The text before the first occurrence has none. -/
theorem exists_first (t : List Char) (h : occurrences g.key t ≠ 0) :
    ∃ a b, t = a ++ (g.key ++ b) ∧ occurrences g.key a = 0 := by
  induction t with
  | nil => exact absurd rfl h
  | cons c t ih =>
    by_cases hstarts : g.key.isPrefixOf (c :: t) = true
    · obtain ⟨b, hb⟩ := List.isPrefixOf_iff_prefix.1 hstarts
      exact ⟨[], b, hb.symm, rfl⟩
    · have hrest : occurrences g.key t ≠ 0 := by
        intro hzero
        apply h
        rw [occurrences, if_neg hstarts, hzero]
      obtain ⟨a, b, rfl, ha⟩ := ih hrest
      refine ⟨c :: a, b, rfl, ?_⟩
      have hnot : ¬ g.key.isPrefixOf (c :: a) = true := by
        intro hshort
        apply hstarts
        rw [List.isPrefixOf_iff_prefix] at hshort ⊢
        exact hshort.trans (List.prefix_append _ _)
      rw [occurrences, if_neg hnot, ha]

/-- Induction on the occurrences of a key. -/
theorem occurrences_induction {P : List Char → Prop} (key : Field)
    (habsent : ∀ t, occurrences key.key t = 0 → P t)
    (hplace : ∀ a b, occurrences key.key a = 0 → P b → P (a ++ (key.key ++ b))) (t : List Char) :
    P t := by
  by_cases hzero : occurrences key.key t = 0
  · exact habsent t hzero
  · obtain ⟨a, b, rfl, ha⟩ := exists_first t hzero
    exact hplace a b ha (occurrences_induction key habsent hplace b)
termination_by t.length
decreasing_by
  subst_vars
  simp only [List.length_append, key_length]
  omega

/-! ## One field -/

theorem no_others : ∀ f ∈ ([] : List Field), f.key ≠ g.key := fun _ hf => by cases hf

theorem replaceAll_absent {t : List Char} (h : occurrences g.key t = 0) : replaceAll g t = t :=
  have hfill : simultaneous ([] ++ [g]) t = simultaneous [] t := fill_absent t h
  hfill.trans (fill_nil t)

theorem replaceAll_append (a b : List Char) :
    replaceAll g (a ++ (g.key ++ b)) = replaceAll g a ++ (g.value ++ replaceAll g b) :=
  fill_own no_others a b

/-- What a field adds to the length. -/
theorem fill_length (h : ∀ f ∈ fs, f.key ≠ g.key) (t : List Char) :
    (simultaneous (fs ++ [g]) t).length + occurrences g.key t * g.key.length =
      (simultaneous fs t).length + occurrences g.key t * g.value.length := by
  induction t using occurrences_induction g with
  | habsent t hzero => rw [fill_absent t hzero, hzero, Nat.zero_mul, Nat.zero_mul]
  | hplace a b hzero ih =>
    rw [fill_own h, fill_other h, fill_absent a hzero, occurrences_append, hzero]
    simp only [List.length_append, Nat.add_mul]
    omega

theorem replaceAll_length (t : List Char) :
    (replaceAll g t).length + occurrences g.key t * g.key.length =
      t.length + occurrences g.key t * g.value.length := by
  have hlength := fill_length (g := g) no_others t
  rw [fill_nil] at hlength
  exact hlength

/-- Replacing changes nothing only where there is nothing to replace. -/
theorem replaceAll_eq_self (t : List Char) :
    replaceAll g t = t ↔ g.value = g.key ∨ occurrences g.key t = 0 := by
  constructor
  · intro heq
    by_cases hzero : occurrences g.key t = 0
    · exact .inr hzero
    · have hlength := replaceAll_length (g := g) t
      have hsame : g.value.length = g.key.length := by
        rw [heq] at hlength
        exact (Nat.mul_left_cancel (Nat.pos_of_ne_zero hzero) (Nat.add_left_cancel hlength)).symm
      obtain ⟨a, b, rfl, ha⟩ := exists_first t hzero
      rw [replaceAll_append, replaceAll_absent ha] at heq
      exact .inl (List.append_inj (List.append_cancel_left heq) hsame).1
  · rintro (hself | hzero)
    · induction t using occurrences_induction g with
      | habsent t hzero => exact replaceAll_absent hzero
      | hplace a b hzero ih => rw [replaceAll_append, replaceAll_absent hzero, ih, hself]
    · exact replaceAll_absent hzero

/-! ## One field after another -/

/-- The places of the template are there until their turn. -/
theorem occurrences_le (h : ∀ f ∈ fs, f.key ≠ g.key) (t : List Char) :
    occurrences g.key t ≤ occurrences g.key (simultaneous fs t) := by
  induction t using occurrences_induction g with
  | habsent t hzero =>
    rw [hzero]
    exact Nat.zero_le _
  | hplace a b hzero ih =>
    rw [fill_other h, occurrences_append, occurrences_append]
    omega

/-- One more field after the others. -/
theorem replaceAll_simultaneous (h : ∀ f ∈ fs, f.key ≠ g.key) (t : List Char) :
    replaceAll g (simultaneous fs t) = simultaneous (fs ++ [g]) t ↔
      g.value = g.key ∨ occurrences g.key (simultaneous fs t) = occurrences g.key t := by
  induction t using occurrences_induction g with
  | habsent t hzero =>
    rw [fill_absent t hzero, hzero]
    exact replaceAll_eq_self _
  | hplace a b hzero ih =>
    have hle := occurrences_le h b
    rw [fill_other h, fill_own h, fill_absent a hzero, replaceAll_append, occurrences_append,
      occurrences_append, hzero]
    constructor
    · intro heq
      -- both sides have the same length before the place: the lengths grow by the occurrences
      have hleft := replaceAll_length (g := g) (simultaneous fs a)
      have hright := replaceAll_length (g := g) (simultaneous fs b)
      have hfill := fill_length h b
      have hsum := congrArg List.length heq
      simp only [List.length_append] at hsum
      have hsplit : (replaceAll g (simultaneous fs a)).length = (simultaneous fs a).length := by
        obtain ⟨e, he⟩ := Nat.exists_eq_add_of_le hle
        rw [he, Nat.add_mul, Nat.add_mul] at hright
        have hextra : (occurrences g.key (simultaneous fs a) + e) * g.key.length =
            (occurrences g.key (simultaneous fs a) + e) * g.value.length := by
          rw [Nat.add_mul, Nat.add_mul]
          omega
        rcases Nat.eq_zero_or_pos (occurrences g.key (simultaneous fs a) + e) with hzero | hpos
        · rw [(Nat.add_eq_zero_iff.1 hzero).1] at hleft
          omega
        · rw [Nat.mul_left_cancel hpos hextra] at hleft
          omega
      obtain ⟨hfirst, hrest⟩ := List.append_inj heq hsplit
      rcases (replaceAll_eq_self _).1 hfirst with hself | hnone
      · exact .inl hself
      · refine (ih.1 (List.append_cancel_left hrest)).imp_right fun hsame => ?_
        rw [hnone, hsame]
    · intro hcond
      have hfirst : g.value = g.key ∨ occurrences g.key (simultaneous fs a) = 0 :=
        hcond.imp_right fun hsame => by omega
      have hrest : g.value = g.key ∨
          occurrences g.key (simultaneous fs b) = occurrences g.key b :=
        hcond.imp_right fun hsame => by omega
      rw [(replaceAll_eq_self _).2 hfirst, ih.2 hrest]

/-- The text after each field is the template with the values so far. -/
def NeverExpands (fs : List Field) (t : List Char) : Prop :=
  ∀ done rest, fs = done ++ rest → expand done t = simultaneous done t

/-- When its turn comes, each field has the places of the template and no other. -/
def PlacesKept (fs : List Field) (t : List Char) : Prop :=
  ∀ done f rest, fs = done ++ f :: rest →
    f.value = f.key ∨ occurrences f.key (simultaneous done t) = occurrences f.key t

theorem expand_append (fs : List Field) (f : Field) (t : List Char) :
    expand (fs ++ [f]) t = replaceAll f (expand fs t) := by
  unfold expand
  rw [List.foldl_append]
  rfl

theorem other_keys {done rest : List Field} {f : Field}
    (h : ((done ++ f :: rest).map Field.key).Nodup) : ∀ g ∈ done, g.key ≠ f.key := by
  intro g hg heq
  rw [List.map_append, List.map_cons, List.nodup_append] at h
  exact h.2.2 g.key (List.mem_map_of_mem hg) f.key List.mem_cons_self heq

theorem expand_iff {fs : List Field} (hkeys : (fs.map Field.key).Nodup) (t : List Char) :
    NeverExpands fs t ↔ PlacesKept fs t := by
  constructor
  · intro h done f rest hfs
    have hbefore := h done (f :: rest) hfs
    have hafter := h (done ++ [f]) rest (by rw [hfs, List.append_assoc]; rfl)
    rw [expand_append, hbefore] at hafter
    exact (replaceAll_simultaneous (other_keys (hfs ▸ hkeys)) t).1 hafter
  · intro h done
    induction done using List.reverseRecOn with
    | nil => exact fun _ _ => (fill_nil t).symm
    | append_singleton done f ih =>
      intro rest hfs
      rw [List.append_assoc, List.singleton_append] at hfs
      rw [expand_append, ih _ hfs]
      exact (replaceAll_simultaneous (other_keys (hfs ▸ hkeys)) t).2 (h done f rest hfs)

theorem NeverExpands.expand_eq {fs : List Field} {t : List Char} (h : NeverExpands fs t) :
    expand fs t = simultaneous fs t := h fs [] (List.append_nil fs).symm

end Lib.Templates
