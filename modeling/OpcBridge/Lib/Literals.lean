import Mathlib.Algebra.Order.Field.Rat
import Mathlib.Algebra.Field.Basic
import Mathlib.Data.List.TakeWhile

/-!
# Number literals

`strtod` reads the longest number at the front of a text: digits with a point and an exponent, in
base 10 or after `0x` in base 16. `Notation.scan` does this from left to right, and the literals of
a notation are described by themselves. A literal is read whole if the text after it does not go on
with it (`scan_literal`), and nothing but literals is read (`literal_of_scan`).
-/

namespace Lib

/-- The digits of a base, and the letters before an exponent. The exponent is written in base 10
and counts powers of `scale`. -/
structure Notation where
  base : Nat
  digit : Char → Option Nat
  scale : Nat
  mark : Char → Bool
  digit_point : digit '.' = none
  digit_mark : ∀ c, mark c = true → digit c = none ∧ c ≠ '.'

namespace Notation

variable (N : Notation)

def isDigit (c : Char) : Bool := (N.digit c).isSome

def digits (ds : List Char) : Nat := ds.foldl (fun n c => N.base * n + (N.digit c).getD 0) 0

def value (whole frac : List Char) (e : Int) : ℚ :=
  N.digits (whole ++ frac) / (N.base : ℚ) ^ frac.length * (N.scale : ℚ) ^ e

/-- The digits before the point, the digits after it and what follows. -/
def mantissa (s : List Char) : List Char × List Char × List Char :=
  let whole := s.takeWhile N.isDigit
  match s.dropWhile N.isDigit with
  | '.' :: t => (whole, t.takeWhile N.isDigit, t.dropWhile N.isDigit)
  | t => (whole, [], t)

def decimalDigits (ds : List Char) : Nat := ds.foldl (fun n c => 10 * n + (c.toNat - '0'.toNat)) 0

/-- A sign and digits; without digits there is no exponent. -/
def signedDigits (s : List Char) : Option (Int × List Char) :=
  match s with
  | '-' :: t =>
    if t.takeWhile Char.isDigit = [] then none
    else some (-(decimalDigits (t.takeWhile Char.isDigit) : Int), t.dropWhile Char.isDigit)
  | '+' :: t =>
    if t.takeWhile Char.isDigit = [] then none
    else some ((decimalDigits (t.takeWhile Char.isDigit) : Int), t.dropWhile Char.isDigit)
  | t =>
    if t.takeWhile Char.isDigit = [] then none
    else some ((decimalDigits (t.takeWhile Char.isDigit) : Int), t.dropWhile Char.isDigit)

def exponent : List Char → Int × List Char
  | [] => (0, [])
  | c :: t => if N.mark c then (signedDigits t).getD (0, c :: t) else (0, c :: t)

/-- The number at the front of a text, and the rest of the text. -/
def scan (s : List Char) : Option (ℚ × List Char) :=
  let m := N.mantissa s
  if m.1 ++ m.2.1 = [] then none
  else
    let e := N.exponent m.2.2
    some (N.value m.1 m.2.1 e.1, e.2)

/-! ## Literals -/

/-- A letter, a sign that may be missing, and digits. -/
inductive ExponentText : List Char → Int → Prop
  | none : ExponentText [] 0
  | unsigned {c : Char} {ds : List Char} : N.mark c = true → ds ≠ [] →
      (∀ d ∈ ds, d.isDigit = true) → ExponentText (c :: ds) (decimalDigits ds)
  | plus {c : Char} {ds : List Char} : N.mark c = true → ds ≠ [] →
      (∀ d ∈ ds, d.isDigit = true) → ExponentText (c :: '+' :: ds) (decimalDigits ds)
  | minus {c : Char} {ds : List Char} : N.mark c = true → ds ≠ [] →
      (∀ d ∈ ds, d.isDigit = true) → ExponentText (c :: '-' :: ds) (-(decimalDigits ds : Int))

inductive Literal : List Char → ℚ → Prop
  | whole {whole ex : List Char} {e : Int} : whole ≠ [] → (∀ c ∈ whole, N.isDigit c = true) →
      N.ExponentText ex e → Literal (whole ++ ex) (N.value whole [] e)
  | point {whole frac ex : List Char} {e : Int} : whole ++ frac ≠ [] →
      (∀ c ∈ whole, N.isDigit c = true) → (∀ c ∈ frac, N.isDigit c = true) →
      N.ExponentText ex e → Literal (whole ++ '.' :: (frac ++ ex)) (N.value whole frac e)

/-- The text does not go on with a literal. -/
def Ends (r : List Char) : Prop :=
  ∀ c ∈ r.head?, N.isDigit c = false ∧ c ≠ '.' ∧ N.mark c = false ∧ c.isDigit = false

theorem takeWhile_stop {p : Char → Bool} {ds r : List Char} (hds : ∀ c ∈ ds, p c = true)
    (hr : ∀ c ∈ r.head?, p c = false) :
    (ds ++ r).takeWhile p = ds ∧ (ds ++ r).dropWhile p = r := by
  rw [List.takeWhile_append_of_pos hds, List.dropWhile_append_of_pos hds]
  cases r with
  | nil => exact ⟨List.append_nil ds, rfl⟩
  | cons c r =>
    have hc : ¬ p c = true := by simp [hr c rfl]
    rw [List.takeWhile_cons_of_neg hc, List.dropWhile_cons_of_neg hc, List.append_nil]
    exact ⟨rfl, rfl⟩

variable {N} {s r ex : List Char} {q : ℚ} {e : Int}

theorem signedDigits_read {ds : List Char} (hne : ds ≠ []) (hds : ∀ d ∈ ds, d.isDigit = true)
    (hr : ∀ c ∈ r.head?, c.isDigit = false) :
    signedDigits (ds ++ r) = some ((decimalDigits ds : Int), r) ∧
      signedDigits ('+' :: (ds ++ r)) = some ((decimalDigits ds : Int), r) ∧
      signedDigits ('-' :: (ds ++ r)) = some (-(decimalDigits ds : Int), r) := by
  obtain ⟨htake, hdrop⟩ := takeWhile_stop hds hr
  refine ⟨?_, ?_, ?_⟩
  · unfold signedDigits
    split
    · rename_i t heq
      obtain ⟨d, ds, rfl⟩ := List.exists_cons_of_ne_nil hne
      obtain rfl := (List.cons.inj heq).1
      exact absurd (hds _ List.mem_cons_self) (by decide)
    · rename_i t heq
      obtain ⟨d, ds, rfl⟩ := List.exists_cons_of_ne_nil hne
      obtain rfl := (List.cons.inj heq).1
      exact absurd (hds _ List.mem_cons_self) (by decide)
    · rw [htake, hdrop, if_neg hne]
  · show (if _ then none else some _) = _
    rw [htake, hdrop, if_neg hne]
  · show (if _ then none else some _) = _
    rw [htake, hdrop, if_neg hne]

theorem exponent_read (h : N.ExponentText ex e) (hr : N.Ends r) : N.exponent (ex ++ r) = (e, r) := by
  have hdigit : ∀ c ∈ r.head?, c.isDigit = false := fun c hc => (hr c hc).2.2.2
  cases h with
  | none =>
    cases r with
    | nil => rfl
    | cons c r =>
      show N.exponent (c :: r) = _
      rw [exponent, (hr c rfl).2.2.1]
      rfl
  | unsigned hc hne hds =>
    rw [List.cons_append, exponent, if_pos hc, (signedDigits_read hne hds hdigit).1]
    rfl
  | plus hc hne hds =>
    rw [List.cons_append, List.cons_append, exponent, if_pos hc,
      (signedDigits_read hne hds hdigit).2.1]
    rfl
  | minus hc hne hds =>
    rw [List.cons_append, List.cons_append, exponent, if_pos hc,
      (signedDigits_read hne hds hdigit).2.2]
    rfl

/-- An exponent and what follows do not go on with the digits before it. -/
theorem exponentText_head (h : N.ExponentText ex e) (hr : N.Ends r) :
    ∀ c ∈ (ex ++ r).head?, N.isDigit c = false ∧ c ≠ '.' := by
  have hmark : ∀ {c : Char}, N.mark c = true → N.isDigit c = false ∧ c ≠ '.' := by
    intro c hc
    obtain ⟨hdigit, hpoint⟩ := N.digit_mark c hc
    exact ⟨by rw [isDigit, hdigit]; rfl, hpoint⟩
  intro c hc
  cases h with
  | none => exact ⟨(hr c hc).1, (hr c hc).2.1⟩
  | unsigned hm =>
    obtain rfl := Option.some.inj hc
    exact hmark hm
  | plus hm =>
    obtain rfl := Option.some.inj hc
    exact hmark hm
  | minus hm =>
    obtain rfl := Option.some.inj hc
    exact hmark hm

theorem isDigit_point : N.isDigit '.' = false := by
  rw [isDigit, N.digit_point]
  rfl

/-- **A literal is read whole** if the text after it does not go on with it. -/
theorem scan_literal {u : List Char} (h : N.Literal u q) (hr : N.Ends r) :
    N.scan (u ++ r) = some (q, r) := by
  cases h with
  | @whole whole ex e hne hwhole hex =>
    have hhead := exponentText_head hex hr
    obtain ⟨htake, hdrop⟩ := takeWhile_stop hwhole fun c hc => (hhead c hc).1
    have hmantissa : N.mantissa ((whole ++ ex) ++ r) = (whole, [], ex ++ r) := by
      rw [List.append_assoc]
      unfold mantissa
      dsimp only
      rw [htake, hdrop]
      split
      · rename_i t heq
        rw [heq] at hhead
        exact absurd rfl (hhead '.' rfl).2
      · rfl
    unfold scan
    dsimp only
    rw [hmantissa, if_neg (by simpa using hne), exponent_read hex hr]
  | @point whole frac ex e hne hwhole hfrac hex =>
    have hhead := exponentText_head hex hr
    obtain ⟨htake, hdrop⟩ := takeWhile_stop (r := '.' :: (frac ++ (ex ++ r))) hwhole fun c hc => by
      obtain rfl := Option.some.inj hc
      exact isDigit_point
    obtain ⟨htake', hdrop'⟩ := takeWhile_stop hfrac fun c hc => (hhead c hc).1
    have hmantissa : N.mantissa ((whole ++ '.' :: (frac ++ ex)) ++ r) = (whole, frac, ex ++ r) := by
      rw [List.append_assoc, List.cons_append, List.append_assoc]
      unfold mantissa
      dsimp only
      rw [htake, hdrop]
      show (_, _, _) = _
      rw [htake', hdrop']
    unfold scan
    dsimp only
    rw [hmantissa, if_neg hne, exponent_read hex hr]

/-- What is read is a number with a sign. -/
theorem signedDigits_inv {t : List Char} (h : signedDigits t = some (e, r)) :
    ∃ ds, ds ≠ [] ∧ (∀ d ∈ ds, d.isDigit = true) ∧
      (t = ds ++ r ∧ e = decimalDigits ds ∨ t = '+' :: (ds ++ r) ∧ e = decimalDigits ds ∨
        t = '-' :: (ds ++ r) ∧ e = -(decimalDigits ds : Int)) := by
  have hall : ∀ {t : List Char}, ∀ d ∈ t.takeWhile Char.isDigit, d.isDigit = true := fun d hd =>
    List.all_eq_true.1 List.all_takeWhile d hd
  unfold signedDigits at h
  split at h
  all_goals
    split at h
    · cases h
    rename_i hne
    obtain ⟨rfl, rfl⟩ := Prod.mk.inj (Option.some.inj h)
    refine ⟨_, hne, hall, ?_⟩
    rw [List.takeWhile_append_dropWhile]
  · exact .inr (.inr ⟨rfl, rfl⟩)
  · exact .inr (.inl ⟨rfl, rfl⟩)
  · exact .inl ⟨rfl, rfl⟩

theorem exponent_inv (h : N.exponent s = (e, r)) : ∃ ex, s = ex ++ r ∧ N.ExponentText ex e := by
  have hnone : s = r → e = 0 → ∃ ex, s = ex ++ r ∧ N.ExponentText ex e := by
    rintro rfl rfl
    exact ⟨[], rfl, .none⟩
  unfold exponent at h
  split at h
  · obtain ⟨rfl, rfl⟩ := Prod.mk.inj h
    exact hnone rfl rfl
  · rename_i c t
    split at h
    · rename_i hc
      cases hd : signedDigits t with
      | none =>
        rw [hd] at h
        obtain ⟨rfl, rfl⟩ := Prod.mk.inj h
        exact hnone rfl rfl
      | some x =>
        rw [hd] at h
        obtain rfl : x = (e, r) := h
        obtain ⟨ds, hne, hds, ht⟩ := signedDigits_inv hd
        rcases ht with ⟨rfl, rfl⟩ | ⟨rfl, rfl⟩ | ⟨rfl, rfl⟩
        · exact ⟨c :: ds, rfl, .unsigned hc hne hds⟩
        · exact ⟨c :: '+' :: ds, rfl, .plus hc hne hds⟩
        · exact ⟨c :: '-' :: ds, rfl, .minus hc hne hds⟩
    · obtain ⟨rfl, rfl⟩ := Prod.mk.inj h
      exact hnone rfl rfl

theorem mantissa_inv (N : Notation) (s : List Char) :
    (∀ c ∈ (N.mantissa s).1, N.isDigit c = true) ∧ (∀ c ∈ (N.mantissa s).2.1, N.isDigit c = true) ∧
      (s = (N.mantissa s).1 ++ '.' :: ((N.mantissa s).2.1 ++ (N.mantissa s).2.2) ∨
        (N.mantissa s).2.1 = [] ∧ s = (N.mantissa s).1 ++ (N.mantissa s).2.2) := by
  have hall : ∀ {t : List Char}, ∀ d ∈ t.takeWhile N.isDigit, N.isDigit d = true := fun d hd =>
    List.all_eq_true.1 List.all_takeWhile d hd
  have hsplit := List.takeWhile_append_dropWhile (p := N.isDigit) (l := s)
  unfold mantissa
  dsimp only
  split
  · rename_i t ht
    refine ⟨hall, hall, .inl ?_⟩
    rw [List.takeWhile_append_dropWhile, ← ht, hsplit]
  · exact ⟨hall, List.forall_mem_nil _, .inr ⟨rfl, hsplit.symm⟩⟩

/-- **Nothing but literals is read.** -/
theorem literal_of_scan (h : N.scan s = some (q, r)) : ∃ u, s = u ++ r ∧ N.Literal u q := by
  obtain ⟨hwhole, hfrac, htext⟩ := mantissa_inv N s
  unfold scan at h
  dsimp only at h
  generalize N.mantissa s = m at h hwhole hfrac htext
  obtain ⟨whole, frac, rest⟩ := m
  dsimp only at h hwhole hfrac htext
  split at h
  · cases h
  rename_i hne
  obtain ⟨hq, hr⟩ := Prod.mk.inj (Option.some.inj h)
  obtain ⟨ex, hex, hexp⟩ := exponent_inv (s := rest) (Prod.ext rfl hr : N.exponent rest = (_, r))
  rcases htext with hs | ⟨rfl, hs⟩
  · refine ⟨whole ++ '.' :: (frac ++ ex), ?_, ?_⟩
    · rw [hs, hex]
      simp
    · rw [← hq]
      exact .point hne hwhole hfrac hexp
  · refine ⟨whole ++ ex, ?_, ?_⟩
    · rw [hs, hex, List.append_assoc]
    · rw [← hq]
      exact .whole (by simpa using hne) hwhole hexp

theorem ExponentText.mem (h : N.ExponentText ex e) :
    ∀ c ∈ ex, N.mark c = true ∨ c.isDigit = true ∨ c = '+' ∨ c = '-' := by
  cases h with
  | none => exact List.forall_mem_nil _
  | unsigned hm hne hds => exact List.forall_mem_cons.2 ⟨.inl hm, fun c hc => .inr (.inl (hds c hc))⟩
  | plus hm hne hds =>
    exact List.forall_mem_cons.2 ⟨.inl hm, List.forall_mem_cons.2
      ⟨.inr (.inr (.inl rfl)), fun c hc => .inr (.inl (hds c hc))⟩⟩
  | minus hm hne hds =>
    exact List.forall_mem_cons.2 ⟨.inl hm, List.forall_mem_cons.2
      ⟨.inr (.inr (.inr rfl)), fun c hc => .inr (.inl (hds c hc))⟩⟩

/-- The characters of a literal. -/
theorem Literal.mem {u : List Char} (h : N.Literal u q) :
    ∀ c ∈ u, N.isDigit c = true ∨ c = '.' ∨ N.mark c = true ∨ c.isDigit = true ∨ c = '+' ∨
      c = '-' := by
  intro c hc
  cases h with
  | whole hne hwhole hex =>
    rcases List.mem_append.1 hc with hc | hc
    · exact .inl (hwhole c hc)
    · exact .inr (.inr (hex.mem c hc))
  | point hne hwhole hfrac hex =>
    rcases List.mem_append.1 hc with hc | hc
    · exact .inl (hwhole c hc)
    rcases List.mem_cons.1 hc with rfl | hc
    · exact .inr (.inl rfl)
    rcases List.mem_append.1 hc with hc | hc
    · exact .inl (hfrac c hc)
    · exact .inr (.inr (hex.mem c hc))

theorem Literal.head {u : List Char} (h : N.Literal u q) :
    ∃ c t, u = c :: t ∧ (N.isDigit c = true ∨ c = '.') := by
  cases h with
  | @whole whole ex e hne hwhole hex =>
    obtain ⟨c, t, rfl⟩ := List.exists_cons_of_ne_nil hne
    exact ⟨c, t ++ ex, rfl, .inl (hwhole c List.mem_cons_self)⟩
  | @point whole frac ex e hne hwhole hfrac hex =>
    cases whole with
    | nil => exact ⟨'.', frac ++ ex, rfl, .inr rfl⟩
    | cons c t => exact ⟨c, t ++ '.' :: (frac ++ ex), rfl, .inl (hwhole c List.mem_cons_self)⟩

end Notation

/-! ## `strtod` -/

def decimalNotation : Notation where
  base := 10
  digit c := if c.isDigit then some (c.toNat - '0'.toNat) else none
  scale := 10
  mark c := c == 'e' || c == 'E'
  digit_point := rfl
  digit_mark c hc := by
    simp only [Bool.or_eq_true, beq_iff_eq] at hc
    rcases hc with rfl | rfl <;> exact ⟨rfl, by decide⟩

def hexNotation : Notation where
  base := 16
  digit c :=
    if c.isDigit then some (c.toNat - '0'.toNat)
    else if c.isLower ∧ c ≤ 'f' then some (c.toNat - 'a'.toNat + 10)
    else if c.isUpper ∧ c ≤ 'F' then some (c.toNat - 'A'.toNat + 10)
    else none
  scale := 2
  mark c := c == 'p' || c == 'P'
  digit_point := rfl
  digit_mark c hc := by
    simp only [Bool.or_eq_true, beq_iff_eq] at hc
    rcases hc with rfl | rfl <;> exact ⟨rfl, by decide⟩

/-- A number without a sign at the front of a text. -/
def scanNumber (s : List Char) : Option (ℚ × List Char) :=
  match s with
  | '0' :: x :: t =>
    if x = 'x' ∨ x = 'X' then (hexNotation.scan t).or (decimalNotation.scan s)
    else decimalNotation.scan s
  | s => decimalNotation.scan s

def DecimalLiteral (u : List Char) (q : ℚ) : Prop := decimalNotation.Literal u q

/-- Also base 16. -/
def NumberLiteral (u : List Char) (q : ℚ) : Prop :=
  DecimalLiteral u q ∨
    ∃ x t, u = '0' :: x :: t ∧ (x = 'x' ∨ x = 'X') ∧ hexNotation.Literal t q

/-- No letter, digit or point follows. -/
def NumberEnds (r : List Char) : Prop := ∀ c ∈ r.head?, c.isAlphanum = false ∧ c ≠ '.'

theorem not_mem_of_not_alphanum {c : Char} {l : List Char} (hl : ∀ c ∈ l, c.isAlphanum = true)
    (h : c.isAlphanum = false) : c ∉ l := by
  intro hc
  rw [hl c hc] at h
  cases h

theorem NumberEnds.decimal {r : List Char} (h : NumberEnds r) : decimalNotation.Ends r := by
  intro c hc
  obtain ⟨halnum, hpoint⟩ := h c hc
  have hdigit : c.isDigit = false := by
    rw [Char.isAlphanum, Bool.or_eq_false_iff] at halnum
    exact halnum.2
  refine ⟨?_, hpoint, ?_, hdigit⟩
  · simp [Notation.isDigit, decimalNotation, hdigit]
  · have hmark : c ∉ ['e', 'E'] := not_mem_of_not_alphanum (by decide) halnum
    simpa [decimalNotation] using hmark

theorem NumberEnds.hex {r : List Char} (h : NumberEnds r) : hexNotation.Ends r := by
  intro c hc
  obtain ⟨halnum, hpoint⟩ := h c hc
  have hparts := halnum
  have halpha : c.isAlpha = (c.isUpper || c.isLower) := rfl
  rw [Char.isAlphanum, halpha, Bool.or_eq_false_iff, Bool.or_eq_false_iff] at hparts
  obtain ⟨⟨hupper, hlower⟩, hdigit⟩ := hparts
  refine ⟨?_, hpoint, ?_, hdigit⟩
  · simp [Notation.isDigit, hexNotation, hdigit, hlower, hupper]
  · have hmark : c ∉ ['p', 'P'] := not_mem_of_not_alphanum (by decide) halnum
    simpa [hexNotation] using hmark

/-- **`strtod` reads a literal whole** where no letter, digit or point follows. -/
theorem scanNumber_literal {u r : List Char} {q : ℚ} (h : NumberLiteral u q) (hr : NumberEnds r) :
    scanNumber (u ++ r) = some (q, r) := by
  rcases h with h | ⟨x, t, rfl, hx, h⟩
  · have hscan := Notation.scan_literal h hr.decimal
    unfold scanNumber
    split
    · rename_i x t heq
      rw [if_neg, hscan]
      -- neither the literal nor what follows has an `x` there
      intro hx
      obtain ⟨c, v, rfl, -⟩ := Notation.Literal.head h
      obtain ⟨-, heq⟩ := List.cons.inj heq
      cases v with
      | nil =>
        have halnum := (hr x (by rw [show r = x :: t from heq]; rfl)).1
        rcases hx with rfl | rfl <;> cases halnum
      | cons d v =>
        obtain ⟨rfl, -⟩ := List.cons.inj heq
        have hmem := Notation.Literal.mem h d (by simp)
        rcases hx with rfl | rfl <;> exact absurd hmem (by decide)
    · exact hscan
  · show (if x = 'x' ∨ x = 'X' then (hexNotation.scan (t ++ r)).or _ else _) = _
    rw [if_pos hx, Notation.scan_literal h hr.hex]
    rfl

/-- **`strtod` reads nothing but literals.** -/
theorem literal_of_scanNumber {s r : List Char} {q : ℚ} (h : scanNumber s = some (q, r)) :
    ∃ u, s = u ++ r ∧ NumberLiteral u q := by
  have hdecimal : decimalNotation.scan s = some (q, r) → ∃ u, s = u ++ r ∧ NumberLiteral u q := by
    intro hscan
    obtain ⟨u, hs, hu⟩ := Notation.literal_of_scan hscan
    exact ⟨u, hs, .inl hu⟩
  unfold scanNumber at h
  split at h
  · rename_i x t
    split at h
    · rename_i hx
      cases hhex : hexNotation.scan t with
      | none =>
        rw [hhex] at h
        exact hdecimal h
      | some y =>
        rw [hhex] at h
        obtain rfl : y = (q, r) := Option.some.inj h
        obtain ⟨u, ht, hu⟩ := Notation.literal_of_scan hhex
        exact ⟨'0' :: x :: u, by rw [ht]; rfl, .inr ⟨x, u, rfl, hx, hu⟩⟩
    · exact hdecimal h
  · exact hdecimal h

theorem NumberLiteral.head {u : List Char} {q : ℚ} (h : NumberLiteral u q) :
    ∃ c t, u = c :: t ∧ (c.isDigit = true ∨ c = '.') := by
  rcases h with h | ⟨x, t, rfl, -, -⟩
  · obtain ⟨c, t, rfl, hc⟩ := Notation.Literal.head h
    refine ⟨c, t, rfl, hc.imp_left fun hdigit => ?_⟩
    by_contra hn
    simp [Notation.isDigit, decimalNotation, hn] at hdigit
  · exact ⟨'0', x :: t, rfl, .inl rfl⟩

end Lib
