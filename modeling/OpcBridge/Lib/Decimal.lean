import OpcBridge.Lib.Digits
import Mathlib.Tactic.FieldSimp
import Mathlib.Tactic.Ring

/-!
# Decimal numerals

`readDecimal` is the number that a decimal numeral denotes: a sign, digits with a point, and an
exponent. `printDecimal p q` is the numeral that C prints for `q` with `%g` and a precision of `p`,
the default format of a C++ stream: `p` significant digits without the zeros at the end, with an
exponent if the number is small or has more digits. Reading it back gives the number rounded to `p`
digits (`readDecimal_print`).
-/

namespace Lib

/-! ## Reading -/

def digitsNat (ds : List Char) : Nat := Nat.ofDigitChars 10 ds 0

/-- Digits after an optional sign, up to the end. -/
def readSigned (cs : List Char) : Option Int :=
  let neg := cs.head? == some '-'
  let ds := if neg || cs.head? == some '+' then cs.tail else cs
  if ds = [] ∨ ¬ ds.all Char.isDigit then none
  else some (if neg then -(digitsNat ds : Int) else digitsNat ds)

def readExponent : List Char → Option Int
  | [] => some 0
  | c :: cs => if c = 'e' ∨ c = 'E' then readSigned cs else none

def decimalValue (neg : Bool) (whole frac : List Char) (e : Int) : ℚ :=
  (if neg then -1 else 1) * digitsNat (whole ++ frac) * (10 : ℚ) ^ (e - frac.length)

/-- The digits after a point, and what follows. -/
def splitFraction : List Char → List Char × List Char
  | '.' :: cs => (cs.takeWhile Char.isDigit, cs.dropWhile Char.isDigit)
  | cs => ([], cs)

/-- The number a decimal numeral denotes, `none` for another text. -/
def readDecimal (cs : List Char) : Option ℚ :=
  let neg := cs.head? == some '-'
  let body := if neg || cs.head? == some '+' then cs.tail else cs
  let whole := body.takeWhile Char.isDigit
  let x := splitFraction (body.dropWhile Char.isDigit)
  if whole ++ x.1 = [] then none
  else (readExponent x.2).map (decimalValue neg whole x.1)

/-! ## Printing -/

/-- The digits without the zeros at the end. -/
def dropZeros (ds : List Char) : List Char := (ds.reverse.dropWhile (· == '0')).reverse

def pointText (frac : List Char) : List Char := if frac = [] then [] else '.' :: frac

def signText (neg : Bool) : List Char := if neg then ['-'] else []

/-- At least two digits. -/
def exponentText (x : Int) : List Char :=
  'e' :: (if x < 0 then '-' else '+') ::
    (if x.natAbs < 10 then '0' :: Nat.toDigits 10 x.natAbs else Nat.toDigits 10 x.natAbs)

/-- The digits `ds`, the first of them worth `10 ^ x`. -/
def digitsText (p : Nat) (neg : Bool) (ds : List Char) (x : Int) : List Char :=
  if -4 ≤ x ∧ x < p then
    if 0 ≤ x then
      signText neg ++ ds.take (x.toNat + 1) ++ pointText (dropZeros (ds.drop (x.toNat + 1)))
    else signText neg ++ ['0'] ++ pointText (List.replicate (-x - 1).toNat '0' ++ dropZeros ds)
  else signText neg ++ ds.take 1 ++ pointText (dropZeros (ds.drop 1)) ++ exponentText x

/-- `%g` with a precision. -/
def printDecimal (p : Nat) (q : ℚ) : List Char :=
  if q = 0 then ['0']
  else
    let d := (roundHalfEven (q / lastDigit 10 p q)).natAbs
    let x := Int.log 10 |q|
    -- the digits can round up to the next power of ten
    if d = 10 ^ p then digitsText p (decide (q < 0)) (Nat.toDigits 10 (10 ^ (p - 1))) (x + 1)
    else digitsText p (decide (q < 0)) (Nat.toDigits 10 d) x

example : printDecimal 6 (-1234567 / 1000) = "-1234.57".toList := by decide +kernel

/-! ## Digits -/

theorem digitsNat_append (a b : List Char) :
    digitsNat (a ++ b) = 10 ^ b.length * digitsNat a + digitsNat b := by
  unfold digitsNat
  rw [Nat.ofDigitChars_append, Nat.ofDigitChars_eq_ofDigitChars_zero]

theorem digitsNat_zeros (n : Nat) : digitsNat (List.replicate n '0') = 0 := by
  unfold digitsNat
  rw [Nat.ofDigitChars_replicate_zero, Nat.mul_zero]

theorem digitsNat_toDigits (n : Nat) : digitsNat (Nat.toDigits 10 n) = n :=
  Nat.ofDigitChars_ten_toDigits

theorem toDigits_isDigit (n : Nat) : ∀ c ∈ Nat.toDigits 10 n, c.isDigit = true :=
  fun _ hc => Nat.isDigit_of_mem_toDigits (by omega) (by omega) hc

/-- The dropped zeros. -/
theorem exists_dropZeros (ds : List Char) : ∃ n, ds = dropZeros ds ++ List.replicate n '0' := by
  have hsplit := @List.takeWhile_append_dropWhile _ (· == '0') ds.reverse
  have hzeros := List.eq_replicate_of_mem fun c (hc : c ∈ ds.reverse.takeWhile (· == '0')) =>
    beq_iff_eq.1 (List.all_eq_true.1 List.all_takeWhile c hc)
  refine ⟨(ds.reverse.takeWhile (· == '0')).length, ?_⟩
  have hreverse := congrArg List.reverse hsplit
  rw [hzeros, List.reverse_append, List.reverse_replicate, List.reverse_reverse] at hreverse
  exact hreverse.symm

theorem dropZeros_isDigit {ds : List Char} (h : ∀ c ∈ ds, c.isDigit = true) :
    ∀ c ∈ dropZeros ds, c.isDigit = true := by
  intro c hc
  obtain ⟨n, hn⟩ := exists_dropZeros ds
  refine h c ?_
  rw [hn]
  exact List.mem_append_left _ hc

/-- Zeros at the end of a fraction say nothing. -/
theorem decimalValue_zeros (neg : Bool) (whole frac : List Char) (n : Nat) (e : Int) :
    decimalValue neg whole (frac ++ List.replicate n '0') e = decimalValue neg whole frac e := by
  have hdigits : digitsNat (whole ++ (frac ++ List.replicate n '0')) =
      10 ^ n * digitsNat (whole ++ frac) := by
    rw [← List.append_assoc, digitsNat_append, digitsNat_zeros, List.length_replicate, Nat.add_zero]
  have hlength : ((frac ++ List.replicate n '0').length : Int) = frac.length + n := by
    rw [List.length_append, List.length_replicate]
    push_cast
    rfl
  unfold decimalValue
  rw [hdigits, hlength, sub_add_eq_sub_sub, zpow_sub₀ (by norm_num) _ (n : Int), zpow_natCast]
  push_cast
  field_simp

theorem decimalValue_dropZeros (neg : Bool) (whole frac ds : List Char) (e : Int) :
    decimalValue neg whole (frac ++ dropZeros ds) e = decimalValue neg whole (frac ++ ds) e := by
  obtain ⟨n, hn⟩ := exists_dropZeros ds
  conv_rhs => rw [hn, ← List.append_assoc]
  rw [decimalValue_zeros]

/-! ## Reading a numeral -/

theorem takeWhile_digits {ds rest : List Char} (hds : ∀ c ∈ ds, c.isDigit = true)
    (hrest : ∀ c ∈ rest.head?, c.isDigit = false) :
    (ds ++ rest).takeWhile Char.isDigit = ds ∧ (ds ++ rest).dropWhile Char.isDigit = rest := by
  induction ds with
  | nil =>
    cases rest with
    | nil => exact ⟨rfl, rfl⟩
    | cons c rest =>
      have hc := hrest c rfl
      simp [hc]
  | cons d ds ih =>
    rw [List.forall_mem_cons] at hds
    obtain ⟨htake, hdrop⟩ := ih hds.2
    rw [List.cons_append, List.takeWhile_cons_of_pos hds.1, List.dropWhile_cons_of_pos hds.1, htake,
      hdrop]
    exact ⟨rfl, rfl⟩

/-- Nothing after the digits. -/
theorem noRest : ∀ c ∈ ([] : List Char).head?, c.isDigit = false ∧ c ≠ '.' := fun c hc => by cases hc

theorem zero_isDigit : ∀ c ∈ ['0'], c.isDigit = true := by decide

/-- A numeral of digits, a point if there is a fraction, and an exponent. -/
theorem readDecimal_text (neg : Bool) {whole frac rest : List Char} {e : Int} (hne : whole ≠ [])
    (hwhole : ∀ c ∈ whole, c.isDigit = true) (hfrac : ∀ c ∈ frac, c.isDigit = true)
    (hrest : ∀ c ∈ rest.head?, c.isDigit = false ∧ c ≠ '.') (he : readExponent rest = some e) :
    readDecimal (signText neg ++ whole ++ pointText frac ++ rest) =
      some (decimalValue neg whole frac e) := by
  obtain ⟨d, ds, rfl⟩ := List.exists_cons_of_ne_nil hne
  have hd : d.isDigit = true := hwhole d List.mem_cons_self
  have hsign : d ≠ '-' ∧ d ≠ '+' := by
    constructor
    · rintro rfl
      cases hd
    · rintro rfl
      cases hd
  -- what follows the digits before the point
  have hafter : ∀ c ∈ (pointText frac ++ rest).head?, c.isDigit = false := by
    intro c hc
    unfold pointText at hc
    split at hc
    · exact (hrest c hc).1
    · obtain rfl : '.' = c := Option.some.inj hc
      rfl
  have hsplit : splitFraction (pointText frac ++ rest) = (frac, rest) := by
    unfold pointText
    split
    · rename_i hnil
      rw [hnil, List.nil_append]
      unfold splitFraction
      split
      · exact absurd rfl (hrest '.' rfl).2
      · rfl
    · have hdigits := takeWhile_digits hfrac fun c hc => (hrest c hc).1
      show (_, _) = _
      rw [List.append_eq, hdigits.1, hdigits.2]
  obtain ⟨htake, hdrop⟩ := takeWhile_digits hwhole hafter
  have hbody : ∀ body : List Char, body = (d :: ds) ++ (pointText frac ++ rest) →
      (if body.takeWhile Char.isDigit ++ (splitFraction (body.dropWhile Char.isDigit)).1 = [] then none
        else (readExponent (splitFraction (body.dropWhile Char.isDigit)).2).map
          (decimalValue neg (body.takeWhile Char.isDigit)
            (splitFraction (body.dropWhile Char.isDigit)).1)) =
        some (decimalValue neg (d :: ds) frac e) := by
    rintro body rfl
    rw [htake, hdrop, hsplit, he, if_neg (by simp)]
    rfl
  unfold readDecimal
  cases neg with
  | true => exact hbody _ (by simp [signText])
  | false =>
    have hminus : (some d == some '-') = false := by simpa using hsign.1
    have hplus : (some d == some '+') = false := by simpa using hsign.2
    refine Eq.trans ?_ (hbody _ rfl)
    simp [signText, hminus, hplus]

/-- A numeral without a point. -/
theorem readDecimal_toDigits (neg : Bool) (n : Nat) :
    readDecimal (signText neg ++ Nat.toDigits 10 n) = some ((if neg then -1 else 1) * (n : ℚ)) := by
  have hread := readDecimal_text neg (e := 0) Nat.toDigits_ne_nil (toDigits_isDigit n)
    (List.forall_mem_nil _) noRest rfl
  have hvalue : decimalValue neg (Nat.toDigits 10 n) [] 0 = (if neg then -1 else 1) * n := by
    unfold decimalValue
    rw [List.append_nil, digitsNat_toDigits]
    simp
  rw [pointText, if_pos rfl, List.append_nil, List.append_nil] at hread
  rw [hread, hvalue]

theorem readSigned_sign (neg : Bool) {ds : List Char} (hne : ds ≠ [])
    (hds : ∀ c ∈ ds, c.isDigit = true) :
    readSigned ((if neg then '-' else '+') :: ds) =
      some (if neg then -(digitsNat ds : Int) else digitsNat ds) := by
  have hall : ds.all Char.isDigit = true := List.all_eq_true.2 hds
  cases neg with
  | true => simp [readSigned, hne, hall]
  | false => simp [readSigned, hne, hall]

theorem readExponent_exponentText (x : Int) : readExponent (exponentText x) = some x := by
  have hread : ∀ ds : List Char, ds ≠ [] → (∀ c ∈ ds, c.isDigit = true) → digitsNat ds = x.natAbs →
      readSigned ((if x < 0 then '-' else '+') :: ds) = some x := by
    intro ds hne hds hvalue
    have hsigned := readSigned_sign (decide (x < 0)) hne hds
    simp only [decide_eq_true_eq, hvalue] at hsigned
    rw [hsigned]
    congr 1
    split <;> omega
  have hdigits := toDigits_isDigit x.natAbs
  show readSigned _ = some x
  by_cases hsmall : x.natAbs < 10
  · rw [if_pos hsmall]
    refine hread _ (List.cons_ne_nil _ _) (List.forall_mem_cons.2 ⟨rfl, hdigits⟩) ?_
    rw [← List.singleton_append, digitsNat_append, digitsNat_toDigits]
    exact Nat.zero_add _
  · rw [if_neg hsmall]
    exact hread _ Nat.toDigits_ne_nil hdigits (digitsNat_toDigits _)

/-! ## Reading what was printed -/

theorem digitsText_read {p : Nat} (hp : 0 < p) {ds : List Char} (hlength : ds.length = p)
    (hds : ∀ c ∈ ds, c.isDigit = true) (neg : Bool) (x : Int) :
    readDecimal (digitsText p neg ds x) =
      some ((if neg then -1 else 1) * digitsNat ds * (10 : ℚ) ^ (x - (p - 1))) := by
  have htake : ∀ n, ∀ c ∈ ds.take n, c.isDigit = true := fun n c hc => hds c (List.mem_of_mem_take hc)
  have hdrop : ∀ n, ∀ c ∈ dropZeros (ds.drop n), c.isDigit = true := fun n =>
    dropZeros_isDigit fun c hc => hds c (List.mem_of_mem_drop hc)
  have hne : ∀ n, ds.take (n + 1) ≠ [] := fun n h => by
    have hlen := congrArg List.length h
    rw [List.length_take, List.length_nil] at hlen
    omega
  have hsplit : ∀ n e, decimalValue neg (ds.take n) (dropZeros (ds.drop n)) e =
      (if neg then -1 else 1) * digitsNat ds * (10 : ℚ) ^ (e - (p - n : Nat)) := fun n e => by
    rw [← List.nil_append (dropZeros _), decimalValue_dropZeros, List.nil_append]
    unfold decimalValue
    rw [List.take_append_drop, List.length_drop, hlength]
  unfold digitsText
  split
  · rename_i hfixed
    split
    · rename_i hx
      have hread := readDecimal_text neg (e := 0) (hne x.toNat) (htake _)
        (hdrop (x.toNat + 1)) noRest rfl
      have hexponent : (0 : Int) - (p - (x.toNat + 1) : Nat) = x - (p - 1) := by
        have := hfixed.2
        omega
      rw [List.append_nil] at hread
      rw [hread, hsplit, hexponent]
    · rename_i hx
      have hzeros : ∀ c ∈ List.replicate (-x - 1).toNat '0' ++ dropZeros ds, c.isDigit = true := by
        intro c hc
        rcases List.mem_append.1 hc with hzero | hdigit
        · rw [List.eq_of_mem_replicate hzero]
          rfl
        · exact dropZeros_isDigit hds c hdigit
      have hread := readDecimal_text neg (e := 0) (List.cons_ne_nil '0' []) zero_isDigit hzeros
        noRest rfl
      have hdigits : digitsNat (['0'] ++ (List.replicate (-x - 1).toNat '0' ++ ds)) =
          digitsNat ds := by
        have hzero : digitsNat ['0'] = 0 := rfl
        rw [digitsNat_append, digitsNat_append, digitsNat_zeros, hzero]
        omega
      have hexponent : (0 : Int) - (List.replicate (-x - 1).toNat '0' ++ ds).length =
          x - (p - 1) := by
        rw [List.length_append, List.length_replicate, hlength]
        omega
      rw [List.append_nil] at hread
      rw [hread, decimalValue_dropZeros, decimalValue, hdigits, hexponent]
  · have hread := readDecimal_text neg (hne 0) (htake _) (hdrop 1)
      (fun c hc => by
        obtain rfl : 'e' = c := Option.some.inj hc
        exact ⟨rfl, by decide⟩) (readExponent_exponentText x)
    have hexponent : x - (p - (0 + 1) : Nat) = x - (p - 1) := by
      omega
    rw [hread, hsplit, hexponent]

theorem length_toDigits_eq {p n : Nat} (hp : 1 < p) (hlow : 10 ^ (p - 1) ≤ n) (hhigh : n < 10 ^ p) :
    (Nat.toDigits 10 n).length = p := by
  have hle := (Nat.length_toDigits_le_iff (b := 10) (by omega) (by omega)).2 hhigh
  have hgt : ¬ (Nat.toDigits 10 n).length ≤ p - 1 := fun h => by
    have hlt := (Nat.length_toDigits_le_iff (b := 10) (by omega) (by omega)).1 h
    omega
  omega

/-- The digits that are printed. -/
theorem roundHalfEven_lastDigit {p : Nat} (hp : 0 < p) {q : ℚ} (hq : q ≠ 0) {d : Nat}
    (hd : d = (roundHalfEven (q / lastDigit 10 p q)).natAbs) :
    10 ^ (p - 1) ≤ d ∧ d ≤ 10 ^ p ∧
      roundHalfEven (q / lastDigit 10 p q) = if q < 0 then -(d : Int) else d := by
  obtain ⟨hlow, hhigh⟩ := abs_div_lastDigit (b := 10) (by omega) hp hq
  have hpos : 0 < 10 ^ (p - 1) := Nat.pow_pos (by omega)
  by_cases hneg : q < 0
  · rw [abs_of_neg hneg, neg_div] at hlow hhigh
    have hmax := roundHalfEven_le (a := -((10 ^ (p - 1) : Nat) : Int))
      (x := q / lastDigit 10 p q) (by push_cast at hlow ⊢; linarith)
    have hmin := le_roundHalfEven (a := -((10 ^ p : Nat) : Int))
      (x := q / lastDigit 10 p q) (by push_cast at hhigh ⊢; linarith)
    rw [if_pos hneg]
    omega
  · rw [abs_of_nonneg (not_lt.1 hneg)] at hlow hhigh
    have hmin := le_roundHalfEven (a := ((10 ^ (p - 1) : Nat) : Int)) (by exact_mod_cast hlow)
    have hmax := roundHalfEven_le (a := ((10 ^ p : Nat) : Int)) (by exact_mod_cast hhigh.le)
    rw [if_neg hneg]
    omega

/-- The characters of a printed numeral. -/
def NumeralChar (c : Char) : Prop := c.isDigit = true ∨ c ∈ ['-', '+', '.', 'e']

instance (c : Char) : Decidable (NumeralChar c) := inferInstanceAs (Decidable (_ ∨ _))

theorem mem_digitsText {p : Nat} {neg : Bool} {ds : List Char} {x : Int}
    (hds : ∀ c ∈ ds, c.isDigit = true) : ∀ c ∈ digitsText p neg ds x, NumeralChar c := by
  have hsign : ∀ c ∈ signText neg, NumeralChar c := by
    intro c hc
    cases neg with
    | true => exact .inr (by simp [signText] at hc; simp [hc])
    | false => cases hc
  have hpoint : ∀ frac : List Char, (∀ c ∈ frac, c.isDigit = true) →
      ∀ c ∈ pointText frac, NumeralChar c := by
    intro frac hfrac c hc
    unfold pointText at hc
    split at hc
    · cases hc
    · rcases List.mem_cons.1 hc with rfl | hmem
      · exact .inr (by decide)
      · exact .inl (hfrac c hmem)
  have htake : ∀ n, ∀ c ∈ ds.take n, NumeralChar c := fun n c hc =>
    .inl (hds c (List.mem_of_mem_take hc))
  have hdrop : ∀ n, ∀ c ∈ pointText (dropZeros (ds.drop n)), NumeralChar c := fun n =>
    hpoint _ (dropZeros_isDigit fun c hc => hds c (List.mem_of_mem_drop hc))
  have hexponent : ∀ c ∈ exponentText x, NumeralChar c := by
    intro c hc
    have hdigits := toDigits_isDigit x.natAbs
    rcases List.mem_cons.1 hc with rfl | hmem
    · exact .inr (by decide)
    rcases List.mem_cons.1 hmem with rfl | hmem
    · by_cases hx : x < 0
      · rw [if_pos hx]
        exact .inr (by decide)
      · rw [if_neg hx]
        exact .inr (by decide)
    · by_cases hsmall : x.natAbs < 10
      · rw [if_pos hsmall] at hmem
        rcases List.mem_cons.1 hmem with rfl | hmem
        · exact .inl rfl
        · exact .inl (hdigits c hmem)
      · rw [if_neg hsmall] at hmem
        exact .inl (hdigits c hmem)
  unfold digitsText
  split_ifs
  · exact List.forall_mem_append.2 ⟨List.forall_mem_append.2 ⟨hsign, htake _⟩, hdrop _⟩
  · refine List.forall_mem_append.2 ⟨List.forall_mem_append.2 ⟨hsign, ?_⟩, hpoint _ ?_⟩
    · exact fun c hc => .inl (zero_isDigit c hc)
    · exact List.forall_mem_append.2
        ⟨fun c hc => List.eq_of_mem_replicate hc ▸ rfl, dropZeros_isDigit hds⟩
  · refine List.forall_mem_append.2 ⟨List.forall_mem_append.2 ⟨?_, hdrop _⟩, hexponent⟩
    exact List.forall_mem_append.2 ⟨hsign, htake _⟩

theorem mem_printDecimal {p : Nat} {q : ℚ} : ∀ c ∈ printDecimal p q, NumeralChar c := by
  unfold printDecimal
  dsimp only
  split_ifs
  · exact fun c hc => .inl (zero_isDigit c hc)
  · exact mem_digitsText (toDigits_isDigit _)
  · exact mem_digitsText (toDigits_isDigit _)

/-- The numeral denotes the number rounded to its digits. -/
theorem readDecimal_print {p : Nat} (hp : 1 < p) (q : ℚ) :
    readDecimal (printDecimal p q) = some (roundDigits 10 p q) := by
  unfold printDecimal roundDigits
  by_cases hq : q = 0
  · rw [if_pos hq, if_pos hq]
    have hread := readDecimal_text false (e := 0) (List.cons_ne_nil '0' []) zero_isDigit
      (List.forall_mem_nil _) noRest rfl
    have hzero : decimalValue false ['0'] [] 0 = 0 := by decide +kernel
    exact hread.trans (congrArg some hzero)
  · rw [if_neg hq, if_neg hq]
    generalize hd : (roundHalfEven (q / lastDigit 10 p q)).natAbs = d
    obtain ⟨hlow, hhigh, hrounded⟩ := roundHalfEven_lastDigit (by omega) hq hd.symm
    have hsign : ((roundHalfEven (q / lastDigit 10 p q) : Int) : ℚ) =
        (if decide (q < 0) then -1 else 1) * (d : ℚ) := by
      rw [hrounded]
      by_cases hneg : q < 0 <;> simp [hneg]
    rw [hsign]
    dsimp only
    by_cases hcarry : d = 10 ^ p
    · have hlength := length_toDigits_eq hp (n := 10 ^ (p - 1)) le_rfl
        (Nat.pow_lt_pow_right (by omega) (by omega))
      have hpower : (10 : ℚ) ^ p * (10 : ℚ) ^ (Int.log 10 |q| - (p - 1)) =
          (10 : ℚ) ^ (p - 1) * (10 : ℚ) ^ (Int.log 10 |q| + 1 - (p - 1)) := by
        rw [← zpow_natCast, ← zpow_natCast, ← zpow_add₀ (by norm_num), ← zpow_add₀ (by norm_num)]
        congr 1
        omega
      rw [if_pos hcarry, digitsText_read (by omega) hlength (toDigits_isDigit _),
        digitsNat_toDigits, hcarry, lastDigit, mul_assoc, mul_assoc]
      push_cast
      rw [hpower]
    · have hlength := length_toDigits_eq hp hlow (by omega)
      rw [if_neg hcarry, digitsText_read (by omega) hlength (toDigits_isDigit _),
        digitsNat_toDigits]
      rfl

/-! ## Integers -/

theorem toList_toString (n : Int) :
    (toString n).toList = signText (decide (n < 0)) ++ Nat.toDigits 10 n.natAbs := by
  cases n with
  | ofNat m =>
    show (Nat.repr m).toList = _
    rw [Nat.repr_eq_ofList_toDigits, String.toList_ofList]
    rfl
  | negSucc m =>
    show ("-" ++ Nat.repr (m + 1)).toList = _
    rw [Nat.repr_eq_ofList_toDigits, String.toList_append, String.toList_ofList,
      String.toList_ofList, decide_eq_true (Int.negSucc_lt_zero m)]
    rfl

theorem numeralChar_toString (n : Int) : ∀ c ∈ (toString n).toList, NumeralChar c := by
  rw [toList_toString]
  refine List.forall_mem_append.2 ⟨?_, fun c hc => .inl (toDigits_isDigit _ c hc)⟩
  intro c hc
  unfold signText at hc
  split at hc
  · exact .inr (by simp_all)
  · cases hc

theorem readDecimal_toString (n : Int) : readDecimal (toString n).toList = some (n : ℚ) := by
  have hvalue : (if decide (n < 0) then -1 else 1) * (n.natAbs : ℚ) = n := by
    rw [Nat.cast_natAbs, Int.cast_abs]
    by_cases hneg : n < 0
    · have hcast : (n : ℚ) < 0 := by exact_mod_cast hneg
      simp [hneg, abs_of_neg hcast]
    · have hcast : 0 ≤ (n : ℚ) := by exact_mod_cast not_lt.1 hneg
      simp [hneg, abs_of_nonneg hcast]
  rw [toList_toString, readDecimal_toDigits, hvalue]

end Lib
