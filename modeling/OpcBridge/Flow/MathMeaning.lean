import OpcBridge.Flow.MathReads

/-!
# What a math expression evaluates to

A tree with declared inputs and calls with the right number of arguments has a value unless a part
of it divides by zero or takes the root of a negative number (`Expr.value_none_iff`). Over exact
numbers an expression evaluates as written, and no other text is accepted
(`evaluates_as_written`). The literals are those of `strtod`, so that `0x10` is one.
-/

namespace OpcBridge.Flow

open Lib MathExpression

namespace Expr

/-! ## Parts of a tree -/

inductive Part : Expr → Expr → Prop
  | self {e : Expr} : Part e e
  | pos {d e : Expr} : Part d e → Part d (.pos e)
  | neg {d e : Expr} : Part d e → Part d (.neg e)
  | left {d a b : Expr} {op : BinOp} : Part d a → Part d (.binary op a b)
  | right {d a b : Expr} {op : BinOp} : Part d b → Part d (.binary op a b)
  | arg {d e : Expr} {f : Fn} {args : List Expr} : e ∈ args → Part d e → Part d (.call f args)

/-- An input is declared, and a function has the right number of arguments. -/
def Proper (names : List String) : Expr → Prop
  | .input name => name ∈ names
  | .call f args => f.takes args.length = true
  | _ => True

def Valid (names : List String) (e : Expr) : Prop := ∀ d, Part d e → d.Proper names

section
variable {α : Type} [MathOps α] (inputs : List (String × α))

/-- A division or a remainder by zero, or the root of a negative number. -/
def Bad : Expr → Prop
  | .binary .div _ b => ∃ y, b.value inputs = some y ∧ MathOps.eq y (MathOps.ofInt 0) = true
  | .binary .rem _ b => ∃ y, b.value inputs = some y ∧ MathOps.eq y (MathOps.ofInt 0) = true
  | .call .sqrt [a] => ∃ x, a.value inputs = some x ∧ MathOps.lt x (MathOps.ofInt 0) = true
  | _ => False

def Undefined (e : Expr) : Prop := ∃ d, Part d e ∧ d.Bad inputs

variable (α) in
/-- Every literal has a number. -/
def InRange (e : Expr) : Prop := ∀ q, Part (.literal q) e → (MathOps.ofRat q : Option α).isSome = true

variable {inputs}

theorem isSome_of_mem {es : List Expr} (h : (values inputs es).isSome = true) :
    ∀ e ∈ es, (e.value inputs).isSome = true := by
  induction es with
  | nil => exact List.forall_mem_nil _
  | cons d es ih =>
    rw [values] at h
    cases hd : d.value inputs with
    | none =>
      rw [hd] at h
      cases h
    | some x =>
      rw [hd, Option.bind_some, Option.isSome_map] at h
      exact List.forall_mem_cons.2 ⟨by rw [hd]; rfl, ih h⟩

theorem length_values {es : List Expr} {xs : List α} (h : values inputs es = some xs) :
    xs.length = es.length := by
  induction es generalizing xs with
  | nil =>
    obtain rfl := Option.some.inj h
    rfl
  | cons d es ih =>
    rw [values] at h
    obtain ⟨x, -, h⟩ := Option.bind_eq_some_iff.1 h
    obtain ⟨ys, hys, rfl⟩ := Option.map_eq_some_iff.1 h
    rw [List.length_cons, List.length_cons, ih hys]

theorem values_singleton {es : List Expr} {x : α} (h : values inputs es = some [x]) :
    ∃ e, es = [e] ∧ e.value inputs = some x := by
  obtain ⟨e, rfl⟩ := List.length_eq_one_iff.1 (length_values h).symm
  rw [values] at h
  obtain ⟨y, hy, h⟩ := Option.bind_eq_some_iff.1 h
  obtain rfl : y = x := by simpa [values] using h
  exact ⟨e, rfl, hy⟩

/-- A tree with a value has one in every part. -/
theorem isSome_part {d e : Expr} (hpart : Part d e) (h : (e.value inputs).isSome = true) :
    (d.value inputs).isSome = true := by
  induction hpart with
  | self => exact h
  | pos _ ih => exact ih h
  | neg _ ih =>
    rw [value, Option.isSome_map] at h
    exact ih h
  | left _ ih =>
    rw [value] at h
    obtain ⟨x, hx⟩ := Option.isSome_iff_exists.1 h
    obtain ⟨y, hy, -⟩ := Option.bind_eq_some_iff.1 hx
    exact ih (by rw [hy]; rfl)
  | right _ ih =>
    rw [value] at h
    obtain ⟨x, hx⟩ := Option.isSome_iff_exists.1 h
    obtain ⟨y, -, hz⟩ := Option.bind_eq_some_iff.1 hx
    obtain ⟨z, hz, -⟩ := Option.bind_eq_some_iff.1 hz
    exact ih (by rw [hz]; rfl)
  | arg hmem _ ih =>
    rw [value] at h
    obtain ⟨x, hx⟩ := Option.isSome_iff_exists.1 h
    obtain ⟨xs, hxs, -⟩ := Option.bind_eq_some_iff.1 hx
    exact ih (isSome_of_mem (by rw [hxs]; rfl) _ hmem)

end

end Expr

section
variable {α : Type} [MathOps α] {inputs : List (String × α)}

theorem BinOp.apply_eq_none {op : BinOp} {x y : α} :
    op.apply x y = none ↔ (op = .div ∨ op = .rem) ∧ MathOps.eq y (MathOps.ofInt 0) = true := by
  cases op with
  | div =>
    show (if _ then none else some _) = none ↔ _
    split <;> simp [*]
  | rem =>
    show (if _ then none else some _) = none ↔ _
    split <;> simp [*]
  | _ => exact iff_of_false (fun h => (by cases h)) fun h => by simp at h

theorem Fn.takes_of_apply {f : Fn} {xs : List α} {v : α} (h : f.apply xs = some v) :
    f.takes xs.length = true := by
  unfold Fn.apply at h
  split at h
  all_goals first | rfl | cases h

theorem Fn.apply_eq_none {f : Fn} {xs : List α} (h : f.takes xs.length = true) :
    f.apply xs = none ↔ f = .sqrt ∧ ∃ x, xs = [x] ∧ MathOps.lt x (MathOps.ofInt 0) = true := by
  -- the other functions have a value whatever the arguments are
  have hother : ∀ {v : α}, f.apply xs = some v → f ≠ .sqrt →
      (f.apply xs = none ↔ f = .sqrt ∧ ∃ x, xs = [x] ∧ MathOps.lt x (MathOps.ofInt 0) = true) := by
    intro v hv hf
    exact iff_of_false (by simp [hv]) fun h => hf h.1
  cases f with
  | sqrt =>
    obtain ⟨x, rfl⟩ := List.length_eq_one_iff.1 (by simpa [takes] using h)
    show (if _ then none else some _) = none ↔ _
    split
    · rename_i hlt
      exact iff_of_true rfl ⟨rfl, x, rfl, hlt⟩
    · rename_i hlt
      refine iff_of_false (fun h => by cases h) fun ⟨_, y, hy, hneg⟩ => hlt ?_
      obtain rfl := (List.cons.inj hy).1
      exact hneg
  | abs | floor | ceil =>
    obtain ⟨x, rfl⟩ := List.length_eq_one_iff.1 (by simpa [takes] using h)
    exact hother rfl (by decide)
  | pow =>
    obtain ⟨x, y, rfl⟩ := List.length_eq_two.1 (by simpa [takes] using h)
    exact hother rfl (by decide)
  | clamp =>
    obtain ⟨x, y, z, rfl⟩ := List.length_eq_three.1 (by simpa [takes] using h)
    exact hother rfl (by decide)
  | round =>
    simp only [takes, Bool.or_eq_true, beq_iff_eq] at h
    rcases h with h | h
    · obtain ⟨x, rfl⟩ := List.length_eq_one_iff.1 h
      exact hother rfl (by decide)
    · obtain ⟨x, y, rfl⟩ := List.length_eq_two.1 h
      exact hother rfl (by decide)
  | min | max =>
    obtain ⟨x, xs, rfl⟩ := List.exists_cons_of_ne_nil (List.ne_nil_of_length_pos (l := xs)
      (Nat.pos_of_ne_zero (by simpa [takes] using h)))
    exact hother rfl (by decide)

namespace Expr

/-! ## Defined values -/

theorem Part.trans {c d e : Expr} (h : Part c d) (h' : Part d e) : Part c e := by
  induction h' with
  | self => exact h
  | pos _ ih => exact .pos ih
  | neg _ ih => exact .neg ih
  | left _ ih => exact .left ih
  | right _ ih => exact .right ih
  | arg hmem _ ih => exact .arg hmem ih

variable (inputs) in
/-- Nothing in the tree is without a value. -/
structure Defined (e : Expr) : Prop where
  valid : e.Valid (inputs.map Prod.fst)
  inRange : e.InRange α
  good : ¬ e.Undefined inputs

theorem Defined.part {d e : Expr} (h : e.Defined inputs) (hd : Part d e) : d.Defined inputs where
  valid c hc := h.valid c (hc.trans hd)
  inRange q hq := h.inRange q (hq.trans hd)
  good := fun ⟨c, hc, hbad⟩ => h.good ⟨c, hc.trans hd, hbad⟩

omit [MathOps α] in
theorem lookup_isSome {name : String} (h : name ∈ inputs.map Prod.fst) :
    (inputs.lookup name).isSome = true := by
  induction inputs with
  | nil => cases h
  | cons x inputs ih =>
    rw [List.lookup_cons]
    split
    · rfl
    · rename_i hne
      rw [List.map_cons, List.mem_cons] at h
      rcases h with rfl | h
      · simp at hne
      · exact ih h

mutual

theorem value_isSome : ∀ {e : Expr}, e.Defined inputs → (e.value inputs).isSome = true
  | .literal q, h => h.inRange q .self
  | .input name, h => lookup_isSome (h.valid _ .self)
  | .pos e, h => show (e.value inputs).isSome = true from value_isSome (h.part (.pos .self))
  | .neg e, h => by
    rw [value, Option.isSome_map]
    exact value_isSome (h.part (.neg .self))
  | .binary op a b, h => by
    obtain ⟨x, hx⟩ := Option.isSome_iff_exists.1 (value_isSome (h.part (.left .self : Part a _)))
    obtain ⟨y, hy⟩ := Option.isSome_iff_exists.1 (value_isSome (h.part (.right .self : Part b _)))
    rw [value, hx, hy, Option.bind_some, Option.bind_some]
    by_contra hnone
    obtain ⟨hop, hzero⟩ := BinOp.apply_eq_none.1 (by simpa using hnone)
    refine h.good ⟨_, .self, ?_⟩
    rcases hop with rfl | rfl
    · exact ⟨y, hy, hzero⟩
    · exact ⟨y, hy, hzero⟩
  | .call f args, h => by
    obtain ⟨xs, hxs⟩ := Option.isSome_iff_exists.1
      (values_isSome fun e he => h.part (.arg he .self))
    rw [value, hxs, Option.bind_some]
    by_contra hnone
    have htakes : f.takes xs.length = true := by
      rw [length_values hxs]
      exact h.valid _ .self
    obtain ⟨rfl, x, rfl, hneg⟩ := (Fn.apply_eq_none htakes).1 (by simpa using hnone)
    obtain ⟨a, ha, hx⟩ := values_singleton hxs
    subst ha
    exact h.good ⟨_, .self, x, hx, hneg⟩

theorem values_isSome : ∀ {es : List Expr}, (∀ e ∈ es, e.Defined inputs) →
    (values inputs es).isSome = true
  | [], _ => rfl
  | e :: es, h => by
    rw [List.forall_mem_cons] at h
    obtain ⟨x, hx⟩ := Option.isSome_iff_exists.1 (value_isSome h.1)
    obtain ⟨xs, hxs⟩ := Option.isSome_iff_exists.1 (values_isSome h.2)
    rw [values, hx, hxs]
    rfl

end

omit [MathOps α] in
theorem mem_of_lookup {name : String} {v : α} (h : inputs.lookup name = some v) :
    name ∈ inputs.map Prod.fst := by
  induction inputs with
  | nil => cases h
  | cons x inputs ih =>
    rw [List.lookup_cons] at h
    split at h
    · rename_i heq
      rw [beq_iff_eq.1 heq]
      exact List.mem_cons_self
    · exact List.mem_cons_of_mem _ (ih h)

/-- A tree with a value is defined everywhere. -/
theorem defined_of_value {e : Expr} (h : (e.value inputs).isSome = true) : e.Defined inputs := by
  have hpart : ∀ {d}, Part d e → ∃ v, d.value inputs = some v := fun hd =>
    Option.isSome_iff_exists.1 (isSome_part hd h)
  refine ⟨fun d hd => ?_, fun q hq => isSome_part hq h, fun ⟨d, hd, hbad⟩ => ?_⟩
  · obtain ⟨v, hv⟩ := hpart hd
    cases d with
    | input name => exact mem_of_lookup hv
    | call f args =>
      obtain ⟨xs, hxs, hf⟩ := Option.bind_eq_some_iff.1 hv
      show f.takes args.length = true
      rw [← length_values hxs]
      exact Fn.takes_of_apply hf
    | _ => trivial
  · obtain ⟨v, hv⟩ := hpart hd
    unfold Bad at hbad
    split at hbad
    · obtain ⟨y, hy, hzero⟩ := hbad
      obtain ⟨x, -, hz⟩ := Option.bind_eq_some_iff.1 hv
      rw [hy, Option.bind_some, BinOp.apply_eq_none.2 ⟨.inl rfl, hzero⟩] at hz
      cases hz
    · obtain ⟨y, hy, hzero⟩ := hbad
      obtain ⟨x, -, hz⟩ := Option.bind_eq_some_iff.1 hv
      rw [hy, Option.bind_some, BinOp.apply_eq_none.2 ⟨.inr rfl, hzero⟩] at hz
      cases hz
    · rename_i a
      obtain ⟨x, hx, hneg⟩ := hbad
      have hxs : values inputs [a] = some [x] := by
        rw [values, hx]
        rfl
      rw [value, hxs, Option.bind_some, (Fn.apply_eq_none rfl).2 ⟨rfl, x, rfl, hneg⟩] at hv
      cases hv
    · exact hbad

/-- **The value of a tree** is undefined exactly if a part of it is. -/
theorem value_none_iff {e : Expr} (hvalid : e.Valid (inputs.map Prod.fst)) (hrange : e.InRange α) :
    e.value inputs = none ↔ e.Undefined inputs := by
  constructor
  · intro hnone
    by_contra hgood
    have hsome := value_isSome ⟨hvalid, hrange, hgood⟩
    rw [hnone] at hsome
    cases hsome
  · intro hbad
    by_contra hne
    exact (defined_of_value (Option.isSome_iff_ne_none.2 hne)).good hbad

end Expr

end

/-! ## Exact numbers -/

/-- Numbers without a largest one. -/
class ExactOps (α : Type) extends MathOps α where
  isSome_ofRat : ∀ q, (ofRat q).isSome = true
  isFinite_eq : ∀ x, isFinite x = true

/-- **Math expressions evaluate as written.** -/
theorem evaluates_as_written {α : Type} [ExactOps α] (inputs : List (String × α)) (text : String) :
    (∀ e : Expr, e.Valid (inputs.map Prod.fst) → Renders NumberLiteral e text.toList →
      (evaluate text inputs).toOption = e.value inputs ∧
        (e.value inputs = none ↔ e.Undefined inputs)) ∧
    ((∀ e : Expr, e.Valid (inputs.map Prod.fst) → ¬ Renders NumberLiteral e text.toList) →
      (evaluate text inputs).toOption = none) := by
  have hrange : ∀ e : Expr, e.InRange α := fun e q _ => ExactOps.isSome_ofRat q
  refine ⟨fun e hvalid he => ⟨?_, Expr.value_none_iff hvalid (hrange e)⟩, fun hnone => ?_⟩
  · rw [evaluate_renders he inputs]
    cases e.value inputs with
    | none => rfl
    | some v => simp [Option.filter, ExactOps.isFinite_eq v]
  · cases h : evaluate text inputs with
    | error m => rfl
    | ok v =>
      obtain ⟨e, he, hv, -⟩ := renders_of_evaluate h
      exact absurd he (hnone e (Expr.defined_of_value (by rw [hv]; rfl)).valid)

/-- **A text has one meaning**: all its trees have the same value, if any. -/
theorem one_meaning {α : Type} [ExactOps α] (inputs : List (String × α)) (text : String) :
    {v | ∃ e : Expr, Renders NumberLiteral e text.toList ∧ e.value inputs = v}.Subsingleton := by
  have hread : ∀ {e : Expr}, Renders NumberLiteral e text.toList →
      e.value inputs = (evaluate text inputs).toOption := by
    intro e he
    rw [evaluate_renders he inputs]
    cases e.value inputs with
    | none => rfl
    | some v => simp [Option.filter, ExactOps.isFinite_eq v]
  rintro _ ⟨d, hd, rfl⟩ _ ⟨e, he, rfl⟩
  rw [hread hd, hread he]

/-! ## Examples -/

/-- The whole part, towards zero. -/
def truncRat (q : ℚ) : ℤ := q.num.tdiv q.den

/-- Rational numbers, with roots and powers where these are rational. -/
@[reducible] def rationals : ExactOps ℚ where
  ofInt n := n
  ofRat q := some q
  add := (· + ·)
  sub := (· - ·)
  mul := (· * ·)
  div := (· / ·)
  fmod x y := x - truncRat (x / y) * y
  pow x y := if y.num < 0 then (x ^ y.num.natAbs)⁻¹ else x ^ y.num.natAbs
  neg x := -x
  abs x := if x < 0 then -x else x
  sqrt x := mkRat (Nat.sqrt x.num.natAbs) (Nat.sqrt x.den)
  floor x := x.num / (x.den : ℤ)
  ceil x := -(-x.num / (x.den : ℤ))
  round x := truncRat (x + if x < 0 then -(1 / 2) else 1 / 2)
  lt x y := decide (x < y)
  eq x y := decide (x = y)
  isFinite _ := true
  isSome_ofRat _ := rfl
  isFinite_eq _ := rfl

section
attribute [local instance] rationals

def sumTree : Expr := .binary .add (.literal 1) (.binary .mul (.literal 2) (.input "x"))

theorem digit_literal {c : Char} {q : ℚ} (hc : c.isDigit = true)
    (hq : decimalNotation.value [c] [] 0 = q) : NumberLiteral [c] q := by
  left
  rw [← hq]
  show decimalNotation.Literal ([c] ++ []) _
  refine .whole (List.cons_ne_nil _ _) ?_ .none
  simp [Notation.isDigit, decimalNotation, hc]

theorem sumTree_renders : Renders NumberLiteral sumTree "1 +2*x ".toList := by
  have hone : SumText NumberLiteral (.literal 1) ['1'] :=
    .one (.one (.primary (.literal (digit_literal rfl (by decide +kernel)))))
  have htwo : TermText NumberLiteral (.literal 2) ['2'] :=
    .one (.primary (.literal (digit_literal rfl (by decide +kernel))))
  have hx : SignedText NumberLiteral (.input "x") ['x'] :=
    .primary (.input ⟨by decide, by decide, by decide⟩)
  have hproduct : TermText NumberLiteral (.binary .mul (.literal 2) (.input "x")) ['2', '*', 'x'] :=
    .more (w := []) htwo (by decide) rfl hx
  have hsum : SumText NumberLiteral sumTree ['1', ' ', '+', '2', '*', 'x'] :=
    .more (w := [' ']) hone (by decide) rfl hproduct
  exact ⟨_, [' '], rfl, hsum, by decide⟩

theorem sum_evaluates :
    (evaluate "1 +2*x " [("x", (3 : ℚ))]).toOption = some 7 ∧
      (evaluate "" [("x", (3 : ℚ))]).toOption = none := by
  have hvalue : sumTree.value [("x", (3 : ℚ))] = some 7 := by decide +kernel
  have hvalid := (Expr.defined_of_value (e := sumTree) (Option.isSome_iff_exists.2 ⟨_, hvalue⟩)).valid
  refine ⟨?_, (evaluates_as_written _ _).2 fun e _ =>
    not_renders_empty [("x", (3 : ℚ))] e⟩
  rw [((evaluates_as_written _ _).1 sumTree hvalid sumTree_renders).1, hvalue]

/-! With decimal literals only the digit before the `x` is the text of a tree. -/

def hexText : List Char := ['0', 'x', '1', '0']

theorem hex_primary {e : Expr} {u r : List Char} (htext : u ++ r = hexText)
    (h : PrimaryText DecimalLiteral e u) : u = ['0'] := by
  cases h with
  | literal hu =>
    obtain ⟨c, t, rfl, -⟩ := Notation.Literal.head hu
    obtain ⟨rfl, ht⟩ := List.cons.inj htext
    cases t with
    | nil => rfl
    | cons d t =>
      obtain ⟨rfl, -⟩ := List.cons.inj ht
      exact absurd (Notation.Literal.mem hu 'x' (by simp)) (by decide)
  | @input name hu =>
    obtain ⟨c, t, ht⟩ := List.exists_cons_of_ne_nil hu.ne_nil
    rw [ht] at htext
    obtain ⟨rfl, -⟩ := List.cons.inj htext
    exact absurd (hu.first '0' (by rw [ht]; rfl)) (by decide)
  | paren => cases (List.cons.inj htext).1
  | @call f args u w w' _ _ _ => cases f <;> cases (List.cons.inj htext).1

theorem hex_signed {e : Expr} {u r : List Char} (htext : u ++ r = hexText)
    (h : SignedText DecimalLiteral e u) : u = ['0'] := by
  cases h with
  | primary h => exact hex_primary htext h
  | blank hc =>
    obtain ⟨rfl, -⟩ := List.cons.inj htext
    cases hc
  | pos => cases (List.cons.inj htext).1
  | neg => cases (List.cons.inj htext).1

/-- No operator follows the digit. -/
theorem hex_operator {w u r : List Char} {op : BinOp} (hw : Blank w)
    (htext : (['0'] ++ (w ++ op.char :: u)) ++ r = hexText) : False := by
  obtain ⟨-, htext⟩ := List.cons.inj htext
  cases w with
  | nil =>
    have hx := (List.cons.inj htext).1
    cases op <;> cases hx
  | cons c w =>
    obtain ⟨rfl, -⟩ := List.cons.inj htext
    exact absurd (hw 'x' List.mem_cons_self) (by decide)

theorem hex_term (n : Nat) : ∀ {e : Expr} {u r : List Char}, u.length < n → u ++ r = hexText →
    TermText DecimalLiteral e u → u = ['0'] := by
  induction n with
  | zero => exact fun h => absurd h (Nat.not_lt_zero _)
  | succ n ih =>
    intro e u r hlen htext h
    cases h with
    | one h => exact hex_signed htext h
    | @more a b u w u' op ha hw _ _ =>
      simp only [List.length_append, List.length_cons] at hlen
      have hu := ih (by omega) (by rw [← htext]; simp; rfl) ha
      rw [hu] at htext
      exact (hex_operator hw htext).elim

theorem hex_sum (n : Nat) : ∀ {e : Expr} {u r : List Char}, u.length < n → u ++ r = hexText →
    SumText DecimalLiteral e u → u = ['0'] := by
  induction n with
  | zero => exact fun h => absurd h (Nat.not_lt_zero _)
  | succ n ih =>
    intro e u r hlen htext h
    cases h with
    | one h => exact hex_term _ (Nat.lt_succ_self _) htext h
    | @more a b u w u' op ha hw _ _ =>
      simp only [List.length_append, List.length_cons] at hlen
      have hu := ih (by omega) (by rw [← htext]; simp; rfl) ha
      rw [hu] at htext
      exact (hex_operator hw htext).elim

/-- Sixteen in base 16 is accepted. -/
theorem hex_accepted :
    (evaluate "0x10" ([] : List (String × ℚ))).toOption = some 16 ∧
      ∀ e, ¬ Renders DecimalLiteral e "0x10".toList := by
  refine ⟨by decide +kernel, ?_⟩
  rintro e ⟨u, w, htext, hu, hw⟩
  have hzero := hex_sum _ (Nat.lt_succ_self _) htext.symm hu
  subst hzero
  obtain ⟨-, hrest⟩ := List.cons.inj htext
  exact absurd (hw 'x' (by rw [← show _ = w from hrest]; exact List.mem_cons_self)) (by decide)

end

end OpcBridge.Flow
