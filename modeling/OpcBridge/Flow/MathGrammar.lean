import OpcBridge.Flow.MathExpression

/-!
# The grammar of math expressions

Trees of expressions with their values, and the texts of a tree: a chain of terms, each a chain of
signed operands, with blanks before any token. The texts of the literals are a parameter. The terms,
the sums and the lists of arguments are the chains that a reader of operators goes through.
-/

namespace OpcBridge.Flow

open Lib MathExpression

/-! ## Trees -/

inductive BinOp
  | add | sub | mul | div | rem
  deriving DecidableEq

def BinOp.char : BinOp → Char
  | add => '+'
  | sub => '-'
  | mul => '*'
  | div => '/'
  | rem => '%'

/-- It binds more tightly. -/
def BinOp.isProduct : BinOp → Bool
  | add | sub => false
  | mul | div | rem => true

inductive Fn
  | abs | sqrt | floor | ceil | pow | clamp | round | min | max
  deriving DecidableEq

def Fn.name : Fn → String
  | abs => "abs"
  | sqrt => "sqrt"
  | floor => "floor"
  | ceil => "ceil"
  | pow => "pow"
  | clamp => "clamp"
  | round => "round"
  | min => "min"
  | max => "max"

/-- The function takes so many arguments. -/
def Fn.takes : Fn → Nat → Bool
  | abs, n | sqrt, n | floor, n | ceil, n => n == 1
  | pow, n => n == 2
  | clamp, n => n == 3
  | round, n => n == 1 || n == 2
  | min, n | max, n => n != 0

inductive Expr
  | literal (q : ℚ)
  | input (name : String)
  | pos (e : Expr)
  | neg (e : Expr)
  | binary (op : BinOp) (a b : Expr)
  | call (f : Fn) (args : List Expr)

section
variable {α : Type} [MathOps α]

/-- `none` is a division or a remainder by zero. -/
def BinOp.apply (op : BinOp) (x y : α) : Option α :=
  match op with
  | add => some (MathOps.add x y)
  | sub => some (MathOps.sub x y)
  | mul => some (MathOps.mul x y)
  | div => if MathOps.eq y (MathOps.ofInt 0) then none else some (MathOps.div x y)
  | rem => if MathOps.eq y (MathOps.ofInt 0) then none else some (MathOps.fmod x y)

/-- `none` is the square root of a negative number, or a wrong number of arguments. -/
def Fn.apply (f : Fn) (args : List α) : Option α :=
  match f, args with
  | abs, [x] => some (MathOps.abs x)
  | sqrt, [x] => if MathOps.lt x (MathOps.ofInt 0) then none else some (MathOps.sqrt x)
  | floor, [x] => some (MathOps.floor x)
  | ceil, [x] => some (MathOps.ceil x)
  | pow, [x, y] => some (MathOps.pow x y)
  | clamp, [x, low, high] => some (stdMax low (stdMin high x))
  | round, [x] => some (rounded x (MathOps.ofInt 1))
  | round, [x, digits] => some (rounded x (MathOps.pow (MathOps.ofInt 10) digits))
  | min, x :: xs => some (minElement x xs)
  | max, x :: xs => some (maxElement x xs)
  | _, _ => none

mutual

/-- The value of a tree, where it is defined. -/
def Expr.value (inputs : List (String × α)) : Expr → Option α
  | .literal q => MathOps.ofRat q
  | .input name => inputs.lookup name
  | .pos e => e.value inputs
  | .neg e => (e.value inputs).map MathOps.neg
  | .binary op a b => (a.value inputs).bind fun x => (b.value inputs).bind fun y => op.apply x y
  | .call f args => (Expr.values inputs args).bind f.apply

def Expr.values (inputs : List (String × α)) : List Expr → Option (List α)
  | [] => some []
  | e :: es => (e.value inputs).bind fun x => (Expr.values inputs es).map fun xs => x :: xs

end

theorem Expr.values_snoc (inputs : List (String × α)) (es : List Expr) (e : Expr) :
    Expr.values inputs (es ++ [e]) =
      (Expr.values inputs es).bind fun xs => (e.value inputs).bind fun x => some (xs ++ [x]) := by
  induction es with
  | nil =>
    cases h : e.value inputs with
    | none => simp [Expr.values, h]
    | some x => simp [Expr.values, h]
  | cons d es ih =>
    rw [List.cons_append, Expr.values, ih, Expr.values]
    cases d.value inputs with
    | none => rfl
    | some x =>
      cases Expr.values inputs es with
      | none => rfl
      | some xs =>
        cases e.value inputs with
        | none => rfl
        | some y => rfl

end

/-! ## Texts -/

def Blank (w : List Char) : Prop := ∀ c ∈ w, isSpace c = true

instance (w : List Char) : Decidable (Blank w) :=
  inferInstanceAs (Decidable (∀ c ∈ w, isSpace c = true))

/-- A name of an input: it does not start like a number. -/
structure IsName (u : List Char) : Prop where
  ne_nil : u ≠ []
  chars : ∀ c ∈ u, isNameChar c = true
  first : ∀ c ∈ u.head?, isDigit c = false

section
variable (Lit : List Char → ℚ → Prop)

mutual

inductive PrimaryText : Expr → List Char → Prop
  | literal {u : List Char} {q : ℚ} : Lit u q → PrimaryText (.literal q) u
  | input {name : String} : IsName name.toList → PrimaryText (.input name) name.toList
  | paren {e : Expr} {u w : List Char} : SumText e u → Blank w → PrimaryText e ('(' :: (u ++ (w ++ [')'])))
  | call {f : Fn} {args : List Expr} {u w w' : List Char} : ArgsText args u → Blank w → Blank w' →
      PrimaryText (.call f args) (f.name.toList ++ (w ++ '(' :: (u ++ (w' ++ [')']))))

inductive SignedText : Expr → List Char → Prop
  | primary {e : Expr} {u : List Char} : PrimaryText e u → SignedText e u
  | blank {e : Expr} {u : List Char} {c : Char} : isSpace c = true → SignedText e u → SignedText e (c :: u)
  | pos {e : Expr} {u : List Char} : SignedText e u → SignedText (.pos e) ('+' :: u)
  | neg {e : Expr} {u : List Char} : SignedText e u → SignedText (.neg e) ('-' :: u)

inductive TermText : Expr → List Char → Prop
  | one {e : Expr} {u : List Char} : SignedText e u → TermText e u
  | more {a b : Expr} {u w u' : List Char} {op : BinOp} : TermText a u → Blank w →
      op.isProduct = true → SignedText b u' → TermText (.binary op a b) (u ++ (w ++ op.char :: u'))

inductive SumText : Expr → List Char → Prop
  | one {e : Expr} {u : List Char} : TermText e u → SumText e u
  | more {a b : Expr} {u w u' : List Char} {op : BinOp} : SumText a u → Blank w →
      op.isProduct = false → TermText b u' → SumText (.binary op a b) (u ++ (w ++ op.char :: u'))

inductive ArgsText : List Expr → List Char → Prop
  | one {e : Expr} {u : List Char} : SumText e u → ArgsText [e] u
  | more {es : List Expr} {e : Expr} {u w u' : List Char} : ArgsText es u → Blank w → SumText e u' →
      ArgsText (es ++ [e]) (u ++ (w ++ ',' :: u'))

end

/-- The text is one of the tree. -/
def Renders (e : Expr) (text : List Char) : Prop :=
  ∃ u w, text = u ++ w ∧ SumText Lit e u ∧ Blank w

end

/-! ## Chains of operands -/

section
variable {α : Type} [MathOps α] (inputs : List (String × α)) (Lit : List Char → ℚ → Prop)

/-- The texts of a part of the grammar, with the values of their trees. -/
def Means (P : Expr → List Char → Prop) (u : List Char) (o : Option α) : Prop :=
  ∃ e, P e u ∧ e.value inputs = o

def termOps : List BinOp := [.mul, .div, .rem]

def sumOps : List BinOp := [.add, .sub]

def opOf (ops : List BinOp) (c : Char) : Option (α → α → Option α) :=
  (ops.find? fun op => op.char == c).map BinOp.apply

variable {inputs Lit}

theorem opOf_char {ops : List BinOp} {op : BinOp} (h : op ∈ ops) :
    (opOf ops op.char : Option (α → α → Option α)) = some op.apply := by
  have hinj : ∀ a b : BinOp, a.char = b.char → a = b := by
    intro a b hab
    cases a <;> cases b <;> first | rfl | cases hab
  unfold opOf
  cases hf : ops.find? fun o => o.char == op.char with
  | none => exact absurd (List.find?_eq_none.1 hf op h) (by simp)
  | some o =>
    have ho := List.find?_some hf
    rw [hinj o op (by simpa using ho)]
    rfl

theorem opOf_inv {ops : List BinOp} {c : Char} {f : α → α → Option α}
    (h : opOf ops c = some f) : ∃ op ∈ ops, op.char = c ∧ f = op.apply := by
  obtain ⟨op, hf, rfl⟩ := Option.map_eq_some_iff.1 h
  exact ⟨op, List.mem_of_find?_eq_some hf, by simpa using List.find?_some hf, rfl⟩

theorem mem_termOps {op : BinOp} : op ∈ termOps ↔ op.isProduct = true := by
  cases op <;> decide

theorem mem_sumOps {op : BinOp} : op ∈ sumOps ↔ op.isProduct = false := by
  cases op <;> decide

/-- A chain of operands is a term. -/
theorem term_of_chained {u : List Char} {o : Option α}
    (h : Chained isSpace (opOf termOps) (Means inputs (SignedText Lit)) u o) :
    Means inputs (TermText Lit) u o := by
  induction h with
  | one hu =>
    obtain ⟨e, he, rfl⟩ := hu
    exact ⟨e, .one he, rfl⟩
  | more _ hw hc hu' ih =>
    obtain ⟨a, ha, rfl⟩ := ih
    obtain ⟨b, hb, rfl⟩ := hu'
    obtain ⟨op, hop, rfl, rfl⟩ := opOf_inv hc
    exact ⟨.binary op a b, .more ha hw (mem_termOps.1 hop) hb, rfl⟩

theorem sum_of_chained {u : List Char} {o : Option α}
    (h : Chained isSpace (opOf sumOps) (Means inputs (TermText Lit)) u o) :
    Means inputs (SumText Lit) u o := by
  induction h with
  | one hu =>
    obtain ⟨e, he, rfl⟩ := hu
    exact ⟨e, .one he, rfl⟩
  | more _ hw hc hu' ih =>
    obtain ⟨a, ha, rfl⟩ := ih
    obtain ⟨b, hb, rfl⟩ := hu'
    obtain ⟨op, hop, rfl, rfl⟩ := opOf_inv hc
    exact ⟨.binary op a b, .more ha hw (mem_sumOps.1 hop) hb, rfl⟩

theorem chained_of_term (n : Nat) : ∀ {e : Expr} {u : List Char}, u.length < n → TermText Lit e u →
    Chained isSpace (opOf termOps) (Means inputs (SignedText Lit)) u (e.value inputs) := by
  induction n with
  | zero => exact fun h => absurd h (Nat.not_lt_zero _)
  | succ n ih =>
    intro e u hlen h
    cases h with
    | one he => exact .one ⟨e, he, rfl⟩
    | @more a b u w u' op ha hw hop hb =>
      simp only [List.length_append, List.length_cons] at hlen
      exact .more (ih (by omega) ha) hw (opOf_char (mem_termOps.2 hop)) ⟨b, hb, rfl⟩

theorem chained_of_sum (n : Nat) : ∀ {e : Expr} {u : List Char}, u.length < n → SumText Lit e u →
    Chained isSpace (opOf sumOps) (Means inputs (TermText Lit)) u (e.value inputs) := by
  induction n with
  | zero => exact fun h => absurd h (Nat.not_lt_zero _)
  | succ n ih =>
    intro e u hlen h
    cases h with
    | one he => exact .one ⟨e, he, rfl⟩
    | @more a b u w u' op ha hw hop hb =>
      simp only [List.length_append, List.length_cons] at hlen
      exact .more (ih (by omega) ha) hw (opOf_char (mem_sumOps.2 hop)) ⟨b, hb, rfl⟩

/-! ## Arguments -/

variable (inputs Lit) in
def MeansOne (u : List Char) (o : Option (List α)) : Prop :=
  ∃ e, SumText Lit e u ∧ (e.value inputs).map (fun x => [x]) = o

variable (inputs Lit) in
def MeansArgs (u : List Char) (o : Option (List α)) : Prop :=
  ∃ es, ArgsText Lit es u ∧ Expr.values inputs es = o

def commaOp (c : Char) : Option (List α → List α → Option (List α)) :=
  if c = ',' then some fun a b => some (a ++ b) else none

theorem values_more (es : List Expr) (e : Expr) :
    ((Expr.values inputs es).bind fun xs => ((e.value inputs).map fun x => [x]).bind fun ys =>
      some (xs ++ ys)) = Expr.values inputs (es ++ [e]) := by
  rw [Expr.values_snoc]
  cases Expr.values inputs es with
  | none => rfl
  | some xs =>
    cases e.value inputs with
    | none => rfl
    | some x => rfl

theorem args_of_chained {u : List Char} {o : Option (List α)}
    (h : Chained isSpace commaOp (MeansOne inputs Lit) u o) : MeansArgs inputs Lit u o := by
  induction h with
  | one hu =>
    obtain ⟨e, he, rfl⟩ := hu
    refine ⟨[e], .one he, ?_⟩
    rw [← List.nil_append [e], ← values_more]
    cases e.value inputs <;> rfl
  | @more u w u' c f o o' _ hw hc hu' ih =>
    obtain ⟨es, hes, rfl⟩ := ih
    obtain ⟨e, he, rfl⟩ := hu'
    unfold commaOp at hc
    split at hc
    · rename_i hcomma
      obtain rfl := Option.some.inj hc
      refine ⟨es ++ [e], ?_, (values_more es e).symm⟩
      rw [hcomma]
      exact .more hes hw he
    · cases hc

theorem chained_of_args (n : Nat) : ∀ {es : List Expr} {u : List Char}, u.length < n →
    ArgsText Lit es u →
    Chained isSpace commaOp (MeansOne inputs Lit) u (Expr.values inputs es) := by
  induction n with
  | zero => exact fun h => absurd h (Nat.not_lt_zero _)
  | succ n ih =>
    intro es u hlen h
    cases h with
    | @one e u he =>
      refine .one ⟨e, he, ?_⟩
      rw [← List.nil_append [e], ← values_more]
      cases e.value inputs <;> rfl
    | @more es e u w u' hes hw he =>
      simp only [List.length_append, List.length_cons] at hlen
      rw [← values_more]
      exact .more (ih (by omega) hes) hw rfl ⟨e, he, rfl⟩

end

end OpcBridge.Flow
