import OpcBridge.Hmi.TrendExpression

/-!
# The grammar of trend expressions

`Derives` is the grammar over tokens, with the nesting as fuel: `Derives false` reads operators and
punctuation as symbols only, `Derives true` is the wider grammar in which a string literal may stand
for the symbol it spells, and a second argument after a tag is let pass. `CompilesRight` says that
the compiler does what the grammar says; `ReadAlike` compares the two grammars on one text.
-/

namespace OpcBridge.Hmi

open Lib

/-! ## The grammar -/

/-- The token stands for the operator or the punctuation. -/
def Reads (wide : Bool) (token : Token) (text : String) : Prop :=
  token = .symbol (js text) ∨ wide = true ∧ token = .string (js text)

/-- The operators of the grammar. -/
def grammarOperators (wide : Bool) : Operators Token Parsed :=
  { operators with
    level := fun token => match token with
      | .number _ => none
      | .string value => if wide then precedence value else none
      | .symbol value => precedence value }

/-- The texts of a level, with the tree and the references of each. -/
abbrev Reading := Nat → List Token → Parsed → Prop

section
variable (wide : Bool) (sub : Reading)

inductive ArgumentList : List Token → List Node × List (JsString × JsString) → Prop
  | one {ts : List Token} {a : Parsed} (h : sub 0 ts a) : ArgumentList ts ([a.1], a.2)
  | more {ts rest : List Token} {comma : Token} {a : Parsed}
      {args : List Node × List (JsString × JsString)} (h : sub 0 ts a)
      (hcomma : Reads wide comma ",") (hrest : ArgumentList rest args) :
      ArgumentList (ts ++ comma :: rest) (a.1 :: args.1, a.2 ++ args.2)

/-- Literals, parentheses, references and calls. -/
inductive Closed : List Token → Parsed → Prop
  | number (text : JsString) : Closed [.number text] (.literal (.number text), [])
  | string (value : JsString) : Closed [.string value] (.literal (.string value), [])
  | yes : Closed [.symbol (js "true")] (.literal (.bool true), [])
  | no : Closed [.symbol (js "false")] (.literal (.bool false), [])
  | null : Closed [.symbol (js "null")] (.literal .null, [])
  | paren {ts : List Token} {close : Token} {a : Parsed} (h : sub 0 ts a)
      (hclose : Reads wide close ")") : Closed (.symbol (js "(") :: (ts ++ [close])) a
  | tag {opening comma close : Token} {connection tag : JsString} (hopen : Reads wide opening "(")
      (hcomma : Reads wide comma ",") (hclose : Reads wide close ")") (hc : connection ≠ [])
      (ht : tag ≠ []) :
      Closed [.symbol (js "tag"), opening, .string connection, comma, .string tag, close]
        (.tag connection tag, [(connection, tag)])
  | qualityTag {opening close : Token} {ts : List Token} {connection tag : JsString}
      {refs : List (JsString × JsString)} (hopen : Reads wide opening "(")
      (h : sub 0 ts (.tag connection tag, refs)) (hclose : Reads wide close ")") :
      Closed (.symbol (js "quality") :: opening :: (ts ++ [close]))
        (.quality connection tag, refs)
  | qualityNames {opening comma close : Token} {ts ts' : List Token} {connection tag : JsString}
      {refs refs' : List (JsString × JsString)} (hopen : Reads wide opening "(")
      (h : sub 0 ts (.literal (.string connection), refs)) (hcomma : Reads wide comma ",")
      (h' : sub 0 ts' (.literal (.string tag), refs')) (hclose : Reads wide close ")")
      (hc : connection ≠ []) (ht : tag ≠ []) :
      Closed (.symbol (js "quality") :: opening :: (ts ++ comma :: (ts' ++ [close])))
        (.quality connection tag, refs ++ refs' ++ [(connection, tag)])
  /-- The second argument is read and not used. -/
  | qualitySecond {opening comma close : Token} {ts ts' : List Token} {connection tag : JsString}
      {refs : List (JsString × JsString)} {second : Parsed} (hwide : wide = true)
      (hopen : Reads wide opening "(") (h : sub 0 ts (.tag connection tag, refs))
      (hcomma : Reads wide comma ",") (h' : sub 0 ts' second) (hclose : Reads wide close ")") :
      Closed (.symbol (js "quality") :: opening :: (ts ++ comma :: (ts' ++ [close])))
        (.quality connection tag, refs ++ second.2)
  | call {opening close : Token} {ts : List Token} {name : JsString}
      {args : List Node × List (JsString × JsString)} (hname : name ∈ functions)
      (hopen : Reads wide opening "(") (h : ArgumentList wide sub ts args)
      (hclose : Reads wide close ")") :
      Closed (.symbol name :: opening :: (ts ++ [close])) (.call name args.1, args.2)

/-- A unary operator takes the powers after it. -/
inductive Signed : List Token → Parsed → Prop
  | mk {op : JsString} {ts : List Token} {a : Parsed} (hop : op ∈ ["!", "+", "-"].map js)
      (h : sub 7 ts a) : Signed (.symbol op :: ts) (.unary op a.1, a.2)

end

/-- The texts of a level with at most so many levels of nesting. -/
def Derives (wide : Bool) : Nat → Reading
  | 0 => fun _ _ _ => False
  | n + 1 => (grammarOperators wide).Chain (Closed wide (Derives wide n)) (Signed (Derives wide n))
      (Derives wide n)

/-- The source is generated by the grammar, with this tree. -/
def Generated (source : JsString) (tree : Node) : Prop :=
  ∃ tokens refs, tokensOf source = .ok tokens ∧ Derives false 64 0 tokens (tree, refs)

/-- No function name is followed by a token and the literal `")"`. -/
def NoQuotedClose (ts : List Token) : Prop :=
  ∀ pre name a rest, name ∈ functions →
    ts ≠ pre ++ .symbol name :: a :: .string (js ")") :: rest

mutual

/-- The references of a tree, in the order of the text. -/
def Node.refs : Node → List (JsString × JsString)
  | .literal _ => []
  | .tag connection name => [(connection, name)]
  | .quality connection name => [(connection, name)]
  | .unary _ arg => arg.refs
  | .binary _ left right => left.refs ++ right.refs
  | .call _ args => Node.refsAll args

def Node.refsAll : List Node → List (JsString × JsString)
  | [] => []
  | arg :: args => arg.refs ++ Node.refsAll args

end

/-- The compiler does what the grammar says, and the evaluation accesses dependencies only. -/
structure CompilesRight (source : JsString) : Prop where
  grammar : ∀ tree deps, compile source = .ok (tree, deps) ↔
    Generated source tree ∧ deps = distinct tree.refs
  access : ∀ tree deps, compile source = .ok (tree, deps) → ∀ (V : Type) (values : Values V)
    (access : List Access → Access → Except String V), ∀ x ∈ (evaluate values access tree).1,
      x.pair ∈ deps

/-- The wider grammar reads the tokens as the grammar does: they are in the grammar if and only if
they are in the wider one and no function name is followed by a token and the literal `")"`. -/
def ReadAlike (source : JsString) : Prop :=
  ∀ tokens, tokensOf source = .ok tokens →
    ((∃ a, Derives false 64 0 tokens a) ↔
      (∃ a, Derives true 64 0 tokens a) ∧ NoQuotedClose tokens)

/-! ## The two grammars -/

theorem Reads.wider {token : Token} {text : String} (h : Reads false token text) :
    Reads true token text := by
  rcases h with h | ⟨h, -⟩
  · exact .inl h
  · cases h

theorem reads_text {token : Token} {text : String} :
    Reads true token text ↔ token.text = some (js text) := by
  unfold Reads Token.text
  cases token with
  | number t => simp
  | string value => simp
  | symbol value => simp

theorem grammarOperators_true : grammarOperators true = operators := by
  refine Operators.ext (funext fun token => ?_) rfl rfl
  cases token <;> rfl

section
variable {sub sub' : Reading} (hsub : ∀ p ts a, sub p ts a → sub' p ts a)

include hsub

theorem ArgumentList.wider {ts : List Token} {args : List Node × List (JsString × JsString)}
    (h : ArgumentList false sub ts args) : ArgumentList true sub' ts args := by
  induction h with
  | one h => exact .one (hsub _ _ _ h)
  | more h hcomma _ ih => exact .more (hsub _ _ _ h) hcomma.wider ih

theorem Closed.wider {ts : List Token} {a : Parsed} (h : Closed false sub ts a) :
    Closed true sub' ts a := by
  cases h with
  | number text => exact .number text
  | string value => exact .string value
  | yes => exact .yes
  | no => exact .no
  | null => exact .null
  | paren h hclose => exact .paren (hsub _ _ _ h) hclose.wider
  | tag hopen hcomma hclose hc ht => exact .tag hopen.wider hcomma.wider hclose.wider hc ht
  | qualityTag hopen h hclose => exact .qualityTag hopen.wider (hsub _ _ _ h) hclose.wider
  | qualityNames hopen h hcomma h' hclose hc ht =>
    exact .qualityNames hopen.wider (hsub _ _ _ h) hcomma.wider (hsub _ _ _ h') hclose.wider hc ht
  | qualitySecond hwide => cases hwide
  | call hname hopen h hclose => exact .call hname hopen.wider (h.wider hsub) hclose.wider

end

theorem Derives.wider {n p : Nat} {ts : List Token} {a : Parsed} (h : Derives false n p ts a) :
    Derives true n p ts a := by
  induction n generalizing p ts a with
  | zero => cases h
  | succ n ih =>
    refine Operators.Chain.imp h rfl rfl (fun t q hq => ?_)
      (fun ts a hclosed => hclosed.wider fun _ _ _ h => ih h) (fun ts a hsigned => ?_)
      fun _ _ _ h => ih h
    · cases t with
      | number t => cases hq
      | string value => cases hq
      | symbol value => exact hq
    · cases hsigned with
      | mk hop h => exact .mk hop (ih h)

end OpcBridge.Hmi
