import OpcBridge.Lib.PrecedenceClimbing

/-!
# Trend expressions

The compiler of trend expressions: a scanner, a reader of operators by precedence over the tokens,
and the evaluation of the tree. A text of the browser is a list of UTF-16 code units, so that a
string literal may hold what no `String` can. `Token.text` is the value of a token without its kind,
which is what the source compares.
-/

namespace OpcBridge.Hmi

open Lib

/-! ## Texts -/

/-- UTF-16 code units. -/
abbrev JsString := List Nat

def js (s : String) : JsString := s.toList.map Char.toNat

/-- `\s` -/
def isSpace (c : Nat) : Bool :=
  c ∈ [9, 10, 11, 12, 13, 32, 0xa0, 0x1680, 0x2028, 0x2029, 0x202f, 0x205f, 0x3000, 0xfeff] ||
    (0x2000 ≤ c && c ≤ 0x200a)

/-- What `.` does not match. -/
def isLineTerminator (c : Nat) : Bool := c ∈ [10, 13, 0x2028, 0x2029]

def isDigit (c : Nat) : Bool := '0'.toNat ≤ c && c ≤ '9'.toNat

def isNameStart (c : Nat) : Bool :=
  ('A'.toNat ≤ c && c ≤ 'Z'.toNat) || ('a'.toNat ≤ c && c ≤ 'z'.toNat) || c == '_'.toNat

def trim (source : JsString) : JsString :=
  ((source.dropWhile isSpace).reverse.dropWhile isSpace).reverse

/-! ## Tokens -/

inductive Token
  /-- The text of a number; its value is `Number` of it. -/
  | number (text : JsString)
  | string (value : JsString)
  | symbol (value : JsString)
deriving DecidableEq

/-- The text of a quoted string up to the closing quote, and what follows. -/
def scanQuoted (quote : Nat) : JsString → Option (JsString × JsString)
  | [] => none
  | c :: rest =>
    if c = quote then some ([], rest)
    else if c = '\\'.toNat then
      match rest with
      | [] => none
      | e :: rest =>
        if isLineTerminator e then none
        else (scanQuoted quote rest).map fun scanned => (c :: e :: scanned.1, scanned.2)
    else (scanQuoted quote rest).map fun scanned => (c :: scanned.1, scanned.2)

def hexDigit (c : Nat) : Option Nat :=
  if isDigit c then some (c - '0'.toNat)
  else if 'a'.toNat ≤ c ∧ c ≤ 'f'.toNat then some (c - 'a'.toNat + 10)
  else if 'A'.toNat ≤ c ∧ c ≤ 'F'.toNat then some (c - 'A'.toNat + 10)
  else none

/-- The escapes of JSON of one character. -/
def jsonEscape (c : Nat) : Option Nat :=
  if c ∈ js "\"\\/" then some c
  else if c = 'b'.toNat then some 8
  else if c = 'f'.toNat then some 12
  else if c = 'n'.toNat then some 10
  else if c = 'r'.toNat then some 13
  else if c = 't'.toNat then some 9
  else none

/-- `JSON.parse` of a double-quoted string, without its quotes. -/
def decodeDouble : JsString → Option JsString
  | [] => some []
  | c :: rest =>
    if c < 32 then none
    else if c = '\\'.toNat then
      match rest with
      | [] => none
      | e :: rest =>
        if e = 'u'.toNat then
          match rest with
          | a :: b :: c :: d :: rest => do
            let a ← hexDigit a
            let b ← hexDigit b
            let c ← hexDigit c
            let d ← hexDigit d
            let decoded ← decodeDouble rest
            some ((((a * 16 + b) * 16 + c) * 16 + d) :: decoded)
          | _ => none
        else do
          let e ← jsonEscape e
          let decoded ← decodeDouble rest
          some (e :: decoded)
    else do
      let decoded ← decodeDouble rest
      some (c :: decoded)

/-- A single-quoted string, without its quotes: other escapes stay as they are. -/
def decodeSingle : JsString → JsString
  | [] => []
  | c :: rest =>
    if c = '\\'.toNat then
      match rest with
      | [] => [c]
      | e :: rest =>
        if e ∈ js "'\"\\" then e :: decodeSingle rest
        else if e = 'n'.toNat then 10 :: decodeSingle rest
        else if e = 'r'.toNat then 13 :: decodeSingle rest
        else if e = 't'.toNat then 9 :: decodeSingle rest
        else c :: e :: decodeSingle rest
    else c :: decodeSingle rest

/-- The operators and punctuation, the longest first. -/
def symbolTexts : List JsString :=
  ["===", "!==", "==", "!=", "<=", ">=", "&&", "||", "**",
    "(", ")", "+", "-", "*", "/", "%", ",", "!", "<", ">"].map js

/-- One token; what the sticky expression matches after the blanks. -/
def scanToken : JsString → Except String (Token × JsString)
  | [] => .error "Unsupported expression syntax."
  | c :: rest =>
    if isDigit c then
      let whole := c :: rest.takeWhile isDigit
      match rest.dropWhile isDigit with
      | [] => .ok (.number whole, [])
      | d :: rest =>
        if d = '.'.toNat then
          .ok (.number (whole ++ d :: rest.takeWhile isDigit), rest.dropWhile isDigit)
        else .ok (.number whole, d :: rest)
    else if c = '.'.toNat ∧ (rest.head?.any isDigit) = true then
      .ok (.number (c :: rest.takeWhile isDigit), rest.dropWhile isDigit)
    else if c = '"'.toNat then
      match scanQuoted c rest with
      | none => .error "Unsupported expression syntax."
      | some (text, rest) =>
        match decodeDouble text with
        | none => .error "JSON.parse"
        | some value => .ok (.string value, rest)
    else if c = '\''.toNat then
      match scanQuoted c rest with
      | none => .error "Unsupported expression syntax."
      | some (text, rest) => .ok (.string (decodeSingle text), rest)
    else if isNameStart c then
      let isNamePart c := isNameStart c || isDigit c
      .ok (.symbol (c :: rest.takeWhile isNamePart), rest.dropWhile isNamePart)
    else match symbolTexts.find? (·.isPrefixOf (c :: rest)) with
      | some text => .ok (.symbol text, (c :: rest).drop text.length)
      | none => .error "Unsupported expression syntax."

/-- All tokens; every token takes a character, so that the length is enough fuel. -/
def scan : Nat → JsString → Except String (List Token)
  | _, [] => .ok []
  | 0, _ => .error "Unsupported expression syntax."
  | n + 1, source => do
    let (token, rest) ← scanToken (source.dropWhile isSpace)
    let tokens ← scan n rest
    .ok (token :: tokens)

/-! ## Trees -/

inductive Literal
  | number (text : JsString)
  | string (value : JsString)
  | bool (b : Bool)
  | null
deriving DecidableEq

inductive Node
  | literal (value : Literal)
  | tag (connection tag : JsString)
  | quality (connection tag : JsString)
  | unary (op : JsString) (arg : Node)
  | binary (op : JsString) (left right : Node)
  | call (name : JsString) (args : List Node)

def functions : List JsString := ["min", "max", "abs", "round", "floor", "ceil"].map js

def precedenceTable : List (String × Nat) :=
  [("||", 1), ("&&", 2), ("==", 3), ("!=", 3), ("===", 3), ("!==", 3), ("<", 4), (">", 4),
    ("<=", 4), (">=", 4), ("+", 5), ("-", 5), ("*", 6), ("/", 6), ("%", 6), ("**", 7)]

/-- `precedence` -/
def precedence (op : JsString) : Option Nat :=
  (precedenceTable.find? fun entry => js entry.1 == op).map Prod.snd

/-- The value of a token as `peek` gives it; a number is no text. -/
def Token.text : Token → Option JsString
  | .number _ => none
  | .string value => some value
  | .symbol value => some value

/-! ## Reading -/

/-- A tree and the dependencies that were set while it was read, in order. -/
abbrev Parsed := Node × List (JsString × JsString)

/-- `take` -/
def take (value : String) : List Token → Except String (List Token)
  | token :: rest =>
    if token.text = some (js value) then .ok rest else .error ("Expected " ++ value ++ ".")
  | [] => .error ("Expected " ++ value ++ ".")

def operators : Operators Token Parsed where
  level token := token.text.bind precedence
  top := 7
  build token left right := (.binary (token.text.getD []) left.1 right.1, left.2 ++ right.2)

section
variable (expression : Nat → List Token → Except String (Parsed × List Token))

/-- The `do` loop over the arguments of a function. -/
def arguments : Nat → List Token →
    Except String ((List Node × List (JsString × JsString)) × List Token)
  | 0, _ => .error "out of tokens"
  | n + 1, tokens => do
    let ((arg, refs), rest) ← expression 0 tokens
    match rest with
    | token :: more =>
      if token.text = some (js ",") then do
        let ((args, others), rest) ← arguments n more
        .ok ((arg :: args, refs ++ others), rest)
      else .ok (([arg], refs), rest)
    | [] => .ok (([arg], refs), rest)

/-- `tag(connection, tag)`, after the word. -/
def tagReference (tokens : List Token) : Except String (Parsed × List Token) := do
  let tokens ← take "(" tokens
  let tokens' ← take "," (tokens.drop 1)
  let rest ← take ")" (tokens'.drop 1)
  match tokens.head?, tokens'.head? with
  | some (.string connection), some (.string tag) =>
    if connection = [] ∨ tag = [] then
      .error "tag() requires a connection and tag in quotes."
    else .ok ((.tag connection tag, [(connection, tag)]), rest)
  | _, _ => .error "tag() requires a connection and tag in quotes."

/-- What `quality` makes of its arguments. -/
def qualityNode (arg : Parsed) (second : Option Parsed) : Except String Parsed :=
  let refs := arg.2 ++ (second.map Prod.snd).getD []
  match arg.1, second.map Prod.fst with
  | .literal (.string connection), some (.literal (.string tag)) =>
    if connection = [] ∨ tag = [] then .error "quality() requires a tag reference."
    else .ok (.quality connection tag, refs ++ [(connection, tag)])
  | .tag connection tag, _ => .ok (.quality connection tag, refs)
  | _, _ => .error "quality() requires a tag reference."

/-- `quality(…)`, after the word. -/
def qualityReference (tokens : List Token) : Except String (Parsed × List Token) := do
  let tokens ← take "(" tokens
  let (arg, rest) ← expression 0 tokens
  match rest with
  | token :: more =>
    if token.text = some (js ",") then do
      let (second, rest) ← expression 0 more
      let rest ← take ")" rest
      let node ← qualityNode arg (some second)
      .ok (node, rest)
    else do
      let rest ← take ")" rest
      let node ← qualityNode arg none
      .ok (node, rest)
  | [] => .error "Expected )."

/-- A function, after its name. -/
def functionCall (name : JsString) (tokens : List Token) : Except String (Parsed × List Token) := do
  let tokens ← take "(" tokens
  if tokens.head?.bind Token.text = some (js ")") then .error "Function needs an argument."
  else do
    let ((args, refs), rest) ← arguments expression tokens.length tokens
    let rest ← take ")" rest
    .ok ((.call name args, refs), rest)

/-- The first operand of an expression. -/
def operand : List Token → Except String (Parsed × List Token)
  | [] => .error "Incomplete expression."
  | .number text :: rest => .ok ((.literal (.number text), []), rest)
  | .string value :: rest => .ok ((.literal (.string value), []), rest)
  | .symbol value :: rest =>
    if value ∈ ["!", "+", "-"].map js then do
      let ((arg, refs), rest) ← expression 7 rest
      .ok ((.unary value arg, refs), rest)
    else if value = js "(" then do
      let (node, rest) ← expression 0 rest
      let rest ← take ")" rest
      .ok (node, rest)
    else if value = js "true" then .ok ((.literal (.bool true), []), rest)
    else if value = js "false" then .ok ((.literal (.bool false), []), rest)
    else if value = js "null" then .ok ((.literal .null, []), rest)
    else if value = js "tag" then tagReference rest
    else if value = js "quality" then qualityReference expression rest
    else if value ∈ functions then functionCall expression value rest
    else .error ("Unsupported token: " ++ String.ofList (value.map Char.ofNat))

end

/-- `expression(min)` with so many levels of nesting left. -/
def expression : Nat → Nat → List Token → Except String (Parsed × List Token)
  | 0, _, _ => .error "Expression nesting exceeds 64 levels."
  | n + 1, min, tokens => do
    let (node, rest) ← operand (expression n) tokens
    operators.climb (expression n) min rest.length node rest

/-- The keys of a map in the order in which they were set first. -/
def distinct (refs : List (JsString × JsString)) : List (JsString × JsString) :=
  refs.foldl (fun keys ref => if ref ∈ keys then keys else keys ++ [ref]) []

/-- The trimmed source has 1 to 4096 characters and these tokens. -/
def tokensOf (source : JsString) : Except String (List Token) :=
  let source := trim source
  if source = [] ∨ 4096 < source.length then .error "Expression must contain 1–4096 characters."
  else scan source.length source

/-- The tree and the dependencies. -/
def compile (source : JsString) : Except String Parsed := do
  let tokens ← tokensOf source
  let ((tree, refs), rest) ← expression 64 0 tokens
  if rest = [] then .ok (tree, distinct refs) else .error "Unexpected expression token."

/-! ## Evaluation -/

inductive Access
  | read (connection tag : JsString)
  | quality (connection tag : JsString)

def Access.pair : Access → JsString × JsString
  | .read connection tag => (connection, tag)
  | .quality connection tag => (connection, tag)

/-- The values, and what the operators and functions of the language make of them. -/
structure Values (V : Type) where
  literal : Literal → V
  truthy : V → Bool
  unary : JsString → V → Except String V
  binary : JsString → V → V → Except String V
  call : JsString → List V → Except String V
  /-- The value as a finite number, or an error. -/
  result : V → Except String V

section
variable {V : Type} (values : Values V) (access : List Access → Access → Except String V)

mutual

/-- The accesses so far are passed on, as `read` and `quality` may depend on them. -/
def Node.run : Node → List Access → List Access × Except String V
  | .literal value, log => (log, .ok (values.literal value))
  | .tag connection name, log =>
    (log ++ [.read connection name], access log (.read connection name))
  | .quality connection name, log =>
    (log ++ [.quality connection name], access log (.quality connection name))
  | .call name args, log =>
    match Node.runAll args log with
    | (log, .error e) => (log, .error e)
    | (log, .ok args) => (log, values.call name args)
  | .unary op arg, log =>
    match Node.run arg log with
    | (log, .error e) => (log, .error e)
    | (log, .ok a) => (log, values.unary op a)
  | .binary op left right, log =>
    match Node.run left log with
    | (log, .error e) => (log, .error e)
    | (log, .ok a) =>
      if op = js "&&" ∧ !values.truthy a then (log, .ok a)
      else if op = js "||" ∧ values.truthy a then (log, .ok a)
      else match Node.run right log with
        | (log, .error e) => (log, .error e)
        | (log, .ok b) =>
          if op = js "&&" ∨ op = js "||" then (log, .ok b) else (log, values.binary op a b)

def Node.runAll : List Node → List Access → List Access × Except String (List V)
  | [], log => (log, .ok [])
  | arg :: args, log =>
    match Node.run arg log with
    | (log, .error e) => (log, .error e)
    | (log, .ok a) =>
      match Node.runAll args log with
      | (log, .error e) => (log, .error e)
      | (log, .ok args) => (log, .ok (a :: args))

end

/-- `evaluate` -/
def evaluate (tree : Node) : List Access × Except String V :=
  match tree.run values access [] with
  | (log, .error e) => (log, .error e)
  | (log, .ok value) => (log, values.result value)

end

end OpcBridge.Hmi
