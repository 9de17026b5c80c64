import OpcBridge.Core.Text
import Mathlib.Data.Finset.Insert

/-!
# Read dependencies of an automation

`automationReadDependencies` answers which tags a script may read, from its tokens alone: every
read call must have literal arguments, and a construct it does not know makes the answer
incomplete. Strings and comments are tokens.
-/

namespace OpcBridge

/-! ## Tokens -/

structure Token where
  text : List Char
  literal : Bool := false
  escaped : Bool := false
deriving DecidableEq

structure AutomationDependencies where
  complete : Bool := true
  reason : String := "literal_dependencies"
  reads : Finset (String × String) := ∅
deriving DecidableEq

/-- The first reason counts. -/
def AutomationDependencies.uncertain (deps : AutomationDependencies) (why : String) :
    AutomationDependencies :=
  { deps with complete := false, reason := if deps.complete then why else deps.reason }

/-- A character inside a word. -/
def isIdentChar (c : Char) : Bool := isAlnum c || c == '_' || c == '$'

/-- A character that begins a word. -/
def isIdentStart (c : Char) : Bool := isAlpha c || c == '_' || c == '$'

/-- The text after the next `*/`. -/
def skipBlockComment : List Char → Option (List Char)
  | '*' :: '/' :: rest => some rest
  | _ :: rest => skipBlockComment rest
  | [] => none

/-- A string after its opening quote. -/
structure StringScan where
  text : List Char
  escaped : Bool := false
  multiline : Bool := false
  /-- What follows the closing quote; `none` is an unterminated string. -/
  rest : Option (List Char)
deriving DecidableEq

def scanString (quote : Char) : List Char → StringScan
  | [] => { text := [], rest := none }
  | c :: cs =>
    if c = quote then { text := [], rest := some cs }
    else if c = '\\' then
      match cs with
      | [] => { text := [], escaped := true, rest := none }
      | d :: ds =>
        let scan := scanString quote ds
        { scan with text := c :: d :: scan.text, escaped := true }
    else
      let scan := scanString quote cs
      { scan with
        text := c :: scan.text, multiline := c == '\n' || c == '\r' || scan.multiline }

structure LexState where
  tokens : List Token := []
  result : AutomationDependencies := {}
  /-- Open brackets, the innermost first. -/
  delimiters : List Char := []

/-- A character that is a token of its own. -/
def lexPunctuation (s : LexState) (c : Char) : LexState :=
  let result :=
    if c ∈ ['`', '[', ']', '.', '\\', '/'] ∨ 128 ≤ c.toNat then s.result.uncertain "unsupported_syntax"
    else s.result
  let s := { s with result := result, tokens := s.tokens ++ [{ text := [c] }] }
  if c = '(' ∨ c = '{' then { s with delimiters := c :: s.delimiters }
  else if c = ')' ∨ c = '}' then
    let expected := if c = ')' then '(' else '{'
    match s.delimiters with
    | d :: delimiters =>
      if d = expected then { s with delimiters := delimiters }
      else { s with result := s.result.uncertain "unbalanced_delimiters" }
    | [] => { s with result := s.result.uncertain "unbalanced_delimiters" }
  else s

/-- The token loop; an error is the result of an early return. The fuel bounds the iterations, each
of which takes at least a character. -/
def lexLoop : Nat → List Char → LexState → Except AutomationDependencies LexState
  | 0, _, s => .ok s
  | _ + 1, [], s => .ok s
  | n + 1, c :: cs, s =>
    if isSpace c then lexLoop n cs s
    else if c = '/' ∧ cs.head? = some '/' then lexLoop n (cs.dropWhile (· ≠ '\n')) s
    else if c = '/' ∧ cs.head? = some '*' then
      match skipBlockComment cs.tail with
      | none => .error (s.result.uncertain "unterminated_comment")
      | some rest => lexLoop n rest s
    else if c = '\'' ∨ c = '"' then
      let scan := scanString c cs
      let result := if scan.multiline then s.result.uncertain "multiline_string" else s.result
      match scan.rest with
      | none => .error (result.uncertain "unterminated_string")
      | some rest =>
        lexLoop n rest { s with
          result := result
          tokens := s.tokens ++ [{ text := scan.text, literal := true, escaped := scan.escaped }] }
    else if isIdentStart c then
      lexLoop n (cs.dropWhile isIdentChar) { s with
        tokens := s.tokens ++ [{ text := c :: cs.takeWhile isIdentChar }] }
    else if isDigit c then
      let inNumber := fun d => isDigit d || d == '.'
      lexLoop n (cs.dropWhile inNumber) { s with
        tokens := s.tokens ++ [{ text := c :: cs.takeWhile inNumber }] }
    else lexLoop n cs (lexPunctuation s c)

/-! ## Calls -/

def pureHelpers : List String :=
  ["json", "hasjson", "jsonobj", "jsonset", "jsonarray", "str", "num", "number", "bool", "concat",
    "lower", "upper", "trim", "contains", "startswith", "endswith", "bit", "bits", "map", "clamp",
    "round", "min", "max"]

def unsupportedWords : List String :=
  ["function", "class", "new", "eval", "while", "for", "import", "yield", "await"]

/-- `!token.literal && token.text == s` -/
def Token.isPlain (token : Token) (text : String) : Bool :=
  !token.literal && token.text == text.toList

/-- A string literal without escapes. -/
def Token.isPlainLiteral (token : Token) : Bool := token.literal && !token.escaped

/-- The loop body for the token `token` before the tokens `rest`. -/
def tokenDependencies (token : Token) (rest : List Token) (deps : AutomationDependencies) :
    AutomationDependencies :=
  if token.literal then deps
  else
    let chars := token.text.map lowerChar
    let name := String.ofList chars
    let deps := if name ∈ unsupportedWords then deps.uncertain "unsupported_construct" else deps
    let call := match rest with
      | next :: _ => next.isPlain "("
      | [] => false
    let helper := name ∈ ["tag", "quality", "hastag", "settag"]
    if helper ∧ !call then deps.uncertain "indirect_tag_helper"
    else if !call || !(chars.head?.any isIdentStart) then deps
    else if name = "if" ∨ name ∈ pureHelpers then deps
    else if !helper then deps.uncertain "unknown_function"
    else
      match rest with
      | _ :: cid :: comma :: tag :: close :: _ =>
        if !cid.isPlainLiteral || !comma.isPlain "," || !tag.isPlainLiteral ||
            !close.isPlain (if name = "settag" then "," else ")") then
          deps.uncertain "dynamic_or_escaped_tag_reference"
        else if cid.text = [] ∨ tag.text = [] then deps.uncertain "empty_tag_reference"
        else if (name = "tag" ∨ name = "quality") ∧ String.ofList cid.text ≠ "_system" then
          { deps with
            reads := insert (String.ofList cid.text, String.ofList tag.text) deps.reads }
        else deps
      | _ => deps.uncertain "dynamic_or_escaped_tag_reference"

def tokensDependencies : List Token → AutomationDependencies → AutomationDependencies
  | [], deps => deps
  | token :: rest, deps => tokensDependencies rest (tokenDependencies token rest deps)

def automationReadDependencies (source : String) : AutomationDependencies :=
  match lexLoop (source.length + 1) source.toList {} with
  | .error result => result
  | .ok s =>
    let result :=
      if s.delimiters ≠ [] then s.result.uncertain "unbalanced_delimiters" else s.result
    tokensDependencies s.tokens result

example : (automationReadDependencies "x = tag('C', 'A') + 1;").complete = true ∧
    (automationReadDependencies "x = tag('C', 'A') + 1;").reads = {("C", "A")} := by decide +kernel

example : (automationReadDependencies "x = tag(c, 'A');").reason =
    "dynamic_or_escaped_tag_reference" := by decide +kernel

end OpcBridge
