import OpcBridge.Core.Text
import OpcBridge.Lib.Chain
import OpcBridge.Lib.Literals

/-!
# Math expressions

`MathExpression` reads an expression from left to right and computes while it reads. The text that
is left stands for `position_`, and `size` is the length of the whole text, for the positions in the
errors. The numbers are a parameter.
-/

namespace OpcBridge.Flow

open Lib

/-- Numbers with the operations of the expressions. -/
class MathOps (α : Type) where
  ofInt : Int → α
  /-- The number of a literal; `none` is `std::out_of_range`. -/
  ofRat : ℚ → Option α
  add : α → α → α
  sub : α → α → α
  mul : α → α → α
  div : α → α → α
  fmod : α → α → α
  pow : α → α → α
  neg : α → α
  abs : α → α
  sqrt : α → α
  floor : α → α
  ceil : α → α
  round : α → α
  lt : α → α → Bool
  eq : α → α → Bool
  isFinite : α → Bool

namespace MathExpression

def whitespace (s : List Char) : List Char := s.dropWhile isSpace

def fail {β : Type} (size : Nat) (message : String) (rest : List Char) : Except String β :=
  .error ("Math expression: " ++ message ++ " at position " ++ toString (size - rest.length + 1))

variable {α : Type} [MathOps α]

/-! ## Functions -/

/-- `std::max` -/
def stdMax (a b : α) : α := if MathOps.lt a b then b else a

/-- `std::min` -/
def stdMin (a b : α) : α := if MathOps.lt b a then b else a

/-- `std::min_element` -/
def minElement (x : α) (xs : List α) : α := xs.foldl (fun m y => if MathOps.lt y m then y else m) x

/-- `std::max_element` -/
def maxElement (x : α) (xs : List α) : α := xs.foldl (fun m y => if MathOps.lt m y then y else m) x

def rounded (x scale : α) : α := MathOps.div (MathOps.round (MathOps.mul x scale)) scale

def function (size : Nat) (name : String) (a : List α) (rest : List Char) : Except String α :=
  match name, a with
  | "abs", [x] => .ok (MathOps.abs x)
  | "sqrt", [x] =>
    if MathOps.lt x (MathOps.ofInt 0) then fail size "sqrt requires a nonnegative value" rest
    else .ok (MathOps.sqrt x)
  | "floor", [x] => .ok (MathOps.floor x)
  | "ceil", [x] => .ok (MathOps.ceil x)
  | "pow", [x, y] => .ok (MathOps.pow x y)
  | "clamp", [x, low, high] => .ok (stdMax low (stdMin high x))
  | "round", [x] => .ok (rounded x (MathOps.ofInt 1))
  | "round", [x, digits] => .ok (rounded x (MathOps.pow (MathOps.ofInt 10) digits))
  | "min", x :: xs => .ok (minElement x xs)
  | "max", x :: xs => .ok (maxElement x xs)
  | _, _ => fail size ("unknown function or wrong number of arguments for '" ++ name ++ "'") rest

/-! ## The parser -/

/-- `expression`: the operators between terms. -/
def sumOp (c : Char) : Option (α → α → List Char → Except String α) :=
  if c = '+' then some fun a b _ => .ok (MathOps.add a b)
  else if c = '-' then some fun a b _ => .ok (MathOps.sub a b)
  else none

/-- `term`: the operators between its operands. -/
def termOp (size : Nat) (c : Char) : Option (α → α → List Char → Except String α) :=
  if c = '*' then some fun a b _ => .ok (MathOps.mul a b)
  else if c = '/' then
    some fun a b rest =>
      if MathOps.eq b (MathOps.ofInt 0) then fail size "division by zero" rest
      else .ok (MathOps.div a b)
  else if c = '%' then
    some fun a b rest =>
      if MathOps.eq b (MathOps.ofInt 0) then fail size "division by zero" rest
      else .ok (MathOps.fmod a b)
  else none

/-- The commas between arguments. -/
def argumentOp (c : Char) : Option (List α → List α → List Char → Except String (List α)) :=
  if c = ',' then some fun a b _ => .ok (a ++ b) else none

/-- `std::stod` -/
def number (s : List Char) : Except String (α × List Char) :=
  match scanNumber s with
  | none => .error "stod"
  | some (q, rest) =>
    match MathOps.ofRat q with
    | none => .error "stod"
    | some v => .ok (v, rest)

def isNameChar (c : Char) : Bool := isAlnum c || c == '_'

def argument (expression : Reader String α) : Reader String (List α) := fun s =>
  (expression s).map fun x => ([x.1], x.2)

/-- The end of a call. -/
def closeCall (size : Nat) (name : String) (args : List α) (s : List Char) :
    Except String (α × List Char) :=
  -- the loop over the arguments has skipped the white space
  match whitespace s with
  | ')' :: rest => (function size name args rest).map fun v => (v, rest)
  | rest => fail size "missing ) after function" rest

/-- After a name and `(`. -/
def call (size : Nat) (expression : Reader String α) (name : String) (s : List Char) :
    Except String (α × List Char) :=
  match whitespace s with
  | ')' :: rest => (function size name [] rest).map fun v => (v, rest)
  -- an expression skips the white space itself
  | _ => do
    let (args, rest) ← chain isSpace (argument expression) argumentOp s
    closeCall size name args rest

/-- After a name. -/
def inputOrCall (inputs : List (String × α)) (size : Nat) (expression : Reader String α)
    (name : String) (s : List Char) : Except String (α × List Char) :=
  match whitespace s with
  | '(' :: rest => call size expression name rest
  | rest =>
    match inputs.lookup name with
    | none => fail size ("unknown input '" ++ name ++ "'") rest
    | some v => .ok (v, rest)

/-- The end of an expression in parentheses. -/
def close (size : Nat) (v : α) (s : List Char) : Except String (α × List Char) :=
  match whitespace s with
  | ')' :: rest => .ok (v, rest)
  | rest => fail size "missing )" rest

def primary (inputs : List (String × α)) (size : Nat) (expression : Reader String α) :
    Reader String α := fun s =>
  match whitespace s with
  | '(' :: s => do
    let (v, rest) ← expression s
    close size v rest
  | s =>
    if s.head?.any fun c => isDigit c || c == '.' then number s
    else
      let name := s.takeWhile isNameChar
      if name = [] then fail size "expected a number, input, or function" s
      else inputOrCall inputs size expression (String.ofList name) (s.dropWhile isNameChar)

/-- The white space before each sign is skipped with the signs. -/
def unary (primary : Reader String α) : Reader String α
  | [] => primary []
  | c :: cs =>
    if isSpace c then unary primary cs
    else if c = '+' then unary primary cs
    else if c = '-' then (unary primary cs).map fun x => (MathOps.neg x.1, x.2)
    else primary (c :: cs)

/-- Each level of the recursion takes an opening parenthesis, so the text bounds their number. -/
def expression (inputs : List (String × α)) (size : Nat) : Nat → Reader String α
  | 0 => fun s => fail size "expected a number, input, or function" s
  | n + 1 =>
    chain isSpace (chain isSpace (unary (primary inputs size (expression inputs size n)))
      (termOp size)) sumOp

def evaluate (text : String) (inputs : List (String × α)) : Except String α := do
  let s := text.toList
  let (result, rest) ← expression inputs s.length (s.length + 1) s
  if whitespace rest ≠ [] then fail s.length "unexpected text" (whitespace rest)
  else if !MathOps.isFinite result then fail s.length "result is not finite" (whitespace rest)
  else .ok result

end MathExpression

end OpcBridge.Flow
