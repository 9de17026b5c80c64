import Mathlib.Data.List.Basic

/-!
# Text helpers

The C-locale character tests, the trimming and case folding, the `std::sto*` readers and the two
name parsers of `main.cpp` that the models below use. Bytes are modelled as `Char`; a byte above
127 is in none of the ASCII classes tested here.
-/

namespace OpcBridge

-- a statement about the characters of a list is decided along the list, not over all characters
attribute [instance (2000)] List.decidableBAll List.decidableBEx Option.decidableForallMem
  Option.decidableExistsMem

/-! ## Characters -/

/-- `std::isspace` -/
def isSpace (c : Char) : Bool :=
  c == ' ' || c == '\t' || c == '\n' || c == '\x0b' || c == '\x0c' || c == '\r'

/-- `std::isdigit` -/
def isDigit (c : Char) : Bool := '0' ≤ c && c ≤ '9'

/-- `std::isalpha` -/
def isAlpha (c : Char) : Bool := ('a' ≤ c && c ≤ 'z') || ('A' ≤ c && c ≤ 'Z')

/-- `std::isalnum` -/
def isAlnum (c : Char) : Bool := isAlpha c || isDigit c

/-- `std::tolower` -/
def lowerChar (c : Char) : Char :=
  if 'A' ≤ c ∧ c ≤ 'Z' then Char.ofNat (c.toNat + 32) else c

/-! ## Strings -/

def trimChars (cs : List Char) : List Char :=
  ((cs.dropWhile isSpace).reverse.dropWhile isSpace).reverse

def trimCopy (s : String) : String := String.ofList (trimChars s.toList)

theorem mem_trimChars {c : Char} {cs : List Char} (h : c ∈ cs) (hc : isSpace c = false) :
    c ∈ trimChars cs := by
  have hdrop : ∀ {cs : List Char}, c ∈ cs → c ∈ cs.dropWhile isSpace := by
    intro cs hmem
    rw [← @List.takeWhile_append_dropWhile _ isSpace cs, List.mem_append] at hmem
    rcases hmem with hmem | hmem
    · have hall : isSpace c = true := List.all_eq_true.1 List.all_takeWhile c hmem
      rw [hc] at hall
      cases hall
    · exact hmem
  unfold trimChars
  rw [List.mem_reverse]
  exact hdrop (List.mem_reverse.2 (hdrop h))

/-- Text that neither starts nor ends with a blank. -/
theorem trimChars_eq_self {cs : List Char} (hhead : ∀ c ∈ cs.head?, isSpace c = false)
    (hlast : ∀ c ∈ cs.getLast?, isSpace c = false) : trimChars cs = cs := by
  have hdrop : ∀ {ds : List Char}, (∀ c ∈ ds.head?, isSpace c = false) →
      ds.dropWhile isSpace = ds := by
    intro ds hds
    cases ds with
    | nil => rfl
    | cons d ds => rw [List.dropWhile_cons_of_neg (by simp [hds d rfl])]
  unfold trimChars
  rw [hdrop hhead, hdrop (by rw [List.head?_reverse]; exact hlast), List.reverse_reverse]

theorem head_dropWhile {p : Char → Bool} {cs : List Char} :
    ∀ c ∈ (cs.dropWhile p).head?, p c = false := by
  intro c hc
  have := List.head?_dropWhile_not p cs
  rw [Option.mem_def.1 hc] at this
  simpa using this

theorem trimChars_last {cs : List Char} : ∀ c ∈ (trimChars cs).getLast?, isSpace c = false := by
  intro c hc
  unfold trimChars at hc
  rw [List.getLast?_reverse] at hc
  exact head_dropWhile c hc

theorem trimChars_head {cs : List Char} : ∀ c ∈ (trimChars cs).head?, isSpace c = false := by
  intro c hc
  have hpre : trimChars cs <+: cs.dropWhile isSpace := by
    rw [← List.reverse_suffix, trimChars, List.reverse_reverse]
    exact List.dropWhile_suffix _
  obtain ⟨rest, heq⟩ := hpre
  refine head_dropWhile c (?_ : c ∈ (cs.dropWhile isSpace).head?)
  rw [← heq]
  cases htrim : trimChars cs with
  | nil =>
    rw [htrim] at hc
    cases hc
  | cons d ds =>
    rw [htrim] at hc
    exact hc

/-- Only blanks are trimmed away. -/
theorem trimChars_eq_nil {cs : List Char} : trimChars cs = [] ↔ ∀ c ∈ cs, isSpace c = true := by
  constructor
  · intro h c hc
    by_contra hspace
    have hmem := mem_trimChars hc (by simpa using hspace)
    rw [h] at hmem
    cases hmem
  · intro h
    have hdrop : cs.dropWhile isSpace = [] := by
      induction cs with
      | nil => rfl
      | cons c cs ih =>
        rw [List.dropWhile_cons_of_pos (h c List.mem_cons_self)]
        exact ih fun d hd => h d (List.mem_cons_of_mem _ hd)
    rw [trimChars, hdrop]
    rfl

@[simp] theorem trimCopy_trimCopy (s : String) : trimCopy (trimCopy s) = trimCopy s := by
  unfold trimCopy
  rw [String.toList_ofList, trimChars_eq_self trimChars_head trimChars_last]

theorem trimCopy_eq_empty {s : String} : trimCopy s = "" ↔ ∀ c ∈ s.toList, isSpace c = true := by
  rw [← trimChars_eq_nil, trimCopy, ← String.toList_inj, String.toList_ofList]
  rfl

def toLowerCopy (s : String) : String := String.ofList (s.toList.map lowerChar)

/-- The text before and after the last `c` (`rfind` and two `substr`). -/
def splitLast (c : Char) : List Char → Option (List Char × List Char)
  | [] => none
  | d :: ds =>
    match splitLast c ds with
    | some (a, b) => some (d :: a, b)
    | none => if d = c then some ([], ds) else none

theorem splitLast_append {c : Char} {xs ys : List Char} (h : c ∉ ys) :
    splitLast c (xs ++ c :: ys) = some (xs, ys) := by
  have hnone : ∀ zs : List Char, c ∉ zs → splitLast c zs = none := by
    intro zs hzs
    induction zs with
    | nil => rfl
    | cons z zs ih =>
      rw [List.mem_cons, not_or] at hzs
      rw [splitLast, ih hzs.2, if_neg (Ne.symm hzs.1)]
  induction xs with
  | nil => rw [List.nil_append, splitLast, hnone ys h, if_pos rfl]
  | cons x xs ih => rw [List.cons_append, splitLast, ih]

/-! ## Integers -/

def digitsVal (ds : List Char) : Nat := ds.foldl (fun n d => 10 * n + (d.toNat - 48)) 0

/-- The value `strtol` finds in base 10: blanks, a sign and at least one digit; what follows the
digits is ignored. `none` is `std::invalid_argument`. -/
def readInteger (cs : List Char) : Option Int :=
  let body := cs.dropWhile isSpace
  let neg := body.head? == some '-'
  let rest := if neg || body.head? == some '+' then body.tail else body
  let ds := rest.takeWhile isDigit
  if ds.isEmpty then none else some (if neg then -(digitsVal ds : Int) else digitsVal ds)

/-- `std::stoi`; `none` is either exception. -/
def stoi (s : String) : Option Int :=
  (readInteger s.toList).filter fun n => -2147483648 ≤ n && n ≤ 2147483647

/-- `std::stol` on a 64-bit `long`. -/
def stol (s : String) : Option Int :=
  (readInteger s.toList).filter fun n => -9223372036854775808 ≤ n && n ≤ 9223372036854775807

/-- `std::stoul` on a 64-bit `unsigned long`: a minus sign negates the unsigned value. -/
def stoul (s : String) : Option Nat :=
  ((readInteger s.toList).filter fun n => n.natAbs ≤ 18446744073709551615).map fun n =>
    (n % 18446744073709551616).toNat

/-! ## Names -/

/-- Splits `source.bit` with a bit from 0 to 63. -/
def parseBitQualifiedSourceName (name : String) : Option (String × Nat) :=
  match splitLast '.' (trimChars name.toList) with
  | none => none
  | some (before, bitText) =>
    if before.isEmpty || bitText.isEmpty || !bitText.all isDigit then none
    -- `stoi` cannot fail here except by overflow, and then the bit is out of range as well
    else if digitsVal bitText ≤ 63 then some (String.ofList before, digitsVal bitText)
    else none

/-- Splits `base[index]`. -/
def parseArrayElementLogicalName (name : String) : Option (String × Nat) :=
  match name.toList.getLast? with
  | some ']' =>
    match splitLast '[' name.toList.dropLast with
    | none => none
    | some (base, idxText) =>
      if base.isEmpty || idxText.isEmpty || !idxText.all isDigit then none
      else if digitsVal idxText ≤ 2147483647 then some (String.ofList base, digitsVal idxText)
      else none
  | _ => none

example : parseBitQualifiedSourceName " Word.7 " = some ("Word", 7) := by decide

example : parseArrayElementLogicalName "A[1][12]" = some ("A[1]", 12) := by decide

/-- The key of a tag in the tag table and in the runtime index. -/
def makeTagKey (connId logicalName : String) : String := connId ++ ":" ++ logicalName

theorem makeTagKey_inj {c a b : String} : makeTagKey c a = makeTagKey c b ↔ a = b := by
  constructor
  · intro h
    simpa [makeTagKey] using h
  · rintro rfl
    rfl

/-! ## Node ids -/

def hexDigit (n : Nat) : Char := (['0', '1', '2', '3', '4', '5', '6', '7', '8', '9', 'A', 'B', 'C',
  'D', 'E', 'F'][n]?).getD '0'

def uaNodeidEscapeSegment (s : String) : String :=
  String.ofList <| s.toList.flatMap fun c =>
    if isAlnum c || c == '_' || c == '-' || c == '.' then [c]
    else ['%', hexDigit (c.toNat / 16 % 16), hexDigit (c.toNat % 16)]

def uaTagNodeidString (connId logicalName : String) : String :=
  "Tags/" ++ uaNodeidEscapeSegment connId ++ "/" ++ uaNodeidEscapeSegment logicalName

example : uaTagNodeidString "PLC-1" "A[3]" = "Tags/PLC-1/A%5B3%5D" := by decide

end OpcBridge
