import OpcBridge.Core.Scanf
import OpcBridge.Lib.Split
import Mathlib.Data.Char

/-!
# Node ids and back

The way of `defer_native_read` from the id of a tag node to the connection and the tag: the text
behind `Tags/` is cut at its first slash, and each half is decoded. It undoes `ua_tag_nodeid_string`
on every pair of byte strings (`nodeid_codec`).
-/

namespace OpcBridge

open Lib

/-- A text of bytes. -/
structure ByteText where
  text : String
  bytes : ∀ c ∈ text.toList, c.toNat < 256

/-! ## Decoding -/

def isHexDigit (c : Char) : Bool :=
  isDigit c || ('a' ≤ c && c ≤ 'f') || ('A' ≤ c && c ≤ 'F')

def hexValue (c : Char) : Nat :=
  if isDigit c then c.toNat - 48 else if 'a' ≤ c then c.toNat - 87 else c.toNat - 55

/-- `std::stoi(text, &consumed, 16)` of a text too short for an overflow: the number, and how many
characters it took. -/
def stoiHex (cs : List Char) : Option (Int × Nat) :=
  let (neg, body) := takeSign (cs.dropWhile isSpace)
  let digits :=
    match body with
    | '0' :: x :: d :: rest => if (x = 'x' ∨ x = 'X') ∧ isHexDigit d then d :: rest else body
    | body => body
  let ds := digits.takeWhile isHexDigit
  if ds.isEmpty then none
  else some (signed neg (ds.foldl (fun n d => 16 * n + hexValue d) 0),
    cs.length - (digits.dropWhile isHexDigit).length)

/-- `static_cast<char>` -/
def charOfByte (byte : Int) : Char := Char.ofNat (byte % 256).toNat

def decodeSegment : List Char → Option (List Char)
  | [] => some []
  | '%' :: a :: b :: rest =>
    match stoiHex [a, b] with
    | some (byte, 2) => (decodeSegment rest).map (charOfByte byte :: ·)
    | _ => none
  | c :: rest => if c = '%' then none else (decodeSegment rest).map (c :: ·)

/-- The connection and the tag of a node id; `none` where the read is not taken or rejected. -/
def nativeReadTarget (key : String) : Option (String × String) :=
  if "Tags/".toList.isPrefixOf key.toList then
    match splitFirst '/' (key.toList.drop 5) with
    | none => none
    | some (cid, name) =>
      match decodeSegment cid, decodeSegment name with
      | some cid, some name => some (String.ofList cid, String.ofList name)
      | _, _ => none
  else none

def uaConnectionNodeidString (connId : String) : String :=
  "Connections/" ++ uaNodeidEscapeSegment connId

/-! ## One character -/

theorem stoiHex_digits : ∀ a < 16, ∀ b < 16,
    stoiHex [hexDigit a, hexDigit b] = some (((16 * a + b : Nat) : Int), 2) := by
  decide +kernel

theorem hexDigit_ne_slash : ∀ a < 16, hexDigit a ≠ '/' := by decide

/-- What a character of a segment becomes. -/
def escapeChar (c : Char) : List Char :=
  if isAlnum c || c == '_' || c == '-' || c == '.' then [c]
  else ['%', hexDigit (c.toNat / 16 % 16), hexDigit (c.toNat % 16)]

theorem toList_escapeSegment (s : String) :
    (uaNodeidEscapeSegment s).toList = s.toList.flatMap escapeChar := String.toList_ofList

theorem decodeSegment_plain {c : Char} (hc : c ≠ '%') (rest : List Char) :
    decodeSegment (c :: rest) = (decodeSegment rest).map (c :: ·) := by
  rw [decodeSegment.eq_def]
  split
  · rename_i heq
    cases heq
  · rename_i heq
    cases heq
    exact absurd rfl hc
  · rename_i heq
    cases heq
    rw [if_neg hc]

theorem decodeSegment_escapeChar {c : Char} (hc : c.toNat < 256) (rest : List Char) :
    decodeSegment (escapeChar c ++ rest) = (decodeSegment rest).map (c :: ·) := by
  unfold escapeChar
  split
  · rename_i hsafe
    have hne : c ≠ '%' := by
      rintro rfl
      revert hsafe
      decide
    exact decodeSegment_plain hne rest
  · have hread := stoiHex_digits (c.toNat / 16 % 16) (by omega) (c.toNat % 16) (by omega)
    have hbyte : charOfByte ((16 * (c.toNat / 16 % 16) + c.toNat % 16 : Nat) : Int) = c := by
      have hsum : 16 * (c.toNat / 16 % 16) + c.toNat % 16 = c.toNat := by omega
      rw [hsum, charOfByte, show ((c.toNat : Int) % 256).toNat = c.toNat by omega, Char.ofNat_toNat]
    rw [List.cons_append, List.cons_append, List.cons_append, List.nil_append, decodeSegment, hread]
    show (decodeSegment rest).map (charOfByte _ :: ·) = _
    rw [hbyte]

theorem escapeChar_no_slash (c : Char) : '/' ∉ escapeChar c := by
  unfold escapeChar
  split
  · rename_i hsafe
    rw [List.mem_singleton]
    rintro rfl
    revert hsafe
    decide
  · simp only [List.mem_cons, List.not_mem_nil, or_false, not_or]
    exact ⟨by decide, Ne.symm (hexDigit_ne_slash _ (by omega)),
      Ne.symm (hexDigit_ne_slash _ (by omega))⟩

/-! ## Segments -/

/-- A segment of bytes is decoded. -/
theorem decodeSegment_escape (s : ByteText) :
    decodeSegment (uaNodeidEscapeSegment s.text).toList = some s.text.toList := by
  rw [toList_escapeSegment]
  have hbytes := s.bytes
  generalize s.text.toList = cs at hbytes
  induction cs with
  | nil => rfl
  | cons c cs ih =>
    rw [List.forall_mem_cons] at hbytes
    rw [List.flatMap_cons, decodeSegment_escapeChar hbytes.1, ih hbytes.2]
    rfl

theorem escapeSegment_no_slash (s : String) : '/' ∉ (uaNodeidEscapeSegment s).toList := by
  rw [toList_escapeSegment, List.mem_flatMap]
  rintro ⟨c, -, hc⟩
  exact escapeChar_no_slash c hc

/-- The way back from the id of a tag. -/
theorem nativeReadTarget_tag (conn name : ByteText) :
    nativeReadTarget (uaTagNodeidString conn.text name.text) = some (conn.text, name.text) := by
  have htext : (uaTagNodeidString conn.text name.text).toList = "Tags/".toList ++
      ((uaNodeidEscapeSegment conn.text).toList ++
        '/' :: (uaNodeidEscapeSegment name.text).toList) := by
    simp [uaTagNodeidString]
  have hprefix : "Tags/".toList.isPrefixOf (uaTagNodeidString conn.text name.text).toList = true := by
    rw [List.isPrefixOf_iff_prefix, htext]
    exact List.prefix_append _ _
  unfold nativeReadTarget
  rw [if_pos hprefix, htext, show 5 = "Tags/".toList.length from rfl, List.drop_left,
    splitFirst_append (escapeSegment_no_slash _)]
  dsimp only
  rw [decodeSegment_escape, decodeSegment_escape]
  dsimp only
  rw [String.ofList_toList, String.ofList_toList]

/-- **Node ids.** The id of a tag leads back to its connection and its name, so different tags have
different ids, and no connection has the id of a tag. -/
theorem nodeid_codec :
    (∀ conn name : ByteText,
      nativeReadTarget (uaTagNodeidString conn.text name.text) = some (conn.text, name.text)) ∧
    (∀ conn name conn' name' : ByteText,
      uaTagNodeidString conn.text name.text = uaTagNodeidString conn'.text name'.text →
        conn.text = conn'.text ∧ name.text = name'.text) ∧
    ∀ conn name conn' : ByteText,
      uaTagNodeidString conn.text name.text ≠ uaConnectionNodeidString conn'.text := by
  refine ⟨nativeReadTarget_tag, fun conn name conn' name' heq => ?_, fun conn name conn' heq => ?_⟩
  · have hback := nativeReadTarget_tag conn name
    rw [heq, nativeReadTarget_tag, Option.some.injEq, Prod.mk.injEq] at hback
    exact ⟨hback.1.symm, hback.2.symm⟩
  · have hhead := congrArg (fun s : String => s.toList.head?) heq
    simp [uaTagNodeidString, uaConnectionNodeidString] at hhead

end OpcBridge
