import OpcBridge.Flow.Validate
import OpcBridge.Lib.Words

/-!
# Bit operations and Combine

A `bit_operations` node works on words of 8, 16, 32 or 64 bits that it cuts out of a `uint64_t`
(`bitOperation_word`). A shift is refused if the count is the word size or more, but the count has
been cut to the word before that is checked, so 256 on bytes counts as 0
(`bit_operations_fixed_width`). The two halves of a word make the word again in a `combine` node, in
any order and after any earlier inputs.
-/

namespace OpcBridge.Flow

open Lib OpcBridge.Alarms

/-! ## Operations on words -/

inductive BitOp
  | and | or | xor | andNot | not | lowByte | highByte | lowWord | highWord | shiftLeft | shiftRight
  deriving DecidableEq

def BitOp.name : BitOp → String
  | and => "and"
  | or => "or"
  | xor => "xor"
  | andNot => "and_not"
  | not => "not"
  | lowByte => "low_byte"
  | highByte => "high_byte"
  | lowWord => "low_word"
  | highWord => "high_word"
  | shiftLeft => "shift_left"
  | shiftRight => "shift_right"

def BitOp.isShift : BitOp → Bool
  | shiftLeft | shiftRight => true
  | _ => false

/-- The operation on bit vectors. -/
def BitOp.apply {w : Nat} (op : BitOp) (x operand : BitVec w) : BitVec w :=
  match op with
  | .and => x &&& operand
  | .or => x ||| operand
  | .xor => x ^^^ operand
  | .andNot => x &&& ~~~operand
  | .not => ~~~x
  | .lowByte => (x.setWidth 8).setWidth w
  | .highByte => (x.extractLsb' 8 8).setWidth w
  | .lowWord => (x.setWidth 16).setWidth w
  | .highWord => (x.extractLsb' 16 16).setWidth w
  | .shiftLeft => x <<< operand
  | .shiftRight => x >>> operand

def wordSizes : List Nat := [8, 16, 32, 64]

/-- The settings that validation lets through. -/
structure BitOp.Allowed (op : BitOp) (w : Nat) : Prop where
  size : w ∈ wordSizes
  byte : op = highByte → 16 ≤ w
  word : op = highWord → 32 ≤ w

theorem BitOp.Allowed.le {op : BitOp} {w : Nat} (h : op.Allowed w) : w ≤ 64 := by
  have hsize := h.size
  simp only [wordSizes, List.mem_cons, List.not_mem_nil, or_false] at hsize
  omega

theorem bitWordMask_isMask {w : Nat} : IsMask (bitWordMask w) w := by
  unfold bitWordMask
  split
  · rename_i h
    exact (isMask_ofNat 64).mono h
  · exact isMask_ofNat w

theorem byte_isMask : IsMask 0xff 8 := isMask_ofNat 8

theorem word_isMask : IsMask 0xffff 16 := isMask_ofNat 16

/-- A bit above the register is not a bit of the word. -/
theorem and_getLsbD {w : Nat} (hw : w ≤ 64) (x : BitVec w) (i : Nat) :
    (decide (i < 64) && x.getLsbD i) = x.getLsbD i := by
  by_cases hi : i < 64
  · simp [hi]
  · simp [BitVec.getLsbD_of_ge x i (by omega)]

/-- The operation in the register is the operation on words. -/
theorem bitOperation_word {w : Nat} (hw : w ≤ 64) (op : BitOp) {x y : BitVec w} {a b : UInt64}
    (ha : a.toBitVec = x.setWidth 64) (hb : b.toBitVec = y.setWidth 64)
    (hcount : op.isShift = true → y.toNat < w) :
    (bitOperation op.name a b).toBitVec.setWidth w = op.apply x y := by
  cases op with
  | and =>
    show (a &&& b).toBitVec.setWidth w = x &&& y
    rw [UInt64.toBitVec_and, ha, hb, BitVec.setWidth_and, BitVec.setWidth_setWidth_of_le _ hw,
      BitVec.setWidth_setWidth_of_le _ hw, BitVec.setWidth_eq, BitVec.setWidth_eq]
  | or =>
    show (a ||| b).toBitVec.setWidth w = x ||| y
    rw [UInt64.toBitVec_or, ha, hb, BitVec.setWidth_or, BitVec.setWidth_setWidth_of_le _ hw,
      BitVec.setWidth_setWidth_of_le _ hw, BitVec.setWidth_eq, BitVec.setWidth_eq]
  | xor =>
    show (a ^^^ b).toBitVec.setWidth w = x ^^^ y
    rw [UInt64.toBitVec_xor, ha, hb, BitVec.setWidth_xor, BitVec.setWidth_setWidth_of_le _ hw,
      BitVec.setWidth_setWidth_of_le _ hw, BitVec.setWidth_eq, BitVec.setWidth_eq]
  | andNot =>
    show (a &&& ~~~b).toBitVec.setWidth w = x &&& ~~~y
    rw [UInt64.toBitVec_and, UInt64.toBitVec_not, ha, hb]
    refine BitVec.eq_of_getLsbD_eq fun i hi => ?_
    have hi64 : i < 64 := by omega
    simp [hi, hi64, -BitVec.getLsbD_eq_getElem]
  | not =>
    show (~~~a).toBitVec.setWidth w = ~~~x
    rw [UInt64.toBitVec_not, ha]
    refine BitVec.eq_of_getLsbD_eq fun i hi => ?_
    have hi64 : i < 64 := by omega
    simp [hi, hi64, -BitVec.getLsbD_eq_getElem]
  | lowByte =>
    show (a &&& 0xff).toBitVec.setWidth w = (x.setWidth 8).setWidth w
    rw [byte_isMask.and, ha]
    refine BitVec.eq_of_getLsbD_eq fun i hi => ?_
    simp [hi, -BitVec.getLsbD_eq_getElem]
  | highByte =>
    show (a >>> 8 &&& 0xff).toBitVec.setWidth w = (x.extractLsb' 8 8).setWidth w
    rw [byte_isMask.and, UInt64.toBitVec_shiftRight, ha]
    refine BitVec.eq_of_getLsbD_eq fun i hi => ?_
    simp [hi, and_getLsbD hw, -BitVec.getLsbD_eq_getElem]
  | lowWord =>
    show (a &&& 0xffff).toBitVec.setWidth w = (x.setWidth 16).setWidth w
    rw [word_isMask.and, ha]
    refine BitVec.eq_of_getLsbD_eq fun i hi => ?_
    simp [hi, -BitVec.getLsbD_eq_getElem]
  | highWord =>
    show (a >>> 16 &&& 0xffff).toBitVec.setWidth w = (x.extractLsb' 16 16).setWidth w
    rw [word_isMask.and, UInt64.toBitVec_shiftRight, ha]
    refine BitVec.eq_of_getLsbD_eq fun i hi => ?_
    simp [hi, and_getLsbD hw, -BitVec.getLsbD_eq_getElem]
  | shiftLeft =>
    show (a <<< b).toBitVec.setWidth w = x <<< y
    have hlt : y.toNat < w := hcount rfl
    have hmod : y.toNat % 64 = y.toNat := by omega
    rw [UInt64.toBitVec_shiftLeft, ha, hb]
    refine BitVec.eq_of_getLsbD_eq fun i hi => ?_
    simp [hi, hmod, hw, -BitVec.getLsbD_eq_getElem]
  | shiftRight =>
    show (a >>> b).toBitVec.setWidth w = x >>> y
    have hlt : y.toNat < w := hcount rfl
    have hmod : y.toNat % 64 = y.toNat := by omega
    rw [UInt64.toBitVec_shiftRight, ha, hb]
    refine BitVec.eq_of_getLsbD_eq fun i hi => ?_
    simp [hi, hmod, and_getLsbD hw, -BitVec.getLsbD_eq_getElem]

/-! ## The node -/

section
variable [Floats] [JsonLib] [FlowLib]

/-- The integer that a value stands for; a text or a whole float stands for what it parses to. -/
def integerOf (v : Json) : Option Int :=
  match v with
  | .int n => some n
  | .uint n => some n
  | v => (parseBitInteger v).map fun n => (n.toNat : Int)

theorem integerOf_spec {v : Json} {x : Int} (h : integerOf v = some x) :
    ∃ n, parseBitInteger v = some n ∧ ∀ w ≤ 64, n.toBitVec.setWidth w = BitVec.ofInt w x := by
  have hparsed : ∀ n : UInt64, (n.toNat : Int) = x →
      ∀ w ≤ 64, n.toBitVec.setWidth w = BitVec.ofInt w x := by
    intro n hn w hw
    rw [← hn, ← setWidth_ofInt hw, BitVec.ofInt_natCast, ← UInt64.toNat_toBitVec,
      BitVec.ofNat_toNat, BitVec.setWidth_eq]
  unfold integerOf at h
  split at h
  · obtain rfl := Option.some.inj h
    refine ⟨_, rfl, fun w hw => ?_⟩
    rw [toBitVec_ofInt, setWidth_ofInt hw]
  · obtain rfl := Option.some.inj h
    refine ⟨_, rfl, fun w hw => ?_⟩
    rw [BitVec.ofInt_natCast]
    show (BitVec.ofNat 64 _).setWidth w = _
    rw [BitVec.setWidth_ofNat_of_le hw]
  · obtain ⟨n, hn, rfl⟩ := Option.map_eq_some_iff.1 h
    exact ⟨n, hn, hparsed n rfl⟩

/-- A node that emits the word. -/
def wordNode (op : BitOp) (w : Nat) (operand : Json) (test : String) (comparison : Json)
    (invert : Bool) : NodeType :=
  .bitOperations op.name "result" test w operand comparison invert

/-- What the node should make of an integer: the operation on the word, and an error for a shift
by the word size or more. -/
def wordOutcome (e : FlowEvent) (op : BitOp) (w : Nat) (x : Int) (n : UInt64) :
    Except String FlowEvent :=
  if op.isShift = true ∧ w ≤ n.toNat then .error "shift count must be smaller than the word size"
  else .ok { e with
    value := .uint (op.apply (BitVec.ofInt w x) (BitVec.ofNat w n.toNat)).toNat }

/-- The count is the word size or more, and its word is less. -/
def CountWraps (op : BitOp) (w : Nat) (n : UInt64) : Prop :=
  op.isShift = true ∧ w ≤ n.toNat ∧ n.toNat % 2 ^ w < w

variable {op : BitOp} {w : Nat} {operand comparison : Json} {test : String} {invert : Bool}

omit [Floats] [JsonLib] [FlowLib] in
theorem name_mem_shifts (op : BitOp) :
    op.name ∈ ["shift_left", "shift_right"] ↔ op.isShift = true := by
  cases op <;> decide

/-- What the node makes of an integer; the count is cut to the word first. -/
theorem transform_word (hw : w ≤ 64) {e : FlowEvent} (he : e.writable = .ok ()) {x : Int}
    (hx : integerOf e.value = some x) {m : UInt64}
    (hm : (parseBitInteger operand).getD 0 = m) :
    transform e (wordNode op w operand test comparison invert) =
      if op.isShift = true ∧ w ≤ m.toNat % 2 ^ w then
        .error "shift count must be smaller than the word size"
      else .ok { e with
        value := .uint (op.apply (BitVec.ofInt w x) (BitVec.ofNat w m.toNat)).toNat } := by
  obtain ⟨n, hn, hword⟩ := integerOf_spec hx
  have hcount : (m &&& bitWordMask w).toNat = m.toNat % 2 ^ w := bitWordMask_isMask.toNat_and hw m
  unfold transform wordNode
  simp only [he, hn, hm, hcount, name_mem_shifts]
  show (if _ then _ else _) = _
  by_cases hshift : op.isShift = true ∧ w ≤ m.toNat % 2 ^ w
  · rw [if_pos hshift, if_pos hshift]
  · rw [if_neg hshift, if_neg hshift]
    have hoperand : m.toBitVec.setWidth w = BitVec.ofNat w m.toNat := by
      rw [← UInt64.toNat_toBitVec, ← BitVec.setWidth_ofNat_of_le hw, BitVec.ofNat_toNat,
        BitVec.setWidth_eq]
    have hlt : op.isShift = true → (BitVec.ofNat w m.toNat).toNat < w := by
      intro hs
      rw [BitVec.toNat_ofNat]
      exact not_le.1 fun hle => hshift ⟨hs, hle⟩
    have hbits := bitOperation_word hw op (x := BitVec.ofInt w x) (y := BitVec.ofNat w m.toNat)
      (a := n &&& bitWordMask w) (b := m &&& bitWordMask w)
      (by rw [bitWordMask_isMask.and, hword w hw]) (by rw [bitWordMask_isMask.and, hoperand]) hlt
    have hresult : (bitOperation op.name (n &&& bitWordMask w) (m &&& bitWordMask w) &&&
        bitWordMask w).toNat = (op.apply (BitVec.ofInt w x) (BitVec.ofNat w m.toNat)).toNat := by
      rw [← UInt64.toNat_toBitVec, bitWordMask_isMask.and, hbits, BitVec.toNat_setWidth_of_le hw]
    rw [if_neg (by simp), hresult]

/-- The calls that follow a computed value or a rejected event. -/
def answer (f : FlowDef) (q : QueuedEvent) : Except String FlowEvent → List Action
  | .error e => [.reject e]
  | .ok output => emitAll f q output

theorem nodeStep_word (f : FlowDef) (now : Int) (q : QueuedEvent) (s : NodeState) :
    (nodeStep f (wordNode op w operand test comparison invert) now q s).2 =
      answer f q (transform q.event (wordNode op w operand test comparison invert)) := rfl

theorem word_iff (hop : op.Allowed w) (f : FlowDef) (now : Int) (s : NodeState) {q : QueuedEvent}
    (he : q.event.writable = .ok ()) {x : Int} (hx : integerOf q.event.value = some x) {n : UInt64}
    (hn : parseBitInteger operand = some n) :
    (nodeStep f (wordNode op w operand test comparison invert) now q s).2 =
      answer f q (wordOutcome q.event op w x n) ↔ ¬ CountWraps op w n := by
  have hm : (parseBitInteger operand).getD 0 = n := by
    rw [hn]
    rfl
  rw [nodeStep_word, transform_word hop.le he hx hm]
  unfold wordOutcome
  by_cases hs : op.isShift = true
  · by_cases hle : w ≤ n.toNat
    · by_cases hcut : w ≤ n.toNat % 2 ^ w
      · rw [if_pos ⟨hs, hcut⟩, if_pos ⟨hs, hle⟩]
        exact iff_of_true rfl fun h => absurd h.2.2 (not_lt.2 hcut)
      · rw [if_neg fun h => hcut h.2, if_pos ⟨hs, hle⟩]
        refine iff_of_false (fun h => ?_) fun h => h ⟨hs, hle, not_le.1 hcut⟩
        cases h
    · have hcut : ¬ w ≤ n.toNat % 2 ^ w := fun h => hle (h.trans (Nat.mod_le _ _))
      rw [if_neg fun h => hcut h.2, if_neg fun h => hle h.2]
      exact iff_of_true rfl fun h => hle h.2.1
  · rw [if_neg fun h => hs h.1, if_neg fun h => hs h.1]
    exact iff_of_true rfl fun h => hs h.1

end

/-! ## Two halves -/

/-- The modes of Combine that put two halves together. -/
inductive Halves
  | bytes | words

namespace Halves

def mode : Halves → String
  | bytes => "two_bytes"
  | words => "two_words"

/-- The bits of a half. -/
def half : Halves → Nat
  | bytes => 8
  | words => 16

def highPort : Halves → String
  | bytes => "high_byte"
  | words => "high_word"

def lowPort : Halves → String
  | bytes => "low_byte"
  | words => "low_word"

def high : Halves → BitOp
  | bytes => .highByte
  | words => .highWord

def low : Halves → BitOp
  | bytes => .lowByte
  | words => .lowWord

end Halves

section
variable [Floats] [JsonLib] [FlowLib] {m : Halves} {w : Nat}

omit [Floats] [JsonLib] [FlowLib] in
theorem Halves.two_le (h : m.high.Allowed w) : m.half + m.half ≤ w := by
  cases m with
  | bytes => exact h.byte rfl
  | words => exact h.word rfl

/-- The reading of a word as an integer. -/
def reading (signedResult : Bool) {k : Nat} (r : BitVec k) : Int :=
  if signedResult then r.toInt else r.toNat

theorem integerOf_signed {k : Nat} (hpos : 0 < k) (hk : k ≤ 64) (r : BitVec k) {n : UInt64}
    (h : n.toBitVec = r.setWidth 64) (signedResult : Bool) :
    integerOf (if signedResult ∧ n &&& (1 <<< (UInt64.ofNat (k - 1))) ≠ 0 then
      .int (Int64.ofNat (n ||| ~~~bitWordMask k).toNat).toInt else .uint n.toNat) =
    some (reading signedResult r) := by
  have hnat : n.toNat = r.toNat := by
    rw [← UInt64.toNat_toBitVec, h, BitVec.toNat_setWidth_of_le hk]
  have hsign := sign_bit hpos hk r h
  cases signedResult with
  | false =>
    rw [if_neg (by simp), hnat]
    rfl
  | true =>
    by_cases hmsb : r.msb = true
    · rw [if_pos ⟨rfl, hsign.2 hmsb⟩, bitWordMask_isMask.signed hk r h hmsb]
      rfl
    · rw [if_neg fun hc => hmsb (hsign.1 hc.2), hnat]
      show some (r.toNat : Int) = some r.toInt
      rw [BitVec.toInt_eq_toNat_of_msb (by simpa using hmsb)]

/-- The retained value of a port is the word. -/
def Holds (retained : String → Option FlowEvent) (port : String) {w : Nat} (r : BitVec w) : Prop :=
  ∃ e, retained port = some e ∧ e.value = .uint r.toNat

theorem Holds.part {retained : String → Option FlowEvent} {port : String} {r : BitVec w}
    (h : Holds retained port r) :
    (((retained port).bind fun e => parseBitInteger e.value).getD 0).toBitVec = r.setWidth 64 := by
  obtain ⟨e, he, hvalue⟩ := h
  rw [he]
  show ((parseBitInteger e.value).getD 0).toBitVec = _
  rw [hvalue]
  show BitVec.ofNat 64 r.toNat = _
  rw [BitVec.ofNat_toNat]

/-- The halves of a word combine to its low bits. -/
theorem combined_halves (hhalf : m.half + m.half ≤ w) (x y : BitVec w)
    {retained : String → Option FlowEvent} (hhigh : Holds retained m.highPort (m.high.apply x y))
    (hlow : Holds retained m.lowPort (m.low.apply x y)) (signedResult : Bool) :
    integerOf (combined m.mode signedResult retained) =
      some (reading signedResult (x.setWidth (m.half + m.half))) := by
  have hhi := hhigh.part
  have hlo := hlow.part
  cases m with
  | bytes =>
    exact integerOf_signed (by decide) (by decide) (x.setWidth 16)
      (join_halves byte_isMask (by decide) hhalf (by decide) x hhi hlo) signedResult
  | words =>
    exact integerOf_signed (by decide) (by decide) (x.setWidth 32)
      (join_halves word_isMask (by decide) hhalf (by decide) x hhi hlo) signedResult

/-- A word that arrives at a labeled input. -/
structure Arrives (q : QueuedEvent) (port : String) (r : BitVec w) : Prop where
  port_eq : q.inputPort = port
  writable : q.event.writable = .ok ()
  value : q.event.value = .uint r.toNat

/-- The node's state and calls after an input that it retains. -/
theorem nodeStep_combine {f : FlowDef} {mode port : String} {signedResult : Bool} {now : Int}
    {q : QueuedEvent} {r : BitVec w} (h : Arrives q port r) (hport : port ∈ combinePorts mode)
    (s : NodeState) :
    nodeStep f (.combine mode signedResult) now q s =
      ({ s with combine := retain s.combine q },
        if (combinePorts mode).all fun port => (retain s.combine q port).isSome then
          emitAll f q { q.event with value := combined mode signedResult (retain s.combine q) }
        else [.status "waiting for all inputs"]) := by
  have hparse : (parseBitInteger q.event.value).isNone = false := by
    rw [h.value]
    rfl
  have hmem : ¬ q.inputPort ∉ combinePorts mode := by
    rw [h.port_eq]
    exact fun hn => hn hport
  have hretained : retention q s (.combine mode signedResult) = .ok {
      retained := retain s.combine q
      output :=
        if (combinePorts mode).all fun port => (retain s.combine q port).isSome then
          some (.ok { q.event with
            value := combined mode signedResult (retain s.combine q) })
        else none
      waiting := "waiting for all inputs" } := by
    unfold retention
    rw [h.writable]
    show (if _ then _ else _ : Except String Retention) = _
    rw [if_neg hmem, hparse, if_neg (by simp)]
  show retainStep f _ q s = _
  unfold retainStep
  rw [hretained]
  by_cases hall : ((combinePorts mode).all fun port => (retain s.combine q port).isSome) = true
  · simp only [if_pos hall]
    rfl
  · simp only [if_neg hall]
    rfl

/-- Two words at the two inputs, in one order or the other. -/
def Halves.ArriveBoth (m : Halves) (q₁ q₂ : QueuedEvent) (hi lo : BitVec w) : Prop :=
  Arrives q₁ m.highPort hi ∧ Arrives q₂ m.lowPort lo ∨
    Arrives q₁ m.lowPort lo ∧ Arrives q₂ m.highPort hi

omit [Floats] [JsonLib] [FlowLib] in
theorem combinePorts_mode (m : Halves) : combinePorts m.mode = [m.highPort, m.lowPort] := by
  cases m <;> rfl

omit [JsonLib] [FlowLib] in
/-- What the inputs hold after both. -/
theorem holds_both {q₁ q₂ : QueuedEvent} {hi lo : BitVec w} (h : m.ArriveBoth q₁ q₂ hi lo)
    (inputs : String → Option FlowEvent) :
    Holds (retain (retain inputs q₁) q₂) m.highPort hi ∧
      Holds (retain (retain inputs q₁) q₂) m.lowPort lo := by
  have hne : m.highPort ≠ m.lowPort := by cases m <;> decide
  have hsecond : ∀ {q : QueuedEvent} {port : String} {r : BitVec w}, Arrives q port r →
      ∀ inputs, Holds (retain inputs q) port r := by
    intro q port r harrives inputs
    refine ⟨q.event, ?_, harrives.value⟩
    rw [retain, harrives.port_eq, Function.update_self]
  have hfirst : ∀ {q q' : QueuedEvent} {port port' : String} {r r' : BitVec w}, Arrives q port r →
      Arrives q' port' r' → port ≠ port' → Holds (retain (retain inputs q) q') port r := by
    intro q q' port port' r r' harrives harrives' hport
    obtain ⟨e, he, hvalue⟩ := hsecond harrives inputs
    refine ⟨e, ?_, hvalue⟩
    rw [retain, harrives'.port_eq, Function.update_of_ne hport, he]
  rcases h with ⟨hhi, hlo⟩ | ⟨hlo, hhi⟩
  · exact ⟨hfirst hhi hlo hne, hsecond hlo _⟩
  · exact ⟨hsecond hhi _, hfirst hlo hhi (Ne.symm hne)⟩

/-- The second of the two makes the node emit the word. -/
theorem combine_both (f : FlowDef) (signedResult : Bool) {q₁ q₂ : QueuedEvent}
    (hhalf : m.half + m.half ≤ w) {x y : BitVec w}
    (h : m.ArriveBoth q₁ q₂ (m.high.apply x y) (m.low.apply x y)) (now₁ now₂ : Int)
    (s : NodeState) :
    ∃ out, (nodeStep f (.combine m.mode signedResult) now₂ q₂
        (nodeStep f (.combine m.mode signedResult) now₁ q₁ s).1).2 =
          emitAll f q₂ { q₂.event with value := out } ∧
      integerOf out = some (reading signedResult (x.setWidth (m.half + m.half))) := by
  obtain ⟨hhigh, hlow⟩ := holds_both h s.combine
  have hall : (combinePorts m.mode).all fun port =>
      (retain (retain s.combine q₁) q₂ port).isSome := by
    obtain ⟨e, he, -⟩ := hhigh
    obtain ⟨e', he', -⟩ := hlow
    simp [combinePorts_mode, he, he']
  have hports : m.highPort ∈ combinePorts m.mode ∧ m.lowPort ∈ combinePorts m.mode := by
    simp [combinePorts_mode]
  refine ⟨combined m.mode signedResult (retain (retain s.combine q₁) q₂), ?_,
    combined_halves hhalf x y hhigh hlow signedResult⟩
  rcases h with ⟨hhi, hlo⟩ | ⟨hlo, hhi⟩
  · rw [nodeStep_combine hhi hports.1, nodeStep_combine hlo hports.2]
    exact if_pos hall
  · rw [nodeStep_combine hlo hports.2, nodeStep_combine hhi hports.1]
    exact if_pos hall

/-! ## The law -/

omit [JsonLib] [FlowLib] in
theorem writable_number {e : FlowEvent} (h : e.writable = .ok ()) {n : Nat} :
    ({ e with value := .uint n } : FlowEvent).writable = .ok () := by
  unfold FlowEvent.writable at h ⊢
  split at h
  · cases h
  · rename_i hpresent
    rw [if_neg hpresent, if_neg (by simp [Json.isNull])]
    split at h
    · cases h
    · exact h

/-- The event is what the node emits for an integer. -/
def Emits (op : BitOp) (w : Nat) (x : Int) (output : FlowEvent) : Prop :=
  ∃ (e : FlowEvent) (operand : Json) (test : String) (comparison : Json) (invert : Bool),
    e.writable = .ok () ∧ integerOf e.value = some x ∧
    transform e (wordNode op w operand test comparison invert) = .ok output

/-- The events come from the two results and go to the two inputs, in one order or the other. -/
def Halves.FeedBack (m : Halves) (w : Nat) (x : Int) (q₁ q₂ : QueuedEvent) : Prop :=
  ∃ hi lo, Emits m.high w x hi ∧ Emits m.low w x lo ∧
    (q₁.event = hi ∧ q₁.inputPort = m.highPort ∧ q₂.event = lo ∧ q₂.inputPort = m.lowPort ∨
      q₁.event = lo ∧ q₁.inputPort = m.lowPort ∧ q₂.event = hi ∧ q₂.inputPort = m.highPort)

theorem Emits.arrives {op : BitOp} (hop : op.isShift = false) (hw : w ≤ 64) {x : Int}
    {output : FlowEvent} (h : Emits op w x output) {q : QueuedEvent} {port : String}
    (hport : q.inputPort = port) (hq : q.event = output) :
    ∃ y, Arrives q port (op.apply (BitVec.ofInt w x) y) := by
  obtain ⟨e, operand, test, comparison, invert, he, hx, houtput⟩ := h
  rw [transform_word hw he hx rfl, if_neg (by simp [hop])] at houtput
  have hevent := Except.ok.inj houtput
  refine ⟨BitVec.ofNat w ((parseBitInteger operand).getD 0).toNat, hport, ?_, ?_⟩
  · rw [hq, ← hevent]
    exact writable_number he
  · rw [hq, ← hevent]

omit [JsonLib] [FlowLib] in
/-- The results for an integer arrive as the halves of its word. -/
theorem Halves.FeedBack.arriveBoth [JsonLib] [FlowLib] (hw : w ≤ 64) {x : Int}
    {q₁ q₂ : QueuedEvent} (h : m.FeedBack w x q₁ q₂) :
    m.ArriveBoth q₁ q₂ (m.high.apply (BitVec.ofInt w x) 0) (m.low.apply (BitVec.ofInt w x) 0) := by
  have hhigh : m.high.isShift = false := by cases m <;> rfl
  have hlow : m.low.isShift = false := by cases m <;> rfl
  obtain ⟨hi, lo, hhi, hlo, hq⟩ := h
  rcases hq with ⟨he₁, hport₁, he₂, hport₂⟩ | ⟨he₁, hport₁, he₂, hport₂⟩
  · obtain ⟨y, h₁⟩ := hhi.arrives hhigh hw hport₁ he₁
    obtain ⟨y', h₂⟩ := hlo.arrives hlow hw hport₂ he₂
    left
    cases m with
    | bytes => exact ⟨h₁, h₂⟩
    | words => exact ⟨h₁, h₂⟩
  · obtain ⟨y, h₁⟩ := hlo.arrives hlow hw hport₁ he₁
    obtain ⟨y', h₂⟩ := hhi.arrives hhigh hw hport₂ he₂
    right
    cases m with
    | bytes => exact ⟨h₁, h₂⟩
    | words => exact ⟨h₁, h₂⟩

/-- **Bit operations are fixed-width and invert Combine.** The first part is where a shift count is
cut before it is checked. -/
theorem bit_operations_fixed_width (f : FlowDef) :
    (∀ (op : BitOp) (w : Nat), op.Allowed w → ∀ (q : QueuedEvent) (x : Int) (operand : Json)
      (n : UInt64) (test : String) (comparison : Json) (invert : Bool) (now : Int) (s : NodeState),
      q.event.writable = .ok () → integerOf q.event.value = some x →
      parseBitInteger operand = some n →
      ((nodeStep f (wordNode op w operand test comparison invert) now q s).2 =
        answer f q (wordOutcome q.event op w x n) ↔ ¬ CountWraps op w n)) ∧
    ∀ (m : Halves) (w : Nat), m.high.Allowed w → ∀ (x : Int) (q₁ q₂ : QueuedEvent),
      m.FeedBack w x q₁ q₂ → ∀ (signedResult : Bool) (now₁ now₂ : Int) (s : NodeState),
      ∃ out, (nodeStep f (.combine m.mode signedResult) now₂ q₂
          (nodeStep f (.combine m.mode signedResult) now₁ q₁ s).1).2 =
            emitAll f q₂ { q₂.event with value := out } ∧
        integerOf out = some (reading signedResult (BitVec.ofInt (m.half + m.half) x)) := by
  refine ⟨fun op w hop q x operand n test comparison invert now s he hx hn =>
    word_iff hop f now s he hx hn, fun m w hop x q₁ q₂ h signedResult now₁ now₂ s => ?_⟩
  have hhalf := Halves.two_le hop
  obtain ⟨out, hstep, hout⟩ := combine_both f signedResult hhalf (h.arriveBoth hop.le) now₁ now₂ s
  refine ⟨out, hstep, ?_⟩
  rw [hout, setWidth_ofInt hhalf]

end

/-! ## Examples -/

section
attribute [local instance] intFloats intJson intFlowLib

def bitFlow : FlowDef where
  nodes := [{ id := "b", type := wordNode .shiftLeft 8 (.uint 256) "nonzero" .null false }]
  edges := [{ source := "b", to_ := "d" }]

def numberEvent (n : Int) : QueuedEvent where
  flowId := "flow"
  nodeId := "b"
  event := { present := true, value := .int n, quality := "good" }

/-- A byte shifted left by 256, as the settings come from the editor. -/
def byteShift : Json := .object [("operation", .string "shift_left"), ("word_size", .int 8),
  ("operand", .uint 256)]

/-- The node is accepted and emits 3 as if the count were 0. -/
theorem shift_by_256 :
    checkBitOperations byteShift = .ok () ∧
    (nodeStep bitFlow (wordNode .shiftLeft 8 (.uint 256) "nonzero" .null false) 0
      (numberEvent 3) {}).2 =
        emitAll bitFlow (numberEvent 3) { (numberEvent 3).event with value := .uint 3 } ∧
    wordOutcome (numberEvent 3).event .shiftLeft 8 3 256 =
      .error "shift count must be smaller than the word size" := by
  refine ⟨rfl, rfl, rfl⟩

def byteAt (port : String) (n : Nat) : QueuedEvent where
  flowId := "flow"
  nodeId := "c"
  event := { (numberEvent (-2)).event with value := .uint n }
  inputPort := port

theorem minus_two_fed_back :
    Halves.bytes.FeedBack 16 (-2) (byteAt "low_byte" 254) (byteAt "high_byte" 255) := by
  refine ⟨(byteAt "high_byte" 255).event, (byteAt "low_byte" 254).event, ?_, ?_,
    .inr ⟨rfl, rfl, rfl, rfl⟩⟩
  · exact ⟨(numberEvent (-2)).event, .uint 0, "nonzero", .null, false, rfl, rfl, rfl⟩
  · exact ⟨(numberEvent (-2)).event, .uint 0, "nonzero", .null, false, rfl, rfl, rfl⟩

/-- A shift by two, and the bytes of -2 read as a signed word. -/
theorem bytes_of_minus_two :
    (nodeStep bitFlow (wordNode .shiftLeft 8 (.uint 2) "nonzero" .null false) 0
      (numberEvent 3) {}).2 = answer bitFlow (numberEvent 3)
        (wordOutcome (numberEvent 3).event .shiftLeft 8 3 2) ∧
    ∃ out, (nodeStep bitFlow (.combine "two_bytes" true) 0 (byteAt "high_byte" 255)
        (nodeStep bitFlow (.combine "two_bytes" true) 0 (byteAt "low_byte" 254) {}).1).2 =
          emitAll bitFlow (byteAt "high_byte" 255)
            { (byteAt "high_byte" 255).event with value := out } ∧
      integerOf out = some (-2) := by
  obtain ⟨hwidth, hinverse⟩ := bit_operations_fixed_width bitFlow
  have hcount : ¬ CountWraps .shiftLeft 8 2 := fun h => absurd h.2.1 (by decide)
  refine ⟨(hwidth .shiftLeft 8 ⟨by decide, fun h => (by cases h), fun h => (by cases h)⟩
    (numberEvent 3) 3 (.uint 2) 2 "nonzero" .null false 0 {} rfl rfl rfl).2 hcount, ?_⟩
  exact hinverse .bytes 16 ⟨by decide, fun _ => by decide, fun h => (by cases h)⟩ (-2)
    (byteAt "low_byte" 254) (byteAt "high_byte" 255) minus_two_fed_back true 0 0 {}

end

end OpcBridge.Flow
