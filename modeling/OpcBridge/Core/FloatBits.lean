import OpcBridge.Core.Doubles
import OpcBridge.Lib.FormatBits

/-!
# The bytes of a float

`memcpy` of a float into an integer of the same size, and that the way back (`Floats.ofBits32`,
`Floats.ofBits64`) gives the float.
-/

namespace OpcBridge

open Lib

class FloatBits [Floats] where
  toBits32 : F32 → UInt32
  toBits64 : F64 → UInt64
  ofBits32_toBits32 (x : F32) : Floats.ofBits32 (toBits32 x) = x
  ofBits64_toBits64 (x : F64) : Floats.ofBits64 (toBits64 x) = x

export FloatBits (toBits32 toBits64)

@[reducible] def doubleBits : @FloatBits doubles :=
  letI := doubles
  { toBits32 := fun x => UInt32.ofNat (Format.toBits x)
    toBits64 := fun x => UInt64.ofNat (Format.toBits x)
    ofBits32_toBits32 := fun x => by
      have hlt : Format.toBits x < 2 ^ 32 := Format.toBits_lt (f := binary32) (by decide) (by decide) x
      show binary32.ofBits (UInt32.ofNat (Format.toBits x)).toNat = x
      rw [UInt32.toNat_ofNat_of_lt' hlt]
      exact Format.ofBits_toBits (by decide) (by decide) x
    ofBits64_toBits64 := fun x => by
      have hlt : Format.toBits x < 2 ^ 64 := Format.toBits_lt (f := binary64) (by decide) (by decide) x
      show binary64.ofBits (UInt64.ofNat (Format.toBits x)).toNat = x
      rw [UInt64.toNat_ofNat_of_lt' hlt]
      exact Format.ofBits_toBits (by decide) (by decide) x }

example : doubleBits.toBits64 (binary64.ofRat 1) = 0x3FF0000000000000 := by decide +kernel

end OpcBridge
