import Mathlib.Data.List.TakeWhile
import OpcBridge.Core.Text
import OpcBridge.Lib.Decimal

/-!
# Texts of numbers

A printed number has no blank, so trimming leaves it as it is, and `stoul` reads it back.
-/

namespace OpcBridge

open Lib

theorem dropWhile_isSpace {cs : List Char} (h : ∀ c ∈ cs, isSpace c = false) :
    cs.dropWhile isSpace = cs := by
  cases cs with
  | nil => rfl
  | cons c cs => exact List.dropWhile_cons_of_neg (by simp [h c])

theorem trimCopy_eq_self {s : String} (h : ∀ c ∈ s.toList, isSpace c = false) : trimCopy s = s := by
  unfold trimCopy trimChars
  rw [dropWhile_isSpace h, dropWhile_isSpace (by simpa using h), List.reverse_reverse,
    String.ofList_toList]

theorem isSpace_numeralChar {c : Char} (h : NumeralChar c) : isSpace c = false := by
  rcases h with hdigit | hother
  · by_contra hspace
    rw [Bool.not_eq_false] at hspace
    simp only [isSpace, Bool.or_eq_true, beq_iff_eq] at hspace
    rcases hspace with ((((rfl | rfl) | rfl) | rfl) | rfl) | rfl <;> cases hdigit
  · exact (by decide : ∀ c ∈ ['-', '+', '.', 'e'], isSpace c = false) c hother

theorem isSpace_toString (n : Int) : ∀ c ∈ (toString n).toList, isSpace c = false :=
  fun c hc => isSpace_numeralChar (numeralChar_toString n c hc)

theorem readInteger_toDigits (n : Nat) : readInteger (Nat.toDigits 10 n) = some (n : Int) := by
  have hdigits := toDigits_isDigit n
  have hsigned : (Nat.toDigits 10 n).dropWhile isSpace = Nat.toDigits 10 n :=
    dropWhile_isSpace fun c hc => isSpace_numeralChar (.inl (hdigits c hc))
  have htake : (Nat.toDigits 10 n).takeWhile isDigit = Nat.toDigits 10 n :=
    List.takeWhile_eq_self_iff.2 hdigits
  have hvalue : digitsVal (Nat.toDigits 10 n) = n := digitsNat_toDigits n
  have hne : Nat.toDigits 10 n ≠ [] := Nat.toDigits_ne_nil
  have hfirst : ∀ c, (Nat.toDigits 10 n).head? = some c → c.isDigit = true := fun c hc =>
    hdigits c (List.mem_of_head? hc)
  have hminus : (Nat.toDigits 10 n).head? ≠ some '-' := fun h => by cases hfirst _ h
  have hplus : (Nat.toDigits 10 n).head? ≠ some '+' := fun h => by cases hfirst _ h
  simp [readInteger, hsigned, hminus, hplus, htake, hvalue, hne]

theorem readInteger_toString (n : Int) : readInteger (toString n).toList = some n := by
  rw [toList_toString]
  by_cases hneg : n < 0
  · have hdigits := toDigits_isDigit n.natAbs
    have htake : (Nat.toDigits 10 n.natAbs).takeWhile isDigit = Nat.toDigits 10 n.natAbs :=
      List.takeWhile_eq_self_iff.2 hdigits
    have hvalue : digitsVal (Nat.toDigits 10 n.natAbs) = n.natAbs := digitsNat_toDigits _
    have hminus : isSpace '-' = false := by decide
    have hne : Nat.toDigits 10 n.natAbs ≠ [] := Nat.toDigits_ne_nil
    have habs : -(n.natAbs : Int) = n := by omega
    generalize n.natAbs = m at *
    simp [readInteger, signText, hneg, hminus, htake, hvalue, hne, habs]
  · rw [signText, if_neg (by simpa using hneg), List.nil_append, readInteger_toDigits]
    simp only [Option.some.injEq]
    omega

theorem stoul_toDigits {n : Nat} (hn : n < 2 ^ 64) :
    stoul (String.ofList (Nat.toDigits 10 n)) = some n := by
  rw [stoul, String.toList_ofList, readInteger_toDigits]
  have hsmall : n ≤ 18446744073709551615 := by omega
  have hmod : (n : Int) % 18446744073709551616 = n := by omega
  simp [hsmall, hmod]

end OpcBridge
