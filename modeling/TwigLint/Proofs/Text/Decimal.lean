import TwigLint.Text.Basic
import Mathlib.Algebra.Group.Nat.Defs
import Mathlib.Data.List.Basic

/-! # Decimal numerals as bytes

The decimal digits of a number read back to the number, also as a 64-bit integer when the number
fits.  Texts written as string literals are equal only when the literals are.
-/

namespace TwigLint

namespace Text

theorem ofString_inj {a b : String} : ofString a = ofString b ↔ a = b := by
  constructor
  · intro h
    exact String.toByteArray_inj.1 (ByteArray.ext (Array.toList_inj.1 h))
  · rintro rfl
    rfl

theorem ofString_append (a b : String) : ofString (a ++ b) = ofString a ++ ofString b := by
  simp [ofString, String.toUTF8_eq_toByteArray]

theorem ofString_ofList (cs : List Char) :
    ofString (String.ofList cs) = cs.flatMap String.utf8EncodeChar := by
  simp only [ofString, String.toUTF8_eq_toByteArray, String.toByteArray_ofList, List.utf8Encode,
    List.toList_data_toByteArray]

private theorem toNat_of_isDigit {c : Char} (h : c.isDigit = true) :
    48 ≤ c.toNat ∧ c.toNat ≤ 57 := by
  simpa [Char.isDigit, UInt32.le_iff_toNat_le] using h

private theorem utf8EncodeChar_of_isDigit {c : Char} (h : c.isDigit = true) :
    String.utf8EncodeChar c = [c.toUInt8] := by
  have hc := toNat_of_isDigit h
  apply String.utf8EncodeChar_eq_singleton
  rw [Char.utf8Size_eq_one_iff, UInt32.le_iff_toNat_le]
  exact Nat.le_trans hc.2 (by decide)

private theorem flatMap_utf8EncodeChar {cs : List Char} (h : ∀ c ∈ cs, c.isDigit = true) :
    cs.flatMap String.utf8EncodeChar = cs.map Char.toUInt8 := by
  induction cs with
  | nil => rfl
  | cons c cs ih =>
    rw [List.flatMap_cons, List.map_cons, utf8EncodeChar_of_isDigit (h c (by simp)),
      ih fun d hd => h d (by simp [hd])]
    rfl

theorem ofNat_eq_map (n : Nat) : ofNat n = (Nat.toDigits 10 n).map Char.toUInt8 := by
  rw [ofNat, Nat.toString_eq_ofList_toDigits, ofString_ofList]
  exact flatMap_utf8EncodeChar fun c hc => Nat.isDigit_of_mem_toDigits (by decide) (by decide) hc

theorem toNat_toUInt8_of_isDigit {c : Char} (h : c.isDigit = true) : c.toUInt8.toNat = c.toNat := by
  have hc := toNat_of_isDigit h
  have : c.toUInt8.toNat = c.toNat % 256 := rfl
  omega

theorem isDigit_iff (b : UInt8) : isDigit b = true ↔ 48 ≤ b.toNat ∧ b.toNat ≤ 57 := by
  simp [isDigit, UInt8.le_iff_toNat_le, Char.toUInt8]

theorem isDigit_of_mem_ofNat {n : Nat} {b : UInt8} (h : b ∈ ofNat n) : isDigit b = true := by
  rw [ofNat_eq_map] at h
  obtain ⟨c, hc, rfl⟩ := List.mem_map.1 h
  have hd := Nat.isDigit_of_mem_toDigits (by decide) (by decide) hc
  rw [isDigit_iff, toNat_toUInt8_of_isDigit hd]
  exact toNat_of_isDigit hd

theorem length_ofNat (n : Nat) : (ofNat n).length = (Nat.toDigits 10 n).length := by
  rw [ofNat_eq_map, List.length_map]

/-- Powers of ten put zeros behind the digits of a number. -/
theorem ofNat_mul_pow {d : Nat} (hd : 0 < d) (j : Nat) :
    ofNat (d * 10 ^ j) = ofNat d ++ List.replicate j ('0' : UInt8) := by
  induction j with
  | zero => simp
  | succ j ih =>
    have hpositive : 0 < d * 10 ^ j := Nat.mul_pos hd (Nat.pow_pos (by decide))
    have hten : d * 10 ^ (j + 1) = 10 * (d * 10 ^ j) + 0 := by
      rw [Nat.pow_succ, ← Nat.mul_assoc, Nat.mul_comm, Nat.add_zero]
    rw [ofNat_eq_map, hten, ← Nat.toDigits_append_toDigits (by decide) hpositive (by decide),
      List.map_append, ← ofNat_eq_map, ih, List.append_assoc, List.replicate_succ']
    rfl

/-- The digits of an integer are those of its magnitude, behind a sign if it is negative. -/
theorem ofInt_eq (n : Int) : ofInt n = (if n < 0 then ("-" : Text) else "") ++ ofNat n.natAbs := by
  cases n with
  | ofNat n => rfl
  | negSucc n =>
    have htext : toString (Int.negSucc n) = "-" ++ toString (n + 1) := rfl
    rw [ofInt, htext, ofString_append, if_pos (Int.negSucc_lt_zero n), Int.natAbs_negSucc]
    rfl

theorem ofNat_ne_nil (n : Nat) : ofNat n ≠ [] := by
  simp [ofNat_eq_map]

private theorem digitsValue_map {cs : List Char} (h : ∀ c ∈ cs, c.isDigit = true) (acc : Nat) :
    digitsValue acc (cs.map Char.toUInt8) = Nat.ofDigitChars 10 cs acc := by
  induction cs generalizing acc with
  | nil => rfl
  | cons c cs ih =>
    rw [Nat.ofDigitChars_cons, ← ih fun d hd => h d (by simp [hd])]
    simp only [digitsValue, List.map_cons, List.foldl_cons,
      toNat_toUInt8_of_isDigit (h c (by simp))]
    rfl

theorem digitsValue_ofNat (n : Nat) : digitsValue 0 (ofNat n) = n := by
  rw [ofNat_eq_map,
    digitsValue_map fun c hc => Nat.isDigit_of_mem_toDigits (by decide) (by decide) hc]
  exact Nat.ofDigitChars_ten_toDigits

theorem toNat?_ofNat (n : Nat) : toNat? (ofNat n) = some n := by
  have hall : (ofNat n).all isDigit = true := List.all_eq_true.2 fun b hb => isDigit_of_mem_ofNat hb
  simp [toNat?, hall, ofNat_ne_nil, digitsValue_ofNat]

theorem toInt64?_ofNat {n : Nat} (h : n < 0x8000000000000000) :
    toInt64? (ofNat n) = some (n : Int) := by
  have hint : toInt? (ofNat n) = some (n : Int) := by
    cases hn : ofNat n with
    | nil => exact absurd hn (ofNat_ne_nil n)
    | cons b t =>
      have hb : isDigit b = true := isDigit_of_mem_ofNat (n := n) (by simp [hn])
      have hminus : b ≠ ('-' : Char) := by rintro rfl; exact absurd hb (by decide)
      have hplus : b ≠ ('+' : Char) := by rintro rfl; exact absurd hb (by decide)
      simp [toInt?, hminus, hplus, ← hn, toNat?_ofNat]
  have hfit : isInt64 (n : Int) = true := by
    simp only [isInt64, Bool.and_eq_true, decide_eq_true_eq]
    omega
  simp [toInt64?, hint, Option.filter, hfit]

end Text

end TwigLint
