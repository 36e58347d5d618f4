import ContractLink.Bytes.Basic
import Mathlib.Algebra.Group.Nat.Defs
import Mathlib.Tactic.Ring
/-!
Base-256 digits and numbers are the same thing: reading the digits of a number gives it back, and
writing the number of a digit string gives the string back. So it is with texts and their bytes.
-/
namespace ContractLink

namespace Bytes

theorem ofLittleEndian_lt (digits : Bytes) : ofLittleEndian digits < 256 ^ digits.length := by
  induction digits with
  | nil => simp [ofLittleEndian]
  | cons digit rest ih =>
    have small := digit.toNat_lt
    simp only [ofLittleEndian, List.length_cons, Nat.pow_succ]
    omega

theorem ofLittleEndian_littleEndian {width n : Nat} (h : n < 256 ^ width) :
    ofLittleEndian (littleEndian width n) = n := by
  induction width generalizing n with
  | zero =>
    have zero : n = 0 := by simpa using h
    simp [littleEndian, ofLittleEndian, zero]
  | succ width ih =>
    have high : n / 256 < 256 ^ width := by
      rw [Nat.pow_succ] at h
      omega
    have low : (UInt8.ofNat n).toNat = n % 256 := by simp
    simp only [littleEndian, ofLittleEndian, low, ih high]
    omega

theorem littleEndian_ofLittleEndian (digits : Bytes) :
    littleEndian digits.length (ofLittleEndian digits) = digits := by
  induction digits with
  | nil => rfl
  | cons digit rest ih =>
    have small := digit.toNat_lt
    have low : UInt8.ofNat (digit.toNat + 256 * ofLittleEndian rest) = digit := by
      apply UInt8.toNat_inj.mp
      simp only [UInt8.toNat_ofNat']
      omega
    have high : (digit.toNat + 256 * ofLittleEndian rest) / 256 = ofLittleEndian rest := by
      omega
    simp only [List.length_cons, littleEndian, ofLittleEndian, low, high, ih]

theorem ofBigEndian_lt (digits : Bytes) : ofBigEndian digits < 256 ^ digits.length := by
  simpa [ofBigEndian] using ofLittleEndian_lt digits.reverse

theorem ofBigEndian_bigEndian {width n : Nat} (h : n < 256 ^ width) :
    ofBigEndian (bigEndian width n) = n := by
  simp [ofBigEndian, bigEndian, ofLittleEndian_littleEndian h]

theorem bigEndian_ofBigEndian (digits : Bytes) :
    bigEndian digits.length (ofBigEndian digits) = digits := by
  have h := littleEndian_ofLittleEndian digits.reverse
  rw [List.length_reverse] at h
  rw [bigEndian, ofBigEndian, h, List.reverse_reverse]

theorem ofLittleEndian_concat (digits : Bytes) (last : UInt8) :
    ofLittleEndian (digits ++ [last]) = ofLittleEndian digits + 256 ^ digits.length * last.toNat := by
  induction digits with
  | nil => simp [ofLittleEndian]
  | cons digit rest ih =>
    simp only [List.cons_append, ofLittleEndian, ih, List.length_cons, pow_succ]
    ring

theorem ofBigEndian_cons (first : UInt8) (rest : Bytes) :
    ofBigEndian (first :: rest) = 256 ^ rest.length * first.toNat + ofBigEndian rest := by
  simp [ofBigEndian, ofLittleEndian_concat, Nat.add_comm]

/-- Only the UTF-8 bytes of a text are read as that text. -/
theorem ofText_of_toText? {bytes : Bytes} {text : String} (h : toText? bytes = some text) :
    ofText text = bytes := by
  unfold toText? String.fromUTF8? at h
  split at h
  next valid =>
    obtain rfl := Option.some.inj h
    simp [ofText, String.fromUTF8]
  next => cases h

theorem ofText_injective {s t : String} (same : ofText s = ofText t) : s = t := by
  have read := toText?_ofText s
  rw [same, toText?_ofText] at read
  exact (Option.some.inj read).symm

end Bytes

end ContractLink
