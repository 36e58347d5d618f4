import ContractLink.Proofs.Text.Order
import ContractLink.Proofs.Wire.Digits
/-!
Texts of ASCII characters are written in one byte for each character, and all others in more. Which
byte it is can be told too: a text with ASCII bytes only has ASCII characters only.
-/
namespace ContractLink

namespace Bytes

@[simp] theorem ofText_append (s t : String) : ofText (s ++ t) = ofText s ++ ofText t := by
  simp [ofText_eq_flatMap]

theorem length_utf8EncodeChar_eq_one_iff {c : Char} :
    (String.utf8EncodeChar c).length = 1 ↔ c.toNat < 128 := by
  rw [String.length_utf8EncodeChar, Char.utf8Size_eq_one_iff, UInt32.le_iff_toNat_le]
  exact Nat.lt_succ_iff.symm

/-- An ASCII character is its own byte. -/
theorem utf8EncodeChar_of_ascii {c : Char} (ascii : c.toNat < 128) :
    String.utf8EncodeChar c = [c.toUInt8] := by
  apply String.utf8EncodeChar_eq_singleton
  rw [← String.length_utf8EncodeChar]
  exact length_utf8EncodeChar_eq_one_iff.mpr ascii

theorem ofText_ofList {cs : List Char} (ascii : ∀ c ∈ cs, c.toNat < 128) :
    ofText (String.ofList cs) = cs.map Char.toUInt8 := by
  rw [ofText_eq_flatMap, String.toList_ofList]
  induction cs with
  | nil => rfl
  | cons c cs ih =>
    obtain ⟨first, rest⟩ := List.forall_mem_cons.mp ascii
    simp [utf8EncodeChar_of_ascii first, ih rest]

/-- Every character takes a byte at least, and only the ASCII characters take no more. -/
theorem length_flatMap_utf8EncodeChar (cs : List Char) :
    cs.length ≤ (cs.flatMap String.utf8EncodeChar).length ∧
      ((cs.flatMap String.utf8EncodeChar).length = cs.length ↔ ∀ c ∈ cs, c.toNat < 128) := by
  induction cs with
  | nil => simp
  | cons c cs ih =>
    have pos : 0 < (String.utf8EncodeChar c).length := by
      rw [String.length_utf8EncodeChar]
      exact c.utf8Size_pos
    rw [List.flatMap_cons, List.length_append, List.length_cons, List.forall_mem_cons, ← ih.2,
      ← length_utf8EncodeChar_eq_one_iff]
    omega

theorem length_le_length_ofText (text : String) : text.length ≤ (ofText text).length := by
  rw [ofText_eq_flatMap, ← String.length_toList]
  exact (length_flatMap_utf8EncodeChar text.toList).1

/-- A text is as long in bytes as in characters just when it is ASCII. -/
theorem length_ofText_eq_iff {text : String} :
    (ofText text).length = text.length ↔ ∀ c ∈ text.toList, c.toNat < 128 := by
  rw [ofText_eq_flatMap, ← String.length_toList]
  exact (length_flatMap_utf8EncodeChar text.toList).2

theorem toNat_ofUInt8 (b : UInt8) : (Char.ofUInt8 b).toNat = b.toNat := UInt8.toNat_toUInt32 b

theorem toUInt8_ofUInt8 (b : UInt8) : (Char.ofUInt8 b).toUInt8 = b := by
  apply UInt8.toNat_inj.mp
  have small := b.toNat_lt
  show (Char.ofUInt8 b).toNat % 256 = b.toNat
  rw [toNat_ofUInt8]
  omega

theorem ofUInt8_toUInt8 {c : Char} (ascii : c.toNat < 128) : Char.ofUInt8 c.toUInt8 = c := by
  apply Char.toNat_inj.mp
  rw [toNat_ofUInt8]
  show c.toNat % 256 = c.toNat
  omega

/-- No other text has ASCII bytes. -/
theorem toList_of_ascii {text : String} (ascii : ∀ b ∈ ofText text, b.toNat < 128) :
    text.toList = (ofText text).map Char.ofUInt8 := by
  have chars : ∀ c ∈ (ofText text).map Char.ofUInt8, c.toNat < 128 := by
    intro c mem
    obtain ⟨b, inside, rfl⟩ := List.mem_map.mp mem
    rw [toNat_ofUInt8]
    exact ascii b inside
  have same : ofText (String.ofList ((ofText text).map Char.ofUInt8)) = ofText text := by
    rw [ofText_ofList chars, List.map_map]
    simp [Function.comp_def, toUInt8_ofUInt8]
  have eq := congrArg String.toList (ofText_injective same)
  rw [String.toList_ofList] at eq
  exact eq.symm

/-- What can be said of the bytes of a text, if it holds of ASCII only, can be said of its
characters. -/
theorem forall_mem_ofText_iff {P : Char → Prop} (ascii : ∀ c, P c → c.toNat < 128) {text : String} :
    (∀ b ∈ ofText text, P (Char.ofUInt8 b)) ↔ ∀ c ∈ text.toList, P c := by
  constructor
  · intro bytes
    have small : ∀ b ∈ ofText text, b.toNat < 128 := by
      intro b mem
      rw [← toNat_ofUInt8]
      exact ascii _ (bytes b mem)
    rw [toList_of_ascii small]
    simpa using bytes
  · intro chars
    have small : ∀ c ∈ text.toList, c.toNat < 128 := fun c mem => ascii c (chars c mem)
    have eq := ofText_ofList small
    rw [String.ofList_toList] at eq
    intro b mem
    rw [eq] at mem
    obtain ⟨c, inside, rfl⟩ := List.mem_map.mp mem
    rw [ofUInt8_toUInt8 (small c inside)]
    exact chars c inside

end Bytes

end ContractLink
