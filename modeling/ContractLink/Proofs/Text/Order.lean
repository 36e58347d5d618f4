import ContractLink.Bytes.Basic
import Mathlib.Data.String.Basic
/-!
The order of texts by code points is the order of their UTF-8 bytes. A code point is written as its
base-64 digits behind a lead byte, which grows with the number of digits; so the bytes of a lower
code point come first, whatever follows.
-/
namespace ContractLink

namespace Bytes

theorem ofText_eq_flatMap (text : String) :
    ofText text = text.toList.flatMap String.utf8EncodeChar := by
  unfold ofText
  rw [← String.utf8Encode_toList]
  exact List.toList_data_toByteArray

/-- The last base-64 digit of a number, marked as one that continues a code point. -/
def continuation (n : Nat) : UInt8 := UInt8.ofNat (n % 64 + 128)

/-- The base-64 digits of a number, the first of them added to a lead byte. -/
def groups (lead : Nat) : Nat → Nat → Bytes
  | 0, n => [UInt8.ofNat (lead + n)]
  | count + 1, n => groups lead count (n / 64) ++ [continuation n]

/-- How many bytes continue a code point. -/
def continuations (n : Nat) : Nat :=
  if n ≤ 0x7F then 0 else if n ≤ 0x7FF then 1 else if n ≤ 0xFFFF then 2 else 3

/-- The least lead byte of a code point with so many continuations. -/
def lead : Nat → Nat
  | 0 => 0
  | 1 => 0xC0
  | 2 => 0xE0
  | 3 => 0xF0
  | _ => 0xF8

theorem toNat_lt_of_char (c : Char) : c.toNat < 0x110000 := by
  rcases c.valid with low | ⟨-, high⟩
  · exact Nat.lt_trans low (by decide)
  · exact high

theorem utf8EncodeChar_eq_groups (c : Char) :
    String.utf8EncodeChar c =
      groups (lead (continuations c.toNat)) (continuations c.toNat) c.toNat := by
  have bound := toNat_lt_of_char c
  have digits : ∀ n, n / 4096 = n / 64 / 64 ∧ n / 262144 = n / 64 / 64 / 64 := by omega
  unfold String.utf8EncodeChar
  show (let v := c.toNat; _) = _
  dsimp only
  by_cases one : c.toNat ≤ 0x7F
  · simp [one, continuations, groups, lead]
  by_cases two : c.toNat ≤ 0x7FF
  · have first : c.toNat / 64 % 0x20 = c.toNat / 64 := by omega
    simp [one, two, continuations, groups, lead, continuation, first, Nat.add_comm]
  by_cases three : c.toNat ≤ 0xFFFF
  · have first : c.toNat / 64 / 64 % 0x10 = c.toNat / 64 / 64 := by omega
    simp [one, two, three, continuations, groups, lead, continuation, digits, first, Nat.add_comm]
  · have first : c.toNat / 64 / 64 / 64 % 0x08 = c.toNat / 64 / 64 / 64 := by omega
    simp [one, two, three, continuations, groups, lead, continuation, digits, first, Nat.add_comm]

theorem lead_add_lt {n : Nat} (bound : n < 0x110000) :
    lead (continuations n) + n / 64 ^ continuations n < lead (continuations n + 1) := by
  unfold continuations
  split
  · simp only [lead]; omega
  split
  · simp only [lead]; omega
  split <;> simp only [lead] <;> omega

theorem continuations_le (n : Nat) : continuations n ≤ 3 := by
  unfold continuations
  split
  · decide
  split
  · decide
  split <;> decide

theorem continuations_mono {m n : Nat} (h : m ≤ n) : continuations m ≤ continuations n := by
  unfold continuations
  split_ifs <;> omega

theorem lead_mono {j k : Nat} (h : j ≤ k) (bound : k ≤ 4) : lead j ≤ lead k := by
  have check : ∀ k ≤ 4, ∀ j ≤ k, lead j ≤ lead k := by decide
  exact check k bound j h

theorem groups_eq_cons (lead count n : Nat) :
    ∃ tail, groups lead count n = UInt8.ofNat (lead + n / 64 ^ count) :: tail := by
  induction count generalizing n with
  | zero => exact ⟨[], by simp [groups]⟩
  | succ count ih =>
    obtain ⟨tail, eq⟩ := ih (n / 64)
    refine ⟨tail ++ [continuation n], ?_⟩
    rw [groups, eq, Nat.div_div_eq_div_mul, pow_succ']
    rfl

theorem ofNat_lt_ofNat {m n : Nat} (less : m < n) (bound : n < 256) :
    UInt8.ofNat m < UInt8.ofNat n := by
  rw [UInt8.lt_iff_toNat_lt, UInt8.toNat_ofNat_of_lt' bound,
    UInt8.toNat_ofNat_of_lt' (Nat.lt_trans less bound)]
  exact less

/-- With equally many digits behind the same lead byte, the lower number comes first. -/
theorem groups_append_lt {lead count m n : Nat} (less : m < n)
    (bound : lead + n / 64 ^ count < 256) (s t : Bytes) :
    groups lead count m ++ s < groups lead count n ++ t := by
  induction count generalizing m n s t with
  | zero =>
    have bound : lead + n < 256 := by simpa using bound
    exact List.cons_lt_cons_iff.mpr (.inl (ofNat_lt_ofNat (Nat.add_lt_add_left less lead) bound))
  | succ count ih =>
    rw [groups, groups, List.append_assoc, List.append_assoc]
    rcases Nat.lt_or_ge (m / 64) (n / 64) with high | same
    · refine ih high ?_ _ _
      rwa [Nat.div_div_eq_div_mul, ← pow_succ']
    · have high : m / 64 = n / 64 := Nat.le_antisymm (Nat.div_le_div_right less.le) same
      rw [high]
      refine List.append_left_lt (List.cons_lt_cons_iff.mpr (.inl ?_))
      exact ofNat_lt_ofNat (by omega) (by omega)

/-- A lower code point has fewer continuations, and then a lower lead byte, or equally many. -/
theorem utf8EncodeChar_append_lt {c d : Char} (less : c < d) (s t : Bytes) :
    String.utf8EncodeChar c ++ s < String.utf8EncodeChar d ++ t := by
  have less : c.toNat < d.toNat := less
  have fits_c := lead_add_lt (toNat_lt_of_char c)
  have fits_d := lead_add_lt (toNat_lt_of_char d)
  have most := continuations_le d.toNat
  have top : lead (continuations d.toNat + 1) ≤ lead 4 := lead_mono (by omega) le_rfl
  have within := fits_d.trans_le (top.trans (by decide : lead 4 ≤ 256))
  rw [utf8EncodeChar_eq_groups, utf8EncodeChar_eq_groups]
  rcases (continuations_mono less.le).lt_or_eq with fewer | same
  · have apart : lead (continuations c.toNat + 1) ≤ lead (continuations d.toNat) :=
      lead_mono fewer (by omega)
    obtain ⟨tail_c, eq_c⟩ := groups_eq_cons (lead (continuations c.toNat)) _ c.toNat
    obtain ⟨tail_d, eq_d⟩ := groups_eq_cons (lead (continuations d.toNat)) _ d.toNat
    rw [eq_c, eq_d]
    refine List.cons_lt_cons_iff.mpr (.inl (ofNat_lt_ofNat ?_ within))
    exact (fits_c.trans_le apart).trans_le (Nat.le_add_right _ _)
  · rw [same]
    exact groups_append_lt less within s t

theorem flatMap_utf8EncodeChar_lt {cs ds : List Char} (less : cs < ds) :
    cs.flatMap String.utf8EncodeChar < ds.flatMap String.utf8EncodeChar := by
  induction cs generalizing ds with
  | nil =>
    cases ds with
    | nil => exact absurd less (List.not_lt_nil [])
    | cons d ds =>
      obtain ⟨byte, rest, eq⟩ := List.exists_cons_of_ne_nil (String.utf8EncodeChar_ne_nil (c := d))
      rw [List.flatMap_cons, eq]
      exact List.nil_lt_cons _ _
  | cons c cs ih =>
    cases ds with
    | nil => exact absurd less (List.not_lt_nil _)
    | cons d ds =>
      rw [List.flatMap_cons, List.flatMap_cons]
      rcases List.cons_lt_cons_iff.mp less with first | ⟨rfl, rest⟩
      · exact utf8EncodeChar_append_lt first _ _
      · exact List.append_left_lt (ih rest)

/-- Texts are ordered as their bytes are. -/
theorem ofText_lt_ofText_iff {a b : String} : ofText a < ofText b ↔ a < b := by
  have mono : ∀ a b : String, a < b → ofText a < ofText b := by
    intro a b less
    rw [ofText_eq_flatMap, ofText_eq_flatMap]
    exact flatMap_utf8EncodeChar_lt (String.lt_iff_toList_lt.mp less)
  refine ⟨fun less => ?_, mono a b⟩
  rcases lt_trichotomy a b with before | rfl | after
  · exact before
  · exact absurd less (List.lt_irrefl _)
  · exact absurd (List.lt_trans less (mono b a after)) (List.lt_irrefl _)

end Bytes

end ContractLink
