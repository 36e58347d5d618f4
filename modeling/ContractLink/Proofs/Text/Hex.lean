import ContractLink.Bytes.Hex
import ContractLink.Proofs.Text.Ascii
import ContractLink.Proofs.Traversal
/-!
Hexadecimal text, both ways: the laws that a reader of addresses relies on. A text of digits of
either case is read as the bytes whose text is the same in lower case; of any other text of the
right length the first byte that is no digit is named. What is written is read back.
-/
namespace ContractLink

namespace Hex

/-- A digit as it is written. -/
def IsLowerDigit (c : Char) : Prop := ('0' ≤ c ∧ c ≤ '9') ∨ ('a' ≤ c ∧ c ≤ 'f')

/-- A digit as it is read, of either case. -/
def IsDigit (c : Char) : Prop := IsLowerDigit c ∨ ('A' ≤ c ∧ c ≤ 'F')

instance (c : Char) : Decidable (IsLowerDigit c) := inferInstanceAs (Decidable (_ ∨ _))

instance (c : Char) : Decidable (IsDigit c) := inferInstanceAs (Decidable (_ ∨ _))

theorem isLowerDigit_iff {c : Char} :
    IsLowerDigit c ↔ (48 ≤ c.toNat ∧ c.toNat ≤ 57) ∨ (97 ≤ c.toNat ∧ c.toNat ≤ 102) := Iff.rfl

theorem isDigit_iff {c : Char} : IsDigit c ↔
    ((48 ≤ c.toNat ∧ c.toNat ≤ 57) ∨ (97 ≤ c.toNat ∧ c.toNat ≤ 102)) ∨
      (65 ≤ c.toNat ∧ c.toNat ≤ 70) := Iff.rfl

theorem IsDigit.ascii {c : Char} (h : IsDigit c) : c.toNat < 128 := by
  rw [isDigit_iff] at h
  omega

/-- Digits are their own bytes. -/
theorem forall_isDigit_iff {text : String} :
    (∀ b ∈ Bytes.ofText text, IsDigit (Char.ofUInt8 b)) ↔ ∀ c ∈ text.toList, IsDigit c :=
  Bytes.forall_mem_ofText_iff fun _ => IsDigit.ascii

/-- A lower-case digit is what becomes of a digit, and nothing else becomes of it. -/
theorem IsDigit.isLowerDigit_iff {c : Char} (h : IsDigit c) :
    IsLowerDigit c ↔ c.toLower = c := by
  have check : ∀ n < 128, IsDigit (Char.ofNat n) →
      (IsLowerDigit (Char.ofNat n) ↔ (Char.ofNat n).toLower = Char.ofNat n) := by decide +kernel
  have eq := check c.toNat h.ascii
  rw [Char.ofNat_toNat] at eq
  exact eq h

/-- What a byte counts as a digit, which is 0 if it is none. -/
def value (b : UInt8) : Nat := (value? b).getD 0

theorem value?_of_isDigit {b : UInt8} (h : IsDigit (Char.ofUInt8 b)) :
    value? b = some (value b) := by
  rw [isDigit_iff, Bytes.toNat_ofUInt8] at h
  unfold value value?
  grind

theorem value?_of_not_isDigit {b : UInt8} (h : ¬IsDigit (Char.ofUInt8 b)) : value? b = none := by
  rw [isDigit_iff, Bytes.toNat_ofUInt8] at h
  unfold value?
  grind

theorem value_lt (b : UInt8) : value b < 16 := by
  unfold value value?
  grind

theorem digit_value {b : UInt8} (h : IsDigit (Char.ofUInt8 b)) :
    digit (value b) = (Char.ofUInt8 b).toLower := by
  have check : ∀ n < 256, IsDigit (Char.ofUInt8 (UInt8.ofNat n)) →
      digit (value (UInt8.ofNat n)) = (Char.ofUInt8 (UInt8.ofNat n)).toLower := by decide +kernel
  have eq := check b.toNat b.toNat_lt
  rw [UInt8.ofNat_toNat] at eq
  exact eq h

theorem isLowerDigit_digit {n : Nat} (h : n < 16) : IsLowerDigit (digit n) := by
  have check : ∀ n < 16, IsLowerDigit (digit n) := by decide
  exact check n h

theorem value_digit {n : Nat} (h : n < 16) : value (digit n).toUInt8 = n := by
  have check : ∀ n < 16, value (digit n).toUInt8 = n := by decide
  exact check n h

/-- The byte stands at the position, and is the first of the text that is no digit. -/
def IsFirstBad (text : Bytes) (bad : BadDigit) : Prop :=
  ∃ before after, text = before ++ bad.byte :: after ∧ before.length = bad.position ∧
    (∀ b ∈ before, IsDigit (Char.ofUInt8 b)) ∧ ¬IsDigit (Char.ofUInt8 bad.byte)

theorem exists_isFirstBad {text : Bytes} (h : ¬∀ b ∈ text, IsDigit (Char.ofUInt8 b)) :
    ∃ bad, IsFirstBad text bad := by
  obtain ⟨before, b, after, split, digits, stops⟩ :=
    exists_first_break (P := fun text => ∀ b ∈ text, IsDigit (Char.ofUInt8 b))
      (List.forall_mem_nil _) h
  refine ⟨⟨b, before.length⟩, before, after, split, rfl, digits, fun digit => stops ?_⟩
  exact List.forall_mem_append.mpr ⟨digits, List.forall_mem_singleton.mpr digit⟩

theorem digits_of_forall {text : Bytes} (h : ∀ b ∈ text, IsDigit (Char.ofUInt8 b)) :
    digits text = .ok (text.map value) := by
  have values : text.map value = text.zipIdx.map fun x => value x.1 := by
    conv_lhs => rw [← List.zipIdx_map_fst 0 text]
    rw [List.map_map]
    rfl
  unfold digits
  rw [values]
  apply mapM_eq_ok_map
  rintro ⟨b, position⟩ mem
  simp only [value?_of_isDigit (h b (List.fst_mem_of_mem_zipIdx mem))]

theorem digits_of_isFirstBad {text : Bytes} {bad : BadDigit} (h : IsFirstBad text bad) :
    digits text = .error bad := by
  obtain ⟨before, after, rfl, position, good, stops⟩ := h
  unfold digits
  rw [List.zipIdx_append, List.zipIdx_cons]
  apply mapM_eq_error
  · rintro ⟨b, place⟩ mem
    have digit := good b (List.fst_mem_of_mem_zipIdx mem)
    exact ⟨value b, by simp only [value?_of_isDigit digit]⟩
  · simp [value?_of_not_isDigit stops, position]

theorem digits_eq_error_iff {text : Bytes} {bad : BadDigit} :
    digits text = .error bad ↔ IsFirstBad text bad := by
  refine ⟨fun failed => ?_, digits_of_isFirstBad⟩
  by_cases h : ∀ b ∈ text, IsDigit (Char.ofUInt8 b)
  · rw [digits_of_forall h] at failed
    cases failed
  · obtain ⟨other, first⟩ := exists_isFirstBad h
    rw [digits_of_isFirstBad first] at failed
    exact Except.error.inj failed ▸ first

theorem decode_of_forall {text : Bytes} (h : ∀ b ∈ text, IsDigit (Char.ofUInt8 b)) :
    decode text = .ok (pack (text.map value)) := by
  unfold decode
  rw [digits_of_forall h]
  rfl

theorem decode_eq_error_iff {text : Bytes} {bad : BadDigit} :
    decode text = .error bad ↔ IsFirstBad text bad :=
  map_eq_error_iff.trans digits_eq_error_iff

/-- The two digits of each byte, the high one first. -/
def halves (bytes : Bytes) : List Nat := bytes.flatMap fun b => [b.toNat / 16, b.toNat % 16]

theorem toHex_eq (bytes : Bytes) :
    Bytes.toHex bytes = String.ofList ((halves bytes).map digit) := by
  simp [Bytes.toHex, halves, List.map_flatMap]

theorem length_halves (bytes : Bytes) : (halves bytes).length = 2 * bytes.length := by
  simp [halves, List.length_flatMap]
  omega

theorem lt_of_mem_halves {bytes : Bytes} {n : Nat} (mem : n ∈ halves bytes) : n < 16 := by
  obtain ⟨b, -, inside⟩ := List.mem_flatMap.mp mem
  have small := b.toNat_lt
  simp at inside
  omega

theorem pack_halves (bytes : Bytes) : pack (halves bytes) = bytes := by
  induction bytes with
  | nil => rfl
  | cons b bytes ih =>
    have both : 16 * (b.toNat / 16) + b.toNat % 16 = b.toNat := by omega
    show UInt8.ofNat (16 * (b.toNat / 16) + b.toNat % 16) :: pack (halves bytes) = b :: bytes
    rw [ih, both, UInt8.ofNat_toNat]

theorem halves_pack {ds : List Nat} (even : ds.length % 2 = 0) (small : ∀ d ∈ ds, d < 16) :
    halves (pack ds) = ds := by
  fun_induction pack ds with
  | case1 high low rest ih =>
    have high_lt := small high (by simp)
    have low_lt := small low (by simp)
    have byte : (UInt8.ofNat (16 * high + low)).toNat = 16 * high + low := by
      rw [UInt8.toNat_ofNat_of_lt']
      show _ < 256
      omega
    have rest_even : rest.length % 2 = 0 := by
      simp only [List.length_cons] at even
      omega
    have tail := ih rest_even fun d mem => small d (by simp [mem])
    show _ / 16 :: _ % 16 :: halves (pack rest) = _
    rw [byte, tail]
    congr 1
    · omega
    · congr 1
      omega
  | case2 ds short =>
    obtain _ | ⟨high, _ | ⟨low, rest⟩⟩ := ds
    · rfl
    · simp at even
    · exact absurd rfl (short high low rest)

theorem toList_toLower (text : String) : text.toLower.toList = text.toList.map Char.toLower :=
  String.toList_map

/-- What is read from a text is written as the text in lower case. -/
theorem toHex_pack {text : String} (even : (Bytes.ofText text).length % 2 = 0)
    (h : ∀ b ∈ Bytes.ofText text, IsDigit (Char.ofUInt8 b)) :
    Bytes.toHex (pack ((Bytes.ofText text).map value)) = text.toLower := by
  have small : ∀ d ∈ (Bytes.ofText text).map value, d < 16 := by
    intro d mem
    obtain ⟨b, -, rfl⟩ := List.mem_map.mp mem
    exact value_lt b
  have ascii : ∀ b ∈ Bytes.ofText text, b.toNat < 128 := by
    intro b mem
    rw [← Bytes.toNat_ofUInt8]
    exact (h b mem).ascii
  apply String.toList_inj.mp
  rw [toHex_eq, halves_pack (by simpa using even) small, String.toList_ofList, toList_toLower,
    Bytes.toList_of_ascii ascii, List.map_map, List.map_map]
  exact List.map_congr_left fun b mem => digit_value (h b mem)

theorem forall_mem_toHex {bytes : Bytes} : ∀ c ∈ (Bytes.toHex bytes).toList, IsLowerDigit c := by
  intro c mem
  rw [toHex_eq, String.toList_ofList] at mem
  obtain ⟨n, inside, rfl⟩ := List.mem_map.mp mem
  exact isLowerDigit_digit (lt_of_mem_halves inside)

theorem isDigit_of_mem_toHex {bytes : Bytes} : ∀ c ∈ (Bytes.toHex bytes).toList, IsDigit c :=
  fun c mem => .inl (forall_mem_toHex c mem)

theorem length_toHex (bytes : Bytes) : (Bytes.toHex bytes).length = 2 * bytes.length := by
  rw [toHex_eq, String.length_ofList, List.length_map, length_halves]

theorem decode_toHex (bytes : Bytes) : decode (Bytes.ofText (Bytes.toHex bytes)) = .ok bytes := by
  have ascii : ∀ c ∈ (halves bytes).map digit, c.toNat < 128 := by
    intro c mem
    have inside : c ∈ (Bytes.toHex bytes).toList := by rwa [toHex_eq, String.toList_ofList]
    exact (isDigit_of_mem_toHex c inside).ascii
  have values : ((halves bytes).map digit).map (value ∘ Char.toUInt8) = halves bytes := by
    have each : ∀ n ∈ halves bytes, value (digit n).toUInt8 = id n :=
      fun n mem => value_digit (lt_of_mem_halves mem)
    rw [List.map_map]
    exact (List.map_congr_left each).trans (List.map_id _)
  rw [decode_of_forall (forall_isDigit_iff.mpr isDigit_of_mem_toHex), toHex_eq,
    Bytes.ofText_ofList ascii, List.map_map, values, pack_halves]

theorem toHex_injective {a b : Bytes} (same : Bytes.toHex a = Bytes.toHex b) : a = b := by
  apply eq_of_reads_back decode_toHex
  rw [same]

section

variable {text bytes : Bytes} {count : Nat}

theorem decodeExact_of_odd (odd : text.length % 2 = 1) :
    decodeExact count text = .error .oddLength := by
  unfold decodeExact
  exact if_pos (by omega)

theorem decodeExact_of_wrongLength (even : text.length % 2 = 0) (wrong : text.length ≠ 2 * count) :
    decodeExact count text = .error .wrongLength := by
  unfold decodeExact
  rw [if_neg (by omega), dif_neg (by omega)]

theorem decodeExact_of_decode_ok (size : text.length = 2 * count)
    (read : decode text = .ok bytes) :
    ∃ length, decodeExact count text = .ok ⟨bytes, length⟩ := by
  unfold decodeExact
  rw [if_neg (by omega), dif_pos (by omega)]
  split
  next bad failed =>
    rw [read] at failed
    cases failed
  next other again =>
    obtain rfl := Except.ok.inj (again.symm.trans read)
    exact ⟨(length_of_decode read).trans (by omega), rfl⟩

/-- Digits of either case are read. -/
theorem decodeExact_of_forall (size : text.length = 2 * count)
    (h : ∀ b ∈ text, IsDigit (Char.ofUInt8 b)) :
    ∃ length, decodeExact count text = .ok ⟨pack (text.map value), length⟩ :=
  decodeExact_of_decode_ok size (decode_of_forall h)

/-- Among as many characters as there should be, the first that is no digit is named. -/
theorem decodeExact_of_isFirstBad {bad : BadDigit} (size : text.length = 2 * count)
    (first : IsFirstBad text bad) : decodeExact count text = .error (.badDigit bad) := by
  have failed := decode_eq_error_iff.mpr first
  unfold decodeExact
  rw [if_neg (by omega), dif_pos (by omega)]
  split
  next other again =>
    obtain rfl := Except.error.inj (again.symm.trans failed)
    rfl
  next read =>
    rw [failed] at read
    cases read

theorem decodeExact_eq_error_iff {fault : Fault} (size : text.length = 2 * count) :
    decodeExact count text = .error fault ↔ ∃ bad, IsFirstBad text bad ∧ fault = .badDigit bad := by
  constructor
  · intro failed
    by_cases h : ∀ b ∈ text, IsDigit (Char.ofUInt8 b)
    · obtain ⟨length, read⟩ := decodeExact_of_forall size h
      rw [read] at failed
      cases failed
    · obtain ⟨bad, first⟩ := exists_isFirstBad h
      rw [decodeExact_of_isFirstBad size first] at failed
      exact ⟨bad, first, (Except.error.inj failed).symm⟩
  · rintro ⟨bad, first, rfl⟩
    exact decodeExact_of_isFirstBad size first

/-- What is written is read back. -/
theorem decodeExact_toHex (bytes : Bytes) :
    decodeExact bytes.length (Bytes.ofText (Bytes.toHex bytes)) = .ok ⟨bytes, rfl⟩ := by
  have ascii : (Bytes.ofText (Bytes.toHex bytes)).length = (Bytes.toHex bytes).length :=
    Bytes.length_ofText_eq_iff.mpr fun c mem => (isDigit_of_mem_toHex c mem).ascii
  obtain ⟨_, read⟩ :=
    decodeExact_of_decode_ok (ascii.trans (length_toHex bytes)) (decode_toHex bytes)
  exact read

end

end Hex

end ContractLink
