import ContractLink.Proofs.Wire.Lawful
/-!
The combinators of formats keep the law: pairs, options, sequences and texts of lawful formats are
lawful.
-/
namespace ContractLink

namespace Format

variable {α β : Type}

@[simp] theorem encode_pair (first : Format α) (second : Format β) (value : α × β) :
    (first.pair second).encode value = first.encode value.1 ++ second.encode value.2 := by
  simp [pair, encode]

theorem readable_pair (first : Format α) (second : Format β) (value : α × β) :
    (first.pair second).Readable value ↔ first.Readable value.1 ∧ second.Readable value.2 := by
  simp only [Readable, pair, List.forall_mem_append]

theorem Expressible.of_pair {first : Format α} {second : Format β} {value : α × β}
    (h : (first.pair second).Expressible value) :
    first.Expressible value.1 ∧ second.Expressible value.2 := by
  simpa only [Expressible, pair, List.forall_mem_append] using h

theorem Lawful.pair {first : Format α} {second : Format β} (law₁ : first.Lawful)
    (law₂ : second.Lawful) : (first.pair second).Lawful where
  decode_encode {value} rest expressible := by
    obtain ⟨fits₁, fits₂⟩ := expressible.of_pair
    have read₁ := law₁.decode_encode (second.encode value.2 ++ rest) fits₁
    have read₂ := law₂.decode_encode rest fits₂
    rw [encode_pair, List.append_assoc]
    by_cases readable₁ : first.Readable value.1
    · rw [if_pos readable₁] at read₁
      apply (Decoder.bind_of_ok _ read₁).trans
      by_cases readable₂ : second.Readable value.2
      · rw [if_pos readable₂] at read₂
        rw [if_pos ((readable_pair ..).mpr ⟨readable₁, readable₂⟩)]
        exact Decoder.bind_of_ok _ read₂
      · rw [if_neg readable₂] at read₂
        rw [if_neg fun h => readable₂ ((readable_pair ..).mp h).2]
        exact Decoder.bind_of_error _ read₂
    · rw [if_neg readable₁] at read₁
      rw [if_neg fun h => readable₁ ((readable_pair ..).mp h).1]
      exact Decoder.bind_of_error _ read₁
  of_decode_ok h := by
    obtain ⟨a, middle, read₁, h⟩ := Decoder.of_bind_ok h
    obtain ⟨b, last, read₂, eq⟩ := Decoder.of_bind_ok h
    obtain ⟨rfl, rfl⟩ : (a, b) = _ ∧ last = _ := by simpa using eq
    obtain ⟨readable₁, rfl⟩ := law₁.of_decode_ok read₁
    obtain ⟨readable₂, rfl⟩ := law₂.of_decode_ok read₂
    exact ⟨(readable_pair ..).mpr ⟨readable₁, readable₂⟩, by simp⟩
  encode_ne_nil value := by
    rw [encode_pair]
    exact List.append_ne_nil_of_left_ne_nil (law₁.encode_ne_nil _) _
  le_length_encode {value n} mem := by
    rw [encode_pair, List.length_append]
    rcases List.mem_append.mp mem with mem | mem
    · exact Nat.le_add_right_of_le (law₁.le_length_encode mem)
    · exact Nat.le_add_left_of_le (law₂.le_length_encode mem)

/-- One byte that selects how the rest is read. -/
theorem decode_u8 (flag : UInt8) (rest : Bytes) : u8.decode (flag :: rest) = .ok (flag, rest) := by
  have read := lawful_u8.decode_readable rest (readable_word 1 UInt8.toNat UInt8.ofNat flag)
  simpa [u8, Bytes.littleEndian] using read

theorem of_decode_u8_ok {input rest : Bytes} {flag : UInt8}
    (h : u8.decode input = .ok (flag, rest)) : input = flag :: rest := by
  have eq := (lawful_u8.of_decode_ok h).2
  simpa [u8, Bytes.littleEndian] using eq

@[simp] theorem encode_option_none (format : Format α) : format.option.encode none = [0] := by
  simp [option, encode, u8, word, Bytes.littleEndian]

@[simp] theorem encode_option_some (format : Format α) (value : α) :
    format.option.encode (some value) = 1 :: format.encode value := by
  simp [option, encode, u8, word, Bytes.littleEndian]

theorem readable_option_none (format : Format α) : format.option.Readable none :=
  fun _ mem => absurd mem List.not_mem_nil

theorem readable_option (format : Format α) (value? : Option α) :
    format.option.Readable value? ↔ ∀ value ∈ value?, format.Readable value := by
  cases value? with
  | none => simp [readable_option_none]
  | some value =>
    simp only [Option.mem_some_iff, forall_eq']
    exact Iff.rfl

theorem Lawful.option {format : Format α} (law : format.Lawful) : format.option.Lawful where
  decode_encode {value} rest expressible := by
    cases value with
    | none =>
      rw [if_pos (readable_option_none format)]
      exact Decoder.bind_of_ok _ (decode_u8 0 rest)
    | some value =>
      rw [encode_option_some]
      apply (Decoder.bind_of_ok _ (decode_u8 1 _)).trans
      exact law.decode_map some rest expressible
  of_decode_ok {input rest value} h := by
    obtain ⟨flag, middle, read, branch⟩ := Decoder.of_bind_ok h
    obtain rfl := of_decode_u8_ok read
    by_cases zero : flag = 0
    · obtain ⟨rfl, rfl⟩ : none = value ∧ middle = rest := by simpa [zero] using branch
      exact ⟨readable_option_none format, by simp [zero]⟩
    · by_cases one : flag = 1
      · subst one
        obtain ⟨a, rfl, readable, rfl⟩ := law.of_decode_map_ok branch
        exact ⟨readable, by simp⟩
      · simp [zero, one] at branch
  encode_ne_nil value := by cases value <;> simp
  le_length_encode {value n} mem := by
    cases value with
    | none => cases mem
    | some value =>
      rw [encode_option_some, List.length_cons]
      exact Nat.le_succ_of_le (law.le_length_encode mem)

theorem encode_u64 (value : UInt64) : u64.encode value = Bytes.littleEndian 8 value.toNat :=
  encode_word ..

theorem toNat_ofNat_of_lt {n : Nat} (h : n < 2 ^ 64) : (UInt64.ofNat n).toNat = n :=
  UInt64.toNat_ofNat_of_lt' h

theorem decodeLength_append {n : Nat} (rest : Bytes) (h : n < 2 ^ 64) :
    decodeLength (u64.encode (.ofNat n) ++ rest) =
      if n ≤ maxLength then .ok (n, rest) else .error .lengthOverflow := by
  have read := lawful_u64.decode_readable rest
    (readable_word 8 UInt64.toNat UInt64.ofNat (UInt64.ofNat n))
  apply (Decoder.bind_of_ok _ read).trans
  rw [toNat_ofNat_of_lt h]
  by_cases short : n ≤ maxLength
  · rw [if_neg (Nat.not_lt.mpr short), if_pos short]
    rfl
  · rw [if_pos (Nat.lt_of_not_le short), if_neg short]
    rfl

theorem of_decodeLength_ok {n : Nat} {input rest : Bytes} (h : decodeLength input = .ok (n, rest)) :
    n ≤ maxLength ∧ input = u64.encode (.ofNat n) ++ rest := by
  obtain ⟨word, middle, read, limited⟩ := Decoder.of_bind_ok h
  split at limited
  · simp at limited
  next short =>
    obtain ⟨rfl, rfl⟩ : word.toNat = n ∧ middle = rest := by simpa using limited
    refine ⟨Nat.le_of_not_lt short, ?_⟩
    rw [UInt64.ofNat_toNat]
    exact (lawful_u64.of_decode_ok read).2

theorem repeatInto_flatMap {format : Format α} (law : format.Lawful) (values done : List α)
    (rest : Bytes) (expressible : ∀ value ∈ values, format.Expressible value) :
    Decoder.repeatInto format.decode values.length done (values.flatMap format.encode ++ rest) =
      if ∀ value ∈ values, format.Readable value then .ok (done.reverse ++ values, rest)
      else .error .lengthOverflow := by
  induction values generalizing done with
  | nil => simp [Decoder.repeatInto]
  | cons value values ih =>
    have head := law.decode_encode (values.flatMap format.encode ++ rest)
      (expressible value List.mem_cons_self)
    have tail := ih (value :: done) fun v mem => expressible v (List.mem_cons_of_mem _ mem)
    rw [List.flatMap_cons, List.append_assoc, List.length_cons]
    by_cases readable : format.Readable value
    · rw [if_pos readable] at head
      rw [Decoder.repeatInto_of_ok _ _ head, tail]
      simp [readable]
    · rw [if_neg readable] at head
      rw [Decoder.repeatInto_of_error _ _ head]
      simp [readable]

theorem of_repeatInto_ok {format : Format α} (law : format.Lawful) {count : Nat}
    {done values : List α} {input rest : Bytes}
    (h : Decoder.repeatInto format.decode count done input = .ok (values, rest)) :
    ∃ read, values = done.reverse ++ read ∧ read.length = count ∧
      (∀ value ∈ read, format.Readable value) ∧ input = read.flatMap format.encode ++ rest := by
  induction count generalizing done input with
  | zero =>
    obtain ⟨rfl, rfl⟩ : done.reverse = values ∧ input = rest := by
      simpa [Decoder.repeatInto] using h
    exact ⟨[], by simp⟩
  | succ count ih =>
    cases head : format.decode input with
    | error e =>
      rw [Decoder.repeatInto_of_error _ _ head] at h
      cases h
    | ok found =>
      obtain ⟨value, middle⟩ := found
      rw [Decoder.repeatInto_of_ok _ _ head] at h
      obtain ⟨readable, rfl⟩ := law.of_decode_ok head
      obtain ⟨read, rfl, rfl, all, rfl⟩ := ih h
      exact ⟨value :: read, by simp, rfl, List.forall_mem_cons.mpr ⟨readable, all⟩, by simp⟩

theorem encode_list (format : Format α) (values : List α) :
    format.list.encode values =
      u64.encode (.ofNat values.length) ++ values.flatMap format.encode := by
  simp only [list, encode, List.flatten_append, List.flatMap_def, List.flatten_flatten,
    List.map_map]
  rfl

theorem readable_list (format : Format α) (values : List α) :
    format.list.Readable values ↔
      values.length ≤ maxLength ∧ ∀ value ∈ values, format.Readable value := by
  simp only [Readable, list, List.forall_mem_cons, List.mem_flatMap, forall_exists_index, and_imp]
  exact and_congr_right' ⟨fun h value mem n => h n value mem, fun h n value mem => h value mem n⟩

theorem Expressible.of_list {format : Format α} {values : List α}
    (h : format.list.Expressible values) :
    values.length < 2 ^ 64 ∧ ∀ value ∈ values, format.Expressible value := by
  obtain ⟨count, items⟩ := List.forall_mem_cons.mp h
  exact ⟨count, fun value mem n inside => items n (List.mem_flatMap.mpr ⟨value, mem, inside⟩)⟩

theorem length_le_length_flatMap {format : Format α} (law : format.Lawful) (values : List α) :
    values.length ≤ (values.flatMap format.encode).length := by
  induction values with
  | nil => simp
  | cons value values ih =>
    have pos := List.length_pos_iff.mpr (law.encode_ne_nil value)
    simp only [List.length_cons, List.flatMap_cons, List.length_append]
    omega

theorem Lawful.list {format : Format α} (law : format.Lawful) : format.list.Lawful where
  decode_encode {values} rest expressible := by
    obtain ⟨count, items⟩ := expressible.of_list
    have length := decodeLength_append (values.flatMap format.encode ++ rest) count
    rw [encode_list, List.append_assoc]
    by_cases short : values.length ≤ maxLength
    · rw [if_pos short] at length
      apply (Decoder.bind_of_ok _ length).trans
      apply (repeatInto_flatMap law values [] rest items).trans
      simp [readable_list, short]
    · rw [if_neg short] at length
      rw [if_neg fun h => short ((readable_list ..).mp h).1]
      exact Decoder.bind_of_error _ length
  of_decode_ok h := by
    obtain ⟨count, middle, length, items⟩ := Decoder.of_bind_ok h
    obtain ⟨short, rfl⟩ := of_decodeLength_ok length
    obtain ⟨read, rfl, rfl, all, rfl⟩ := of_repeatInto_ok law items
    exact ⟨(readable_list ..).mpr ⟨short, all⟩, by simp [encode_list]⟩
  encode_ne_nil values := by
    rw [encode_list]
    exact List.append_ne_nil_of_left_ne_nil (lawful_u64.encode_ne_nil _) _
  le_length_encode {values n} mem := by
    rw [encode_list, List.length_append]
    rcases List.mem_cons.mp mem with rfl | mem
    · exact Nat.le_add_left_of_le (length_le_length_flatMap law values)
    · obtain ⟨value, mem, inside⟩ := List.mem_flatMap.mp mem
      have part : (format.encode value).Sublist (values.flatMap format.encode) :=
        List.sublist_flatten_of_mem (List.mem_map_of_mem mem)
      exact Nat.le_add_left_of_le (Nat.le_trans (law.le_length_encode inside) part.length_le)

theorem encode_text (value : String) :
    text.encode value = u64.encode (.ofNat (Bytes.ofText value).length) ++ Bytes.ofText value := by
  simp [text, encode]

theorem readable_text (value : String) :
    text.Readable value ↔ (Bytes.ofText value).length ≤ maxLength := by
  simp [Readable, text]

theorem lawful_text : text.Lawful where
  decode_encode {value} rest expressible := by
    have count : (Bytes.ofText value).length < 2 ^ 64 := expressible _ (List.mem_singleton_self _)
    have length := decodeLength_append (Bytes.ofText value ++ rest) count
    rw [encode_text, List.append_assoc]
    by_cases short : (Bytes.ofText value).length ≤ maxLength
    · rw [if_pos short] at length
      rw [if_pos ((readable_text value).mpr short)]
      apply (Decoder.bind_of_ok _ length).trans
      apply (Decoder.bind_of_ok _ (Decoder.take_append _ rest)).trans
      rw [Bytes.toText?_ofText]
      rfl
    · rw [if_neg short] at length
      rw [if_neg fun h => short ((readable_text value).mp h)]
      exact Decoder.bind_of_error _ length
  of_decode_ok h := by
    obtain ⟨count, middle, length, contents⟩ := Decoder.of_bind_ok h
    obtain ⟨utf8, last, taken, valid⟩ := Decoder.of_bind_ok contents
    obtain ⟨short, rfl⟩ := of_decodeLength_ok length
    obtain ⟨rfl, rfl⟩ := Decoder.of_take_ok taken
    cases decoded : Bytes.toText? utf8 with
    | none => simp [decoded] at valid
    | some text =>
      obtain ⟨rfl, rfl⟩ : text = _ ∧ last = _ := by simpa [decoded] using valid
      obtain rfl := Bytes.ofText_of_toText? decoded
      exact ⟨(readable_text text).mpr short, by simp [encode_text]⟩
  encode_ne_nil value := by
    rw [encode_text]
    exact List.append_ne_nil_of_left_ne_nil (lawful_u64.encode_ne_nil _) _
  le_length_encode mem := by
    obtain rfl := List.mem_singleton.mp mem
    rw [encode_text, List.length_append]
    exact Nat.le_add_left _ _

theorem lawful_blob : blob.Lawful := lawful_u8.list

theorem readable_blob (data : Bytes) : blob.Readable data ↔ data.length ≤ maxLength := by
  simp [blob, readable_list, u8]

theorem length_encode_list_le {format : Format α} {values : List α} {most : Nat}
    (each : ∀ value ∈ values, (format.encode value).length ≤ most) :
    (format.list.encode values).length ≤ 8 + values.length * most := by
  have items : (values.flatMap format.encode).length ≤ values.length * most := by
    induction values with
    | nil => simp
    | cons value rest ih =>
      obtain ⟨head, tail⟩ := List.forall_mem_cons.mp each
      have rest := ih tail
      simp only [List.flatMap_cons, List.length_append, List.length_cons, Nat.succ_mul]
      omega
  rw [encode_list, encode_u64, List.length_append, Bytes.length_littleEndian]
  exact Nat.add_le_add_left items 8

/-- Sequences are read only up to a number of items, so those of short items are short. -/
theorem length_encode_list_lt {format : Format α} {values : List α} {most : Nat}
    (readable : format.list.Readable values)
    (each : ∀ value, format.Readable value → (format.encode value).length ≤ most)
    (limit : 8 + maxLength * most < 2 ^ 64) : (format.list.encode values).length < 2 ^ 64 := by
  obtain ⟨count, inside⟩ := (readable_list format values).mp readable
  have size := length_encode_list_le fun value mem => each value (inside value mem)
  have total := Nat.mul_le_mul_right most count
  omega

theorem length_encode_text_le {value : String} (readable : text.Readable value) :
    (text.encode value).length ≤ 8 + maxLength := by
  rw [encode_text, encode_u64, List.length_append, Bytes.length_littleEndian]
  exact Nat.add_le_add_left ((readable_text value).mp readable) 8

theorem length_encode_blob (data : Bytes) : (blob.encode data).length = 8 + data.length := by
  have bytes : (data.flatMap u8.encode).length = data.length := by
    induction data with
    | nil => rfl
    | cons b rest ih =>
      have byte : (u8.encode b).length = 1 := by simp [u8]
      rw [List.flatMap_cons, List.length_append, byte, ih, List.length_cons, Nat.add_comm]
  rw [blob, encode_list, encode_u64, List.length_append, Bytes.length_littleEndian, bytes]

theorem length_encode_blob_le {data : Bytes} (readable : blob.Readable data) :
    (blob.encode data).length ≤ 8 + maxLength := by
  have short : data.length ≤ maxLength := readable _ List.mem_cons_self
  rw [length_encode_blob]
  exact Nat.add_le_add_left short 8

end Format

end ContractLink
