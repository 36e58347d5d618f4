import ContractLink.Registry.Handler
import ContractLink.Proofs.Wire.Types
/-!
Self-delimiting formats. The first value of an input is settled by the input alone, and so is where
its encoding ends, whatever stands behind it. Unlike the round trip this holds of every value whose
lengths fit the eight bytes that are written for them, also of those that reading refuses.
-/
namespace ContractLink

namespace Format

variable {α β : Type}

/-- Two encodings with something behind each are the same bytes only if the values are the same and
what is behind them is. -/
def SelfDelimiting (format : Format α) : Prop :=
  ∀ ⦃v w : α⦄ ⦃r s : Bytes⦄, format.Expressible v → format.Expressible w →
    format.encode v ++ r = format.encode w ++ s → v = w ∧ r = s

/-- A format whose values are all read back is self-delimiting. -/
theorem Lawful.selfDelimiting {format : Format α} (law : format.Lawful)
    (readable : ∀ value, format.Readable value) : format.SelfDelimiting := by
  intro v w r s _ _ same
  have read := law.decode_readable r (readable v)
  rw [same, law.decode_readable s (readable w)] at read
  obtain ⟨rfl, rfl⟩ := Prod.mk.inj (Except.ok.inj read)
  exact ⟨rfl, rfl⟩

theorem selfDelimiting_u8 : u8.SelfDelimiting :=
  lawful_u8.selfDelimiting (readable_word 1 UInt8.toNat UInt8.ofNat)

namespace SelfDelimiting

variable {format : Format α}

theorem eq_of_encode_eq (law : format.SelfDelimiting) {v w : α} (fits : format.Expressible v)
    (fits' : format.Expressible w) (same : format.encode v = format.encode w) : v = w :=
  (law (r := []) (s := []) fits fits' (by rw [same])).1

theorem via (law : format.SelfDelimiting) {build : α → β} {raw : β → α}
    (build_raw : ∀ b, build (raw b) = b) : (format.via build raw).SelfDelimiting := by
  intro v w r s fits fits' same
  obtain ⟨equal, rest⟩ := law fits fits' same
  exact ⟨by rw [← build_raw v, equal, build_raw], rest⟩

theorem pair {second : Format β} (law : format.SelfDelimiting) (law' : second.SelfDelimiting) :
    (format.pair second).SelfDelimiting := by
  rintro ⟨v, w⟩ ⟨v', w'⟩ r s fits fits' same
  simp only [encode_pair, List.append_assoc] at same
  obtain ⟨rfl, behind⟩ := law fits.of_pair.1 fits'.of_pair.1 same
  obtain ⟨rfl, rfl⟩ := law' fits.of_pair.2 fits'.of_pair.2 behind
  exact ⟨rfl, rfl⟩

end SelfDelimiting

/-- The length in front of a sequence is settled, and what follows it. -/
theorem length_of_encode_append {m n : Nat} {r s : Bytes} (fits : m < 2 ^ 64) (fits' : n < 2 ^ 64)
    (same : u64.encode (.ofNat m) ++ r = u64.encode (.ofNat n) ++ s) : m = n ∧ r = s := by
  have readable : ∀ value, u64.Readable value := readable_word 8 UInt64.toNat UInt64.ofNat
  obtain ⟨words, rest⟩ := lawful_u64.selfDelimiting readable (readable _).expressible
    (readable _).expressible same
  have numbers := congrArg UInt64.toNat words
  rw [toNat_ofNat_of_lt fits, toNat_ofNat_of_lt fits'] at numbers
  exact ⟨numbers, rest⟩

/-- As many values one after another are settled one by one. -/
theorem SelfDelimiting.flatMap {format : Format α} (law : format.SelfDelimiting) {vs ws : List α}
    {r s : Bytes} (count : vs.length = ws.length) (fits : ∀ v ∈ vs, format.Expressible v)
    (fits' : ∀ w ∈ ws, format.Expressible w)
    (same : vs.flatMap format.encode ++ r = ws.flatMap format.encode ++ s) : vs = ws ∧ r = s := by
  induction vs generalizing ws with
  | nil =>
    obtain rfl := List.eq_nil_of_length_eq_zero count.symm
    exact ⟨rfl, same⟩
  | cons v vs ih =>
    cases ws with
    | nil => cases count
    | cons w ws =>
      obtain ⟨head, tail⟩ := List.forall_mem_cons.mp fits
      obtain ⟨head', tail'⟩ := List.forall_mem_cons.mp fits'
      simp only [List.flatMap_cons, List.append_assoc] at same
      obtain ⟨rfl, behind⟩ := law head head' same
      obtain ⟨rfl, rfl⟩ := ih (Nat.succ.inj count) tail tail' behind
      exact ⟨rfl, rfl⟩

theorem SelfDelimiting.list {format : Format α} (law : format.SelfDelimiting) :
    format.list.SelfDelimiting := by
  intro vs ws r s fits fits' same
  obtain ⟨count, items⟩ := fits.of_list
  obtain ⟨count', items'⟩ := fits'.of_list
  simp only [encode_list, List.append_assoc] at same
  obtain ⟨length, behind⟩ := length_of_encode_append count count' same
  exact law.flatMap length items items' behind

theorem selfDelimiting_text : text.SelfDelimiting := by
  intro v w r s fits fits' same
  simp only [encode_text, List.append_assoc] at same
  obtain ⟨length, behind⟩ := length_of_encode_append (fits _ (List.mem_singleton_self _))
    (fits' _ (List.mem_singleton_self _)) same
  obtain ⟨utf8, rest⟩ := List.append_inj behind length
  exact ⟨Bytes.ofText_injective utf8, rest⟩

theorem selfDelimiting_typedBytes : TypedBytes.format.SelfDelimiting :=
  (selfDelimiting_u8.pair selfDelimiting_u8.list).via fun _ => rfl

end Format

namespace Handler

theorem selfDelimiting_listFormat : listFormat.SelfDelimiting :=
  Format.selfDelimiting_typedBytes.list

theorem selfDelimiting_dictFormat : dictFormat.SelfDelimiting :=
  (Format.selfDelimiting_text.pair Format.selfDelimiting_typedBytes).list

end Handler

end ContractLink
