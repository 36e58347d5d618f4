import ContractLink.Address.Text
import ContractLink.Proofs.Text.Hex
/-!
The grammar of addresses as text. A text is taken apart by bytes, but only between characters; what
is behind the marker must be digits. Main statement: which texts the two readers accept and as which
address, what is wrong with every other text, and that an address is written in the one canonical
form of the texts it is read from.
-/
namespace ContractLink

namespace Address

/-- The text is a marker of two bytes and a body of forty. -/
structure IsSplit (text marker body : String) : Prop where
  eq : text = marker ++ body
  length_marker : (Bytes.ofText marker).length = 2
  length_body : (Bytes.ofText body).length = 40

/-- Why the text has no marker and body. -/
inductive Unsplit (text : String) : AddressError → Prop
  | size (wrong : (Bytes.ofText text).length ≠ 42) :
      Unsplit text (.wrongTextSize (Bytes.ofText text).length)
  | inside (size : (Bytes.ofText text).length = 42) (cut : ¬String.Pos.Raw.IsValid text ⟨2⟩) :
      Unsplit text (.splitMarker text)

/-- A marker that both readers know. -/
def IsMarker (marker : String) : Prop := marker = "hx" ∨ marker = "cx"

instance (marker : String) : Decidable (IsMarker marker) := inferInstanceAs (Decidable (_ ∨ _))

/-- A known marker and forty lower-case digits. -/
def Canonical (text : String) : Prop :=
  ∃ marker body : String, text = marker ++ body ∧ IsMarker marker ∧ body.length = 40 ∧
    ∀ c ∈ body.toList, Hex.IsLowerDigit c

variable {text marker body : String} {a : Address} {e : AddressError}

theorem IsMarker.length_ofText (known : IsMarker marker) : (Bytes.ofText marker).length = 2 := by
  rcases known with rfl | rfl <;> rfl

/-- Digits are as many bytes as characters. -/
theorem length_ofText_of_digits (digits : ∀ c ∈ body.toList, Hex.IsDigit c) :
    (Bytes.ofText body).length = body.length :=
  Bytes.length_ofText_eq_iff.mpr fun c mem => (digits c mem).ascii

theorem isSplit_of_digits (known : IsMarker marker) (size : body.length = 40)
    (digits : ∀ c ∈ body.toList, Hex.IsDigit c) : IsSplit (marker ++ body) marker body :=
  ⟨rfl, known.length_ofText, (length_ofText_of_digits digits).trans size⟩

/-- The bytes of a text up to a position are a text of their own just when no character is cut. -/
theorem isValid_of_toText?_take {n : Nat} (size : n ≤ (Bytes.ofText text).length)
    (front : Bytes.toText? ((Bytes.ofText text).take n) = some marker) :
    String.Pos.Raw.IsValid text ⟨n⟩ := by
  have same := Bytes.ofText_of_toText? front
  have bytes : text.toByteArray.extract 0 n = marker.toByteArray := by
    apply ByteArray.ext
    apply Array.toList_inj.mp
    rw [ByteArray.data_extract, Array.toList_extract]
    simpa [Bytes.ofText, List.extract] using same.symm
  rw [String.Pos.Raw.isValid_iff_isValidUTF8_extract_zero]
  constructor
  · rw [String.Pos.Raw.le_iff]
    simpa [Bytes.ofText] using size
  · rw [bytes]
    exact marker.isValidUTF8

theorem exists_isSplit_iff : (∃ marker body, IsSplit text marker body) ↔
    (Bytes.ofText text).length = 42 ∧ String.Pos.Raw.IsValid text ⟨2⟩ := by
  rw [String.Pos.Raw.isValid_iff_exists_append]
  constructor
  · rintro ⟨marker, body, rfl, two, forty⟩
    refine ⟨by simp [two, forty], marker, body, rfl, ?_⟩
    rw [String.Pos.Raw.ext_iff]
    exact two.symm
  · rintro ⟨size, marker, body, rfl, two⟩
    rw [String.Pos.Raw.ext_iff] at two
    have length_marker : (Bytes.ofText marker).length = 2 := two.symm
    refine ⟨marker, body, rfl, length_marker, ?_⟩
    rw [Bytes.ofText_append, List.length_append] at size
    omega

theorem isSplit_or_unsplit (text : String) :
    (∃ marker body, IsSplit text marker body) ∨ ∃ e, Unsplit text e := by
  rw [exists_isSplit_iff]
  by_cases size : (Bytes.ofText text).length = 42
  · by_cases between : String.Pos.Raw.IsValid text ⟨2⟩
    · exact .inl ⟨size, between⟩
    · exact .inr ⟨_, .inside size between⟩
  · exact .inr ⟨_, .size size⟩

theorem splitText_of_isSplit (split : IsSplit text marker body) :
    splitText text = .ok (marker, Bytes.ofText body) := by
  obtain ⟨rfl, two, forty⟩ := split
  have size : (Bytes.ofText (marker ++ body)).length = textSize := by
    simp [two, forty, textSize, bodySize]
  have front : (Bytes.ofText (marker ++ body)).take 2 = Bytes.ofText marker := by
    rw [Bytes.ofText_append, List.take_left' two]
  have back : (Bytes.ofText (marker ++ body)).drop 2 = Bytes.ofText body := by
    rw [Bytes.ofText_append, List.drop_left' two]
  simp only [splitText, size, front, back, Bytes.toText?_ofText]
  rfl

theorem splitText_of_unsplit (unsplit : Unsplit text e) : splitText text = .error e := by
  unfold splitText
  cases unsplit with
  | size wrong => exact if_pos wrong
  | inside size cut =>
    have none : Bytes.toText? ((Bytes.ofText text).take 2) = none := by
      cases front : Bytes.toText? ((Bytes.ofText text).take 2) with
      | none => rfl
      | some marker => exact absurd (isValid_of_toText?_take (by omega) front) cut
    have whole : ¬(Bytes.ofText text).length ≠ textSize := fun wrong => wrong size
    simp only [whole, if_false, none]

/-- A text has one marker and one body. -/
theorem IsSplit.unique {marker' body' : String} (split : IsSplit text marker body)
    (again : IsSplit text marker' body') : marker = marker' ∧ body = body' := by
  have same := (splitText_of_isSplit split).symm.trans (splitText_of_isSplit again)
  obtain ⟨rfl, bodies⟩ := Prod.mk.inj (Except.ok.inj same)
  exact ⟨rfl, Bytes.ofText_injective bodies⟩

theorem IsSplit.not_unsplit (split : IsSplit text marker body) : ¬Unsplit text e := by
  intro unsplit
  have parts := splitText_of_isSplit split
  rw [splitText_of_unsplit unsplit] at parts
  cases parts

theorem ofDigits_of_forall (contract : Bool) (size : (Bytes.ofText body).length = 40)
    (digits : ∀ b ∈ Bytes.ofText body, Hex.IsDigit (Char.ofUInt8 b)) :
    ∃ a, ofDigits contract (Bytes.ofText body) = .ok a ∧ a.contract = contract ∧
      Bytes.toHex a.body = body.toLower := by
  have twice : (Bytes.ofText body).length = 2 * bodySize := size
  obtain ⟨length, read⟩ := Hex.decodeExact_of_forall twice digits
  refine ⟨⟨contract, _, length⟩, ?_, rfl, Hex.toHex_pack (by omega) digits⟩
  rw [ofDigits, read]

theorem ofDigits_eq_error_iff {contract : Bool} (size : (Bytes.ofText body).length = 40) :
    ofDigits contract (Bytes.ofText body) = .error e ↔
      ∃ bad, Hex.IsFirstBad (Bytes.ofText body) bad ∧ e = .badDigit bad.byte bad.position := by
  have twice : (Bytes.ofText body).length = 2 * bodySize := size
  constructor
  · intro failed
    cases read : Hex.decodeExact bodySize (Bytes.ofText body) with
    | ok body =>
      rw [ofDigits, read] at failed
      cases failed
    | error fault =>
      rw [ofDigits, read] at failed
      obtain ⟨bad, first, rfl⟩ := (Hex.decodeExact_eq_error_iff twice).mp read
      exact ⟨bad, first, (Except.error.inj failed).symm⟩
  · rintro ⟨bad, first, rfl⟩
    rw [ofDigits, Hex.decodeExact_of_isFirstBad twice first]
    rfl

theorem ofText_of_isSplit (split : IsSplit text marker body) :
    ofText text = ofDigits (marker = "cx") (Bytes.ofText body) := by
  unfold ofText
  rw [splitText_of_isSplit split]
  rfl

theorem ofText_of_unsplit (unsplit : Unsplit text e) : ofText text = .error e := by
  unfold ofText
  rw [splitText_of_unsplit unsplit]
  rfl

theorem ofTextStrict_of_unsplit (unsplit : Unsplit text e) : ofTextStrict text = .error e := by
  unfold ofTextStrict
  rw [splitText_of_unsplit unsplit]
  rfl

/-- With a marker that they know the readers agree. -/
theorem ofTextStrict_of_isMarker (split : IsSplit text marker body) (known : IsMarker marker) :
    ofTextStrict text = ofText text := by
  rw [ofText_of_isSplit split]
  unfold ofTextStrict
  rw [splitText_of_isSplit split]
  rcases known with rfl | rfl <;> rfl

theorem ofTextStrict_of_not_isMarker (split : IsSplit text marker body)
    (unknown : ¬IsMarker marker) : ofTextStrict text = .error (.unknownMarker marker) := by
  have contract : marker ≠ contractMarker := fun same => unknown (.inr same)
  have account : marker ≠ accountMarker := fun same => unknown (.inl same)
  unfold ofTextStrict
  rw [splitText_of_isSplit split]
  show (if marker = contractMarker then _ else if marker = accountMarker then _ else _) = _
  rw [if_neg contract, if_neg account]
  rfl

theorem ofText_eq_ok_iff (split : IsSplit text marker body) :
    ofText text = .ok a ↔ (∀ b ∈ Bytes.ofText body, Hex.IsDigit (Char.ofUInt8 b)) ∧
      (a.contract = true ↔ marker = "cx") ∧ Bytes.toHex a.body = body.toLower := by
  rw [ofText_of_isSplit split]
  by_cases digits : ∀ b ∈ Bytes.ofText body, Hex.IsDigit (Char.ofUInt8 b)
  · obtain ⟨read, eq, contract, hex⟩ :=
      ofDigits_of_forall (decide (marker = "cx")) split.length_body digits
    rw [eq, Except.ok.injEq, and_iff_right digits]
    constructor
    · rintro rfl
      exact ⟨by simp [contract], hex⟩
    · rintro ⟨contract', hex'⟩
      obtain ⟨c, bytes, length⟩ := a
      obtain ⟨c', bytes', length'⟩ := read
      have bodies : bytes' = bytes := Hex.toHex_injective (hex.trans hex'.symm)
      have contracts : c' = c := by
        rw [Bool.eq_iff_iff, contract']
        simpa using congrArg (· = true) contract
      subst bodies contracts
      rfl
  · obtain ⟨bad, first⟩ := Hex.exists_isFirstBad digits
    rw [(ofDigits_eq_error_iff split.length_body).mpr ⟨bad, first, rfl⟩]
    exact iff_of_false (by simp) fun h => digits h.1

/-- What is wrong with a text, to a reader that knows some markers: it has no marker and body, or it
has and the marker is not known, or it is and some byte of the body is no digit. -/
inductive Refused (Known : String → Prop) (text : String) : AddressError → Prop
  | unsplit {e : AddressError} (unsplit : Unsplit text e) : Refused Known text e
  | marker {marker body : String} (split : IsSplit text marker body) (unknown : ¬Known marker) :
      Refused Known text (.unknownMarker marker)
  | digit {marker body : String} {bad : Hex.BadDigit} (split : IsSplit text marker body)
      (known : Known marker) (first : Hex.IsFirstBad (Bytes.ofText body) bad) :
      Refused Known text (.badDigit bad.byte bad.position)

variable {Known : String → Prop}

theorem Unsplit.refused_iff {reason : AddressError} (unsplit : Unsplit text reason) :
    Refused Known text e ↔ e = reason := by
  constructor
  · intro refused
    cases refused with
    | unsplit again =>
      have same := splitText_of_unsplit unsplit
      rw [splitText_of_unsplit again] at same
      exact Except.error.inj same
    | marker split | digit split => exact absurd unsplit split.not_unsplit
  · rintro rfl
    exact .unsplit unsplit

theorem IsSplit.refused_iff_of_known (split : IsSplit text marker body) (known : Known marker) :
    Refused Known text e ↔
      ∃ bad, Hex.IsFirstBad (Bytes.ofText body) bad ∧ e = .badDigit bad.byte bad.position := by
  constructor
  · intro refused
    cases refused with
    | unsplit unsplit => exact absurd unsplit split.not_unsplit
    | marker again unknown => exact absurd ((split.unique again).1 ▸ known) unknown
    | digit again _ first => exact ⟨_, (split.unique again).2 ▸ first, rfl⟩
  · rintro ⟨bad, first, rfl⟩
    exact .digit split known first

theorem IsSplit.refused_iff_of_not_known (split : IsSplit text marker body)
    (unknown : ¬Known marker) : Refused Known text e ↔ e = .unknownMarker marker := by
  constructor
  · intro refused
    cases refused with
    | unsplit unsplit => exact absurd unsplit split.not_unsplit
    | marker again => rw [(split.unique again).1]
    | digit again known => exact absurd ((split.unique again).1 ▸ known) unknown
  · rintro rfl
    exact .marker split unknown

theorem ofText_eq_error_iff : ofText text = .error e ↔ Refused (fun _ => True) text e := by
  rcases isSplit_or_unsplit text with ⟨marker, body, split⟩ | ⟨reason, unsplit⟩
  · rw [split.refused_iff_of_known trivial, ofText_of_isSplit split,
      ofDigits_eq_error_iff split.length_body]
  · rw [unsplit.refused_iff, ofText_of_unsplit unsplit, Except.error.injEq, eq_comm]

theorem ofTextStrict_eq_error_iff : ofTextStrict text = .error e ↔ Refused IsMarker text e := by
  rcases isSplit_or_unsplit text with ⟨marker, body, split⟩ | ⟨reason, unsplit⟩
  · by_cases known : IsMarker marker
    · rw [ofTextStrict_of_isMarker split known, ofText_eq_error_iff, split.refused_iff_of_known known,
        split.refused_iff_of_known trivial]
    · rw [split.refused_iff_of_not_known known, ofTextStrict_of_not_isMarker split known,
        Except.error.injEq, eq_comm]
  · rw [unsplit.refused_iff, ofTextStrict_of_unsplit unsplit, Except.error.injEq, eq_comm]

/-- What an address is read from. -/
theorem of_ofText_ok (read : ofText text = .ok a) : ∃ marker body, IsSplit text marker body ∧
    (∀ c ∈ body.toList, Hex.IsDigit c) ∧ (a.contract = true ↔ marker = "cx") ∧
      Bytes.toHex a.body = body.toLower := by
  rcases isSplit_or_unsplit text with ⟨marker, body, split⟩ | ⟨reason, unsplit⟩
  · obtain ⟨digits, contract, hex⟩ := (ofText_eq_ok_iff split).mp read
    exact ⟨marker, body, split, Hex.forall_isDigit_iff.mp digits, contract, hex⟩
  · rw [ofText_of_unsplit unsplit] at read
    cases read

theorem exists_ofText_eq_ok_iff : (∃ a, ofText text = .ok a) ↔
    ∃ marker body, IsSplit text marker body ∧ ∀ c ∈ body.toList, Hex.IsDigit c := by
  constructor
  · rintro ⟨a, read⟩
    obtain ⟨marker, body, split, digits, -⟩ := of_ofText_ok read
    exact ⟨marker, body, split, digits⟩
  · rintro ⟨marker, body, split, digits⟩
    obtain ⟨a, read, -⟩ := ofDigits_of_forall (decide (marker = "cx")) split.length_body
      (Hex.forall_isDigit_iff.mpr digits)
    exact ⟨a, (ofText_of_isSplit split).trans read⟩

/-- The lenient reader can be told by the bytes. -/
theorem exists_ofText_eq_ok_iff_bytes : (∃ a, ofText text = .ok a) ↔
    (Bytes.ofText text).length = 42 ∧ String.Pos.Raw.IsValid text ⟨2⟩ ∧
      ∀ b ∈ (Bytes.ofText text).drop 2, Hex.IsDigit (Char.ofUInt8 b) := by
  have back {marker body : String} (split : IsSplit text marker body) :
      (∀ b ∈ (Bytes.ofText text).drop 2, Hex.IsDigit (Char.ofUInt8 b)) ↔
        ∀ c ∈ body.toList, Hex.IsDigit c := by
    rw [split.eq, Bytes.ofText_append, List.drop_left' split.length_marker]
    exact Hex.forall_isDigit_iff
  rw [exists_ofText_eq_ok_iff, ← and_assoc, ← exists_isSplit_iff]
  constructor
  · rintro ⟨marker, body, split, digits⟩
    exact ⟨⟨marker, body, split⟩, (back split).mpr digits⟩
  · rintro ⟨⟨marker, body, split⟩, digits⟩
    exact ⟨marker, body, split, (back split).mp digits⟩

theorem ofText_of_ofTextStrict_ok (read : ofTextStrict text = .ok a) : ofText text = .ok a := by
  rcases isSplit_or_unsplit text with ⟨marker, body, split⟩ | ⟨reason, unsplit⟩
  · by_cases known : IsMarker marker
    · rwa [← ofTextStrict_of_isMarker split known]
    · rw [ofTextStrict_of_not_isMarker split known] at read
      cases read
  · rw [ofTextStrict_of_unsplit unsplit] at read
    cases read

theorem exists_ofTextStrict_eq_ok_iff : (∃ a, ofTextStrict text = .ok a) ↔
    ∃ marker body : String, text = marker ++ body ∧ IsMarker marker ∧ body.length = 40 ∧
      ∀ c ∈ body.toList, Hex.IsDigit c := by
  constructor
  · rintro ⟨a, read⟩
    obtain ⟨marker, body, split, digits, -⟩ := of_ofText_ok (ofText_of_ofTextStrict_ok read)
    have known : IsMarker marker := by
      by_contra unknown
      rw [ofTextStrict_of_not_isMarker split unknown] at read
      cases read
    have size := split.length_body
    rw [length_ofText_of_digits digits] at size
    exact ⟨marker, body, split.eq, known, size, digits⟩
  · rintro ⟨marker, body, rfl, known, size, digits⟩
    have split := isSplit_of_digits known size digits
    rw [ofTextStrict_of_isMarker split known]
    exact exists_ofText_eq_ok_iff.mpr ⟨marker, body, split, digits⟩

/-- The readers part over a marker that only the lenient one puts up with, whatever is behind it. -/
theorem ofText_ne_ofTextStrict_iff : ofText text ≠ ofTextStrict text ↔
    ∃ marker body, IsSplit text marker body ∧ ¬IsMarker marker := by
  constructor
  · intro differ
    rcases isSplit_or_unsplit text with ⟨marker, body, split⟩ | ⟨reason, unsplit⟩
    · exact ⟨marker, body, split, fun known => differ (ofTextStrict_of_isMarker split known).symm⟩
    · rw [ofText_of_unsplit unsplit, ofTextStrict_of_unsplit unsplit] at differ
      exact absurd rfl differ
  · rintro ⟨marker, body, split, unknown⟩ same
    rw [ofTextStrict_of_not_isMarker split unknown, ofText_eq_error_iff,
      split.refused_iff_of_known trivial] at same
    obtain ⟨bad, -, eq⟩ := same
    cases eq

theorem toLower_eq_iff (digits : ∀ c ∈ body.toList, Hex.IsDigit c) :
    body.toLower = body ↔ ∀ c ∈ body.toList, Hex.IsLowerDigit c := by
  have same : body.toLower = body ↔ body.toList.map Char.toLower = body.toList.map id := by
    rw [← String.toList_inj, Hex.toList_toLower, List.map_id]
  rw [same, List.map_inj_left]
  exact forall₂_congr fun c mem => (digits c mem).isLowerDigit_iff.symm

theorem isMarker_toText (a : Address) : IsMarker (if a.contract then "cx" else "hx") := by
  cases a.contract
  · exact .inl rfl
  · exact .inr rfl

theorem toText_eq (a : Address) :
    a.toText = (if a.contract then "cx" else "hx") ++ Bytes.toHex a.body := rfl

theorem length_toHex_body (a : Address) : (Bytes.toHex a.body).length = 40 := by
  rw [Hex.length_toHex, a.length_body]

theorem canonical_toText (a : Address) : Canonical a.toText :=
  ⟨_, _, a.toText_eq, a.isMarker_toText, a.length_toHex_body, Hex.forall_mem_toHex⟩

theorem isSplit_toText (a : Address) :
    IsSplit a.toText (if a.contract then "cx" else "hx") (Bytes.toHex a.body) :=
  isSplit_of_digits a.isMarker_toText a.length_toHex_body Hex.isDigit_of_mem_toHex

/-- What is written is read back. -/
theorem ofText_toText (a : Address) : ofText a.toText = .ok a := by
  have digits := Hex.forall_isDigit_iff.mpr (@Hex.isDigit_of_mem_toHex a.body)
  have lower : (Bytes.toHex a.body).toLower = Bytes.toHex a.body :=
    (toLower_eq_iff Hex.isDigit_of_mem_toHex).mpr Hex.forall_mem_toHex
  have marker : a.contract = true ↔ (if a.contract then "cx" else "hx") = "cx" := by
    cases a.contract <;> simp
  exact (ofText_eq_ok_iff a.isSplit_toText).mpr ⟨digits, marker, lower.symm⟩

theorem ofTextStrict_toText (a : Address) : ofTextStrict a.toText = .ok a := by
  rw [ofTextStrict_of_isMarker a.isSplit_toText a.isMarker_toText, ofText_toText]

/-- A text in canonical form is written for the address that is read from it, and no other text
is. -/
theorem toText_eq_iff_canonical (read : ofText text = .ok a) :
    a.toText = text ↔ Canonical text := by
  constructor
  · intro same
    exact same ▸ a.canonical_toText
  · rintro ⟨marker, body, rfl, known, size, lower⟩
    have digits : ∀ c ∈ body.toList, Hex.IsDigit c := fun c mem => .inl (lower c mem)
    obtain ⟨-, contract, hex⟩ := (ofText_eq_ok_iff (isSplit_of_digits known size digits)).mp read
    have same : (if a.contract then "cx" else "hx") = marker := by
      by_cases cx : marker = "cx"
      · rw [if_pos (contract.mpr cx), cx]
      · rw [if_neg (mt contract.mp cx), known.resolve_right cx]
    rw [toText_eq, same, hex, (toLower_eq_iff digits).mpr lower]

/-- The strict reader accepts the texts of a known marker and forty digits of either case. The
lenient reader measures in bytes and takes every marker but `cx` for `hx`; it differs from the
strict one over such markers only. Of an accepted text the address is written as the marker, which
is `hx` unless it was `cx`, and the body in lower case, which is the text again just when the text
is canonical, and which both readers read as the address. Every other text is refused for its size,
for a character across the second byte, for its marker or for the first byte of its body that is no
digit, in this order. -/
theorem text_grammar (text : String) :
    ((∃ a, ofTextStrict text = .ok a) ↔ ∃ marker body : String, text = marker ++ body ∧
      (marker = "hx" ∨ marker = "cx") ∧ body.length = 40 ∧ ∀ c ∈ body.toList, Hex.IsDigit c) ∧
    ((∃ a, ofText text = .ok a) ↔ (Bytes.ofText text).length = 42 ∧
      String.Pos.Raw.IsValid text ⟨2⟩ ∧
      ∀ b ∈ (Bytes.ofText text).drop 2, Hex.IsDigit (Char.ofUInt8 b)) ∧
    parse text = ofText text ∧
    (∀ a, ofTextStrict text = .ok a → ofText text = .ok a) ∧
    (ofText text ≠ ofTextStrict text ↔ ∃ marker body, IsSplit text marker body ∧
      ¬(marker = "hx" ∨ marker = "cx")) ∧
    (∀ a, ofText text = .ok a → ∃ marker body, IsSplit text marker body ∧
      (a.contract = true ↔ marker = "cx") ∧
      a.toText = (if marker = "cx" then "cx" else "hx") ++ body.toLower ∧
      (a.toText = text ↔ Canonical text) ∧
      ofText a.toText = .ok a ∧ ofTextStrict a.toText = .ok a) ∧
    ∀ e, (ofText text = .error e ↔ Refused (fun _ => True) text e) ∧
      (ofTextStrict text = .error e ↔ Refused IsMarker text e) := by
  refine ⟨exists_ofTextStrict_eq_ok_iff, exists_ofText_eq_ok_iff_bytes, rfl,
    fun a => ofText_of_ofTextStrict_ok, ofText_ne_ofTextStrict_iff, fun a read => ?_,
    fun e => ⟨ofText_eq_error_iff, ofTextStrict_eq_error_iff⟩⟩
  obtain ⟨marker, body, split, -, contract, hex⟩ := of_ofText_ok read
  have written : a.toText = (if marker = "cx" then "cx" else "hx") ++ body.toLower := by
    rw [toText_eq, hex]
    simp only [contract]
  exact ⟨marker, body, split, contract, written, toText_eq_iff_canonical read, ofText_toText a,
    ofTextStrict_toText a⟩

/-- A marker that is one character of two bytes, and a digit in upper case. -/
theorem text_grammar_wide_marker :
    let text := "é00000000000000000000000000000000000000Ab"
    let a : Address := ⟨false, List.replicate 19 0 ++ [0xAB], rfl⟩
    ofText text = .ok a ∧ a.toText = "hx00000000000000000000000000000000000000ab" ∧
      ¬Canonical text ∧ Refused IsMarker text (.unknownMarker "é") ∧
      ofTextStrict a.toText = .ok a ∧ ofText a.toText = .ok a := by
  intro text a
  have read : ofText text = .ok a := by decide +kernel
  have written : a.toText = "hx00000000000000000000000000000000000000ab" := by decide +kernel
  have differs : a.toText ≠ text := by decide +kernel
  have strict : ofTextStrict text = .error (.unknownMarker "é") := by decide +kernel
  obtain ⟨-, -, -, -, -, accepted, refused⟩ := text_grammar text
  obtain ⟨marker, body, split, contract, -, same, -, again⟩ := accepted a read
  obtain ⟨-, -, -, agree, -⟩ := text_grammar a.toText
  exact ⟨read, written, mt same.mpr differs, (refused _).2.mp strict, again, agree a again⟩

end Address

end ContractLink
