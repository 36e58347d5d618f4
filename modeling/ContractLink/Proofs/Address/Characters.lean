import ContractLink.Proofs.Address.Text
/-!
The characters of addresses as text. A text is measured in bytes, so the two bytes of a marker may
be a single character. Main statement: the lenient reader puts up with such a marker, and with no
other that is not ASCII; all else that is accepted is forty-two ASCII characters.
-/
namespace ContractLink

/-- The text has not the form of an address, whether or not its digits are good. -/
def AddressError.IsFormat : AddressError → Prop
  | badDigit .. | oddDigits | wrongDigitCount => False
  | _ => True

namespace Address

variable {text marker body : String} {a : Address} {e : AddressError}

/-- Forty-two characters, all of them ASCII. -/
def Plain (text : String) : Prop := text.length = 42 ∧ ∀ c ∈ text.toList, c.toNat < 128

/-- The marker is one character, which takes both bytes. -/
def WideMarked (text : String) : Prop := ∃ c body, IsSplit text (String.singleton c) body

/-- One of the first two characters is not ASCII. -/
def ForeignMarked (text : String) : Prop := ∃ c ∈ text.toList.take 2, 128 ≤ c.toNat

namespace IsSplit

theorem wideMarked_iff (split : IsSplit text marker body) :
    WideMarked text ↔ marker.length = 1 := by
  constructor
  · rintro ⟨c, other, again⟩
    rw [(split.unique again).1, String.length_singleton]
  · intro one
    rw [← String.length_toList, List.length_eq_one_iff] at one
    obtain ⟨c, chars⟩ := one
    have single : marker = String.singleton c := by
      rw [← String.toList_inj, chars, String.toList_singleton]
    exact ⟨c, body, single ▸ split⟩

/-- A marker that is not one character is two of ASCII. -/
theorem ascii_of_not_wideMarked (split : IsSplit text marker body) (narrow : ¬WideMarked text) :
    marker.length = 2 ∧ ∀ c ∈ marker.toList, c.toNat < 128 := by
  rw [split.wideMarked_iff] at narrow
  have two := split.length_marker
  have most := Bytes.length_le_length_ofText marker
  have pos : marker.length ≠ 0 := by
    intro empty
    rw [← String.length_toList, List.length_eq_zero_iff] at empty
    rw [Bytes.ofText_eq_flatMap, empty] at two
    cases two
  have length : marker.length = 2 := by omega
  exact ⟨length, Bytes.length_ofText_eq_iff.mp (two.trans length.symm)⟩

theorem wideMarked_of_foreignMarked (split : IsSplit text marker body)
    (foreign : ForeignMarked text) : WideMarked text := by
  by_contra narrow
  obtain ⟨length, ascii⟩ := split.ascii_of_not_wideMarked narrow
  obtain ⟨c, mem, wide⟩ := foreign
  rw [split.eq, String.toList_append, List.take_left' length] at mem
  exact absurd (ascii c mem) (Nat.not_lt.mpr wide)

end IsSplit

/-- A text that is accepted has forty digits behind its marker, so the marker decides whether it is
plain. -/
theorem plain_iff_of_ofText_ok (read : ofText text = .ok a) :
    (Plain text ↔ ¬WideMarked text) ∧ (WideMarked text → text.length = 41) := by
  obtain ⟨marker, body, split, digits, -⟩ := of_ofText_ok read
  have forty : body.length = 40 := (length_ofText_of_digits digits).symm.trans split.length_body
  have total : text.length = marker.length + 40 := by
    rw [split.eq, String.length_append, forty]
  refine ⟨⟨fun plain wide => ?_, fun narrow => ?_⟩, fun wide => ?_⟩
  · have length := plain.1
    have one := split.wideMarked_iff.mp wide
    omega
  · obtain ⟨two, ascii⟩ := split.ascii_of_not_wideMarked narrow
    refine ⟨by omega, fun c mem => ?_⟩
    rw [split.eq, String.toList_append, List.mem_append] at mem
    exact mem.elim (ascii c) fun inside => (digits c inside).ascii
  · have one := split.wideMarked_iff.mp wide
    omega

/-- The markers that the strict reader knows are two characters. -/
theorem not_isMarker_singleton (c : Char) : ¬IsMarker (String.singleton c) := by
  intro known
  have two : (String.singleton c).length = 2 := by
    rcases known with same | same <;> rw [same] <;> rfl
  rw [String.length_singleton] at two
  omega

theorem ofTextStrict_of_wideMarked (wide : WideMarked text) :
    ∃ marker, ofTextStrict text = .error (.unknownMarker marker) := by
  obtain ⟨c, body, split⟩ := wide
  exact ⟨_, ofTextStrict_of_not_isMarker split (not_isMarker_singleton c)⟩

theorem Unsplit.isFormat (unsplit : Unsplit text e) : e.IsFormat := by
  cases unsplit <;> trivial

/-- The lenient reader takes any marker for one and looks at the digits. -/
theorem not_isFormat_of_isSplit (split : IsSplit text marker body)
    (refused : ofText text = .error e) : ¬e.IsFormat := by
  rw [ofText_eq_error_iff, split.refused_iff_of_known trivial] at refused
  obtain ⟨bad, -, rfl⟩ := refused
  exact id

/-- What the strict reader accepts is forty-two ASCII characters. So is what the lenient reader
accepts, unless the marker is a single character of two bytes, which leaves forty-one. A text with
another marker that is not ASCII is refused for its form by both, and one with such a marker by the
strict reader only. -/
theorem accepted_plain (text : String) :
    (∀ a, ofTextStrict text = .ok a → Plain text) ∧
    (∀ a, ofText text = .ok a →
      (Plain text ↔ ¬WideMarked text) ∧ (WideMarked text → text.length = 41)) ∧
    (ForeignMarked text → (∃ e, ofTextStrict text = .error e ∧ e.IsFormat) ∧
      ((∃ e, ofText text = .error e ∧ e.IsFormat) ↔ ¬WideMarked text)) := by
  refine ⟨fun a read => ?_, fun a => plain_iff_of_ofText_ok, fun foreign => ?_⟩
  · refine (plain_iff_of_ofText_ok (ofText_of_ofTextStrict_ok read)).1.mpr fun wide => ?_
    obtain ⟨marker, refused⟩ := ofTextStrict_of_wideMarked wide
    rw [read] at refused
    cases refused
  · rcases isSplit_or_unsplit text with ⟨marker, body, split⟩ | ⟨e, unsplit⟩
    · have wide := split.wideMarked_of_foreignMarked foreign
      obtain ⟨marker, refused⟩ := ofTextStrict_of_wideMarked wide
      refine ⟨⟨_, refused, trivial⟩, iff_of_false ?_ (not_not.mpr wide)⟩
      rintro ⟨e, lenient, format⟩
      exact not_isFormat_of_isSplit split lenient format
    · have narrow : ¬WideMarked text := fun ⟨_, _, split⟩ => split.not_unsplit unsplit
      exact ⟨⟨e, ofTextStrict_of_unsplit unsplit, unsplit.isFormat⟩,
        iff_of_true ⟨e, ofText_of_unsplit unsplit, unsplit.isFormat⟩ narrow⟩

/-- A marker of two characters, one of a single character, and one with a character across its
second byte. -/
theorem accepted_plain_markers :
    let plain := "cx00000000000000000000000000000000000000Ab"
    let wide := "é00000000000000000000000000000000000000Ab"
    let across := "hé000000000000000000000000000000000000000"
    Plain plain ∧ (WideMarked wide ∧ wide.length = 41 ∧ ¬Plain wide) ∧
      (∃ e, ofTextStrict wide = .error e ∧ e.IsFormat) ∧
      (∃ e, ofTextStrict across = .error e ∧ e.IsFormat) := by
  intro plain wide across
  have strict : ofTextStrict plain = .ok ⟨true, List.replicate 19 0 ++ [0xAB], rfl⟩ := by
    decide +kernel
  have lenient : ofText wide = .ok ⟨false, List.replicate 19 0 ++ [0xAB], rfl⟩ := by
    decide +kernel
  have marked : WideMarked wide :=
    ⟨'é', "00000000000000000000000000000000000000Ab", rfl, rfl, rfl⟩
  have foreign : ForeignMarked wide := ⟨'é', by decide +kernel, by decide⟩
  have foreign' : ForeignMarked across := ⟨'é', by decide +kernel, by decide⟩
  obtain ⟨-, accepted, refused⟩ := accepted_plain wide
  obtain ⟨one, length⟩ := accepted _ lenient
  exact ⟨(accepted_plain plain).1 _ strict, ⟨marked, length marked, mt one.mp (not_not.mpr marked)⟩,
    (refused foreign).1, ((accepted_plain across).2.2 foreign').1⟩

/-- A text of forty-one characters, the first of them not ASCII, is accepted. -/
theorem ofText_wide_marker_accepted :
    let text := "é0000000000000000000000000000000000000000"
    ForeignMarked text ∧ ¬Plain text ∧ ofText text = .ok ⟨false, List.replicate 20 0, rfl⟩ := by
  intro text
  have length : text.length = 41 := by decide +kernel
  refine ⟨⟨'é', by decide +kernel, by decide⟩, fun plain => ?_, by decide +kernel⟩
  have other := plain.1
  omega

end Address

end ContractLink
