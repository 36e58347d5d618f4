import ContractLink.Proofs.Wire.Types
/-!
Reading with more input behind. A value that has been read, or a fault that has been met, stays the
same whatever follows; only the end of the input may turn into something else. Main statement: this
holds of every type that crosses the link, so an encoding that is cut short is reported as the end
of the input, wherever it is cut.
-/
namespace ContractLink

namespace Decoder

variable {α β : Type}

/-- More input behind changes neither what is read nor a fault other than the end of the input. -/
structure Stable (item : Decoder α) : Prop where
  ok : ∀ {input rest : Bytes} {a : α}, item input = .ok (a, rest) →
    ∀ more, item (input ++ more) = .ok (a, rest ++ more)
  error : ∀ {input : Bytes} {e : DecodeError}, item input = .error e → e ≠ .unexpectedEnd →
    ∀ more, item (input ++ more) = .error e

theorem stable_pure (a : α) : Stable (pure a) where
  ok read more := by
    obtain ⟨rfl, rfl⟩ := Prod.mk.inj (Except.ok.inj read)
    rfl
  error read := by cases read

theorem stable_throw (e : DecodeError) : Stable (throw e : Decoder α) where
  ok read := by cases read
  error read _ _ := by
    obtain rfl := Except.error.inj read
    rfl

/-- What is too short for the bytes wanted is the only fault, and it is the end of the input. -/
theorem stable_take (n : Nat) : Stable (take n) where
  ok read more := by
    obtain ⟨rfl, rfl⟩ := of_take_ok read
    rw [List.append_assoc, take_append]
  error read other := by
    unfold take at read
    dsimp only at read
    split at read
    · exact absurd (Except.error.inj read).symm other
    · cases read

namespace Stable

theorem bind {x : Decoder α} {f : α → Decoder β} (hx : Stable x) (hf : ∀ a, Stable (f a)) :
    Stable (x >>= f) where
  ok read more := by
    obtain ⟨a, middle, first, second⟩ := of_bind_ok read
    rw [bind_of_ok f (hx.ok first more)]
    exact (hf a).ok second more
  error {input e} read other more := by
    cases first : x input with
    | error e' =>
      rw [bind_of_error f first] at read
      obtain rfl := Except.error.inj read
      exact bind_of_error f (hx.error first other more)
    | ok found =>
      obtain ⟨a, middle⟩ := found
      rw [bind_of_ok f first] at read
      rw [bind_of_ok f (hx.ok first more)]
      exact (hf a).error read other more

theorem map {x : Decoder α} (hx : Stable x) (f : α → β) : Stable (f <$> x) :=
  hx.bind fun a => stable_pure (f a)

theorem repeatInto {item : Decoder α} (each : Stable item) (count : Nat) (done : List α) :
    Stable (repeatInto item count done) := by
  induction count generalizing done with
  | zero => exact stable_pure done.reverse
  | succ count ih =>
    have step : Decoder.repeatInto item (count + 1) done =
        item >>= fun a => Decoder.repeatInto item count (a :: done) := by
      funext input
      cases first : item input with
      | error e => rw [repeatInto_of_error count done first, bind_of_error _ first]
      | ok found =>
        obtain ⟨a, rest⟩ := found
        rw [repeatInto_of_ok count done first, bind_of_ok _ first]
    rw [step]
    exact each.bind fun a => ih (a :: done)

/-- A value cut short is the end of the input: what else could be read there would be read of the
whole value too. -/
theorem decode_cut {item : Decoder α} (stable : Stable item) {whole cut : Bytes} {a : α}
    (read : item whole = .ok (a, [])) (front : cut <+: whole) (short : cut ≠ whole) :
    item cut = .error .unexpectedEnd := by
  obtain ⟨more, rfl⟩ := front
  cases early : item cut with
  | ok found =>
    obtain ⟨b, rest⟩ := found
    have again := stable.ok early more
    rw [read] at again
    obtain ⟨-, left⟩ := Prod.mk.inj (Except.ok.inj again)
    obtain ⟨-, rfl⟩ := List.append_eq_nil_iff.mp left.symm
    exact absurd (List.append_nil cut).symm short
  | error e =>
    by_cases ended : e = .unexpectedEnd
    · rw [ended]
    · have again := stable.error early ended more
      rw [read] at again
      cases again

end Stable

end Decoder

namespace Format

open Decoder

variable {α β : Type}

theorem stable_word (width : Nat) (toNat : α → Nat) (ofNat : Nat → α) :
    Stable (word width toNat ofNat).decode :=
  (stable_take width).bind fun _ => stable_pure _

theorem stable_refine {format : Format α} (stable : Stable format.decode) (check : α → Option β)
    (raw : β → α) : Stable (format.refine check raw).decode := by
  refine stable.bind fun a => ?_
  cases check a with
  | none => exact stable_throw _
  | some b => exact stable_pure b

theorem stable_via {format : Format α} (stable : Stable format.decode) (build : α → β)
    (raw : β → α) : Stable (format.via build raw).decode := stable.map build

theorem stable_bytes (n : Nat) : Stable (bytes n).decode := stable_take n

theorem stable_pair {first : Format α} {second : Format β} (stable₁ : Stable first.decode)
    (stable₂ : Stable second.decode) : Stable (first.pair second).decode :=
  stable₁.bind fun _ => stable₂.map _

theorem stable_u8 : Stable u8.decode := stable_word ..

theorem stable_option {format : Format α} (stable : Stable format.decode) :
    Stable format.option.decode := by
  refine stable_u8.bind fun flag => ?_
  split
  · exact stable_pure none
  · split
    · exact stable.map some
    · exact stable_throw _

theorem stable_decodeLength : Stable decodeLength := by
  refine (stable_word ..).bind fun n => ?_
  split
  · exact stable_throw _
  · exact stable_pure _

theorem stable_list {format : Format α} (stable : Stable format.decode) :
    Stable format.list.decode :=
  stable_decodeLength.bind fun count => stable.repeatInto count []

/-- The bytes of a text are all there before they are looked at. -/
theorem stable_text : Stable text.decode := by
  refine stable_decodeLength.bind fun count => (stable_take count).bind fun utf8 => ?_
  cases Bytes.toText? utf8 with
  | none => exact stable_throw _
  | some value => exact stable_pure value

theorem stable_blob : Stable blob.decode := stable_list stable_u8

end Format

open Format

theorem TypedBytes.stable_format : TypedBytes.format.decode.Stable :=
  stable_via (stable_pair stable_u8 stable_blob) _ _

theorem TypeTag.stable_format : TypeTag.format.decode.Stable := stable_refine stable_u8 _ _

theorem Param.stable_format : Param.format.decode.Stable :=
  stable_via (stable_pair stable_text (stable_pair TypeTag.stable_format
    (stable_option TypedBytes.stable_format))) _ _

theorem FunctionDecl.stable_format : FunctionDecl.format.decode.Stable :=
  stable_via (stable_pair stable_text (stable_pair (stable_word ..)
    (stable_pair (stable_list Param.stable_format) (stable_list TypeTag.stable_format)))) _ _

theorem EventDecl.stable_format : EventDecl.format.decode.Stable :=
  stable_via (stable_pair stable_text (stable_pair (stable_word ..)
    (stable_pair (stable_word ..) (stable_list Param.stable_format)))) _ _

theorem Method.stable_format : format.decode.Stable := by
  refine stable_u8.bind fun kind => ?_
  split
  · exact FunctionDecl.stable_format.map function
  · split
    · exact (stable_word ..).map fallback
    · split
      · exact EventDecl.stable_format.map event
      · exact Decoder.stable_throw _

namespace WireType

theorem stable_format (type : WireType) : type.format.decode.Stable := by
  have typed := TypedBytes.stable_format
  induction type with
  | u8 | u16 | u32 | u64 | size | i32 | i64 | i128 => exact stable_word ..
  | bool | messageKind => exact stable_refine stable_u8 _ _
  | text => exact stable_text
  | option item stable => exact stable_option stable
  | list item stable => exact stable_list stable
  | pair first second stable₁ stable₂ => exact stable_pair stable₁ stable₂
  | address => exact stable_refine (stable_bytes _) _ _
  | typeTag => exact TypeTag.stable_format
  | typedBytes => exact typed
  | param => exact Param.stable_format
  | function => exact FunctionDecl.stable_format
  | event => exact EventDecl.stable_format
  | method => exact Method.stable_format
  | api => exact stable_via (stable_list Method.stable_format) _ _
  | message => exact stable_via (stable_pair (stable_refine stable_u8 _ _) stable_blob) _ _
  | versionBody =>
    exact stable_via (stable_pair (stable_word ..) (stable_pair (stable_word ..) stable_text)) _ _
  | invokeBody =>
    exact stable_via (stable_pair stable_text (stable_pair typed (stable_pair typed
      (stable_pair typed (stable_pair typed (stable_pair stable_text typed)))))) _ _
  | resultBody =>
    exact stable_via (stable_pair (stable_word ..) (stable_pair typed typed)) _ _
  | getValueRequest => exact stable_via stable_blob _ _
  | getValueResponse => exact stable_via (stable_option stable_blob) _ _
  | setValueBody => exact stable_via (stable_pair stable_blob (stable_option stable_blob)) _ _
  | eventBody => exact stable_via (stable_pair (stable_list typed) (stable_list typed)) _ _
  | getInfoResponse | getBalanceRequest | getBalanceResponse => exact stable_via typed _ _
  | getApiRequest => exact stable_via stable_text _ _
  | getApiResponse =>
    exact stable_via (stable_pair (stable_word ..) (stable_option stable_blob)) _ _

/-- With more input behind, a value is read as before and what is left is longer by that input; a
fault other than the end of the input stays the same fault. So an encoding that is cut short, at
whatever byte, is reported as the end of the input. -/
theorem decode_stable (type : WireType) :
    (∀ input rest value, type.format.decode input = .ok (value, rest) →
        ∀ more, type.format.decode (input ++ more) = .ok (value, rest ++ more)) ∧
      (∀ input e, type.format.decode input = .error e → e = .invalidValue ∨ e = .lengthOverflow →
        ∀ more, type.format.decode (input ++ more) = .error e) ∧
      ∀ value, type.format.Readable value →
        ∀ cut, cut <+: type.format.encode value → cut ≠ type.format.encode value →
          type.format.decode cut = .error .unexpectedEnd ∧
            type.format.decodeAll cut = .error .unexpectedEnd := by
  have stable := type.stable_format
  refine ⟨fun input rest value read => stable.ok read, ?_, ?_⟩
  · rintro input e read (rfl | rfl)
    · exact stable.error read nofun
    · exact stable.error read nofun
  · intro value readable cut front short
    have whole := type.lawful_format.decode_readable [] readable
    rw [List.append_nil] at whole
    have ended := stable.decode_cut whole front short
    exact ⟨ended, Decoder.all_of_error ended⟩

/-- A text that is cut inside a character is not taken for an invalid one, and one that is too long
is so whether or not it is there. -/
theorem decode_stable_text :
    let format := Format.text.pair Format.u16.option
    let value : String × Option UInt16 := ("né", some 7)
    let cut : Bytes := [3, 0, 0, 0, 0, 0, 0, 0, 110, 195]
    let long : Bytes := [1, 0, 0, 1, 0, 0, 0, 0, 110]
    format.Readable value ∧ cut <+: format.encode value ∧ cut ≠ format.encode value ∧
      format.decode cut = .error .unexpectedEnd ∧
      (∀ more, format.decode (format.encode value ++ more) = .ok (value, more)) ∧
      format.decode long = .error .lengthOverflow ∧
      ∀ more, format.decode (long ++ more) = .error .lengthOverflow := by
  intro format value cut long
  obtain ⟨reads, faults, cuts⟩ := decode_stable (pair text (option u16))
  have readable : format.Readable value := by decide
  have front : cut <+: format.encode value := by decide
  have short : cut ≠ format.encode value := by decide
  have whole : format.decode (format.encode value ++ []) = .ok (value, []) :=
    (pair text (option u16)).lawful_format.decode_readable [] readable
  have fault : format.decode long = .error .lengthOverflow := rfl
  obtain ⟨ended, -⟩ := cuts value readable cut front short
  exact ⟨readable, front, short, ended, reads _ _ _ whole, fault, faults _ _ fault (.inr rfl)⟩

end WireType

end ContractLink
