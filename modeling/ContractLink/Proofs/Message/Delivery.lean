import ContractLink.Proofs.Frame.Stream
import ContractLink.Proofs.Wire.Types
/-!
What fits a frame is read. No length inside an encoding is above its size, and the largest frame is
as long as the longest sequence that is read; so a message that is sent as a frame is read back, and
its body with it, whatever it holds.
-/
namespace ContractLink

namespace Format

variable {α : Type} {format : Format α} {value : α}

theorem Lawful.readable_of_length_le (law : format.Lawful)
    (short : (format.encode value).length ≤ maxLength) : format.Readable value :=
  fun _ mem => Nat.le_trans (law.le_length_encode mem) short

theorem Lawful.decodeAll_of_length_le (law : format.Lawful)
    (short : (format.encode value).length ≤ maxLength) :
    format.decodeAll (format.encode value) = .ok value := by
  have readable := law.readable_of_length_le short
  rw [law.decodeAll_encode readable.expressible, if_pos readable]

end Format

namespace Message

variable {m : Message} {frame : Bytes}

theorem length_encode (m : Message) : (format.encode m).length = 9 + m.payload.length := by
  have kind : (MessageKind.format.encode m.kind).length = 1 := by
    simp [MessageKind.format, Format.u8]
  rw [format, Format.encode_via, Format.encode_pair, List.length_append, kind,
    Format.length_encode_blob, ← Nat.add_assoc]

theorem length_payload_le (m : Message) : m.payload.length ≤ (format.encode m).length :=
  lawful_format.le_length_encode (List.mem_append_right _ List.mem_cons_self)

theorem length_body_le {β : Type} (kind : MessageKind) (body : Format β) (value : β) :
    (body.encode value).length ≤ (format.encode (ofBody kind body value)).length :=
  length_payload_le (ofBody kind body value)

theorem length_encode_le_of_toFrame (framed : m.toFrame = .ok frame) :
    (format.encode m).length ≤ Format.maxLength := (Frame.encode_eq_ok_iff.mp framed).1.2

theorem eq_wrap_of_toFrame (framed : m.toFrame = .ok frame) :
    frame = Frame.wrap (format.encode m) :=
  (Frame.encode_eq_ok_iff.mp framed).2

/-- The receiver finds the message in the frame, in front of whatever comes next. -/
theorem read_of_toFrame (framed : m.toFrame = .ok frame) (rest : Bytes) :
    Frame.read (frame ++ rest) = (.ok (some (format.encode m)), rest) := by
  obtain ⟨fits, rfl⟩ := Frame.encode_eq_ok_iff.mp framed
  exact Frame.read_wrap_append fits rest

theorem decodeAll_of_toFrame (framed : m.toFrame = .ok frame) :
    format.decodeAll (format.encode m) = .ok m :=
  lawful_format.decodeAll_of_length_le (length_encode_le_of_toFrame framed)

theorem readable_of_toFrame {β : Type} {kind : MessageKind} {body : Format β} {value : β}
    (law : body.Lawful) (framed : (ofBody kind body value).toFrame = .ok frame) :
    body.Readable value :=
  law.readable_of_length_le
    (Nat.le_trans (length_body_le kind body value) (length_encode_le_of_toFrame framed))

theorem body_of_toFrame {β : Type} {kind : MessageKind} {body : Format β} {value : β}
    (law : body.Lawful) (framed : (ofBody kind body value).toFrame = .ok frame) :
    (ofBody kind body value).body body = .ok value :=
  law.decodeAll_of_length_le
    (Nat.le_trans (length_body_le kind body value) (length_encode_le_of_toFrame framed))

/-- A message is too long for a frame, or there is one for it. -/
theorem exists_toFrame_iff :
    (∃ frame, m.toFrame = .ok frame) ↔ (format.encode m).length ≤ Frame.maxSize := by
  have pos : 0 < (format.encode m).length :=
    List.length_pos_iff.mpr (lawful_format.encode_ne_nil m)
  constructor
  · rintro ⟨frame, framed⟩
    exact length_encode_le_of_toFrame framed
  · intro short
    exact ⟨_, Frame.encode_of_fits ⟨pos, short⟩⟩

end Message

end ContractLink
