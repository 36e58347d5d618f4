import ContractLink.Frame
import ContractLink.Proofs.Wire.Digits
/-!
Streams of frames. A frame is read whole from the front of any input, and nothing else is read as
one. Main statement: reading frame after frame ends cleanly exactly on whole frames with less than
a header behind them, so an input cut inside a header ends as if it had been closed between frames.
-/
namespace ContractLink

namespace Frame

variable {data rest input : Bytes} {frames : List Bytes} {n : Nat}

/-- Data as a frame. -/
def wrap (data : Bytes) : Bytes := Bytes.littleEndian headerSize data.length ++ data

@[simp] theorem length_wrap (data : Bytes) : (wrap data).length = headerSize + data.length := by
  simp [wrap]

theorem encode_eq_ok_iff {frame : Bytes} :
    encode data = .ok frame ↔ Fits data.length ∧ frame = wrap data := by
  unfold encode header
  split
  next fits =>
    simp only [Except.map, Except.ok.injEq, fits, true_and]
    exact eq_comm
  next unfit => simp [Except.map, unfit]

theorem encode_of_fits (fits : Fits data.length) : encode data = .ok (wrap data) :=
  encode_eq_ok_iff.mpr ⟨fits, rfl⟩

theorem Fits.lt (fits : Fits n) : n < 256 ^ headerSize := by
  have small := fits.2
  simp only [maxSize, headerSize] at small ⊢
  omega

/-- After the header of a length, that many bytes are data, if there is a frame of that length. -/
theorem read_littleEndian_append (expressible : n < 256 ^ headerSize) (rest : Bytes) :
    read (Bytes.littleEndian headerSize n ++ rest) =
      if Fits n then
        if rest.length < n then (.error .cutShort, [])
        else (.ok (some (rest.take n)), rest.drop n)
      else (.error (.invalidLength n), rest) := by
  have length := Bytes.length_littleEndian headerSize n
  have front : (Bytes.littleEndian headerSize n ++ rest).take headerSize =
      Bytes.littleEndian headerSize n := List.take_left' length
  have back : (Bytes.littleEndian headerSize n ++ rest).drop headerSize = rest :=
    List.drop_left' length
  have full : headerSize ≤ (Bytes.littleEndian headerSize n ++ rest).length := by
    simp [length]
  rw [read_of_header full]
  simp only [front, back, Bytes.ofLittleEndian_littleEndian expressible]

theorem read_header_append (fits : Fits n) (rest : Bytes) :
    read (Bytes.littleEndian headerSize n ++ rest) =
      if rest.length < n then (.error .cutShort, [])
      else (.ok (some (rest.take n)), rest.drop n) := by
  rw [read_littleEndian_append fits.lt, if_pos fits]

theorem read_wrap_append (fits : Fits data.length) (rest : Bytes) :
    read (wrap data ++ rest) = (.ok (some data), rest) := by
  have enough : ¬(data ++ rest).length < data.length := by simp
  rw [wrap, List.append_assoc, read_header_append fits, if_neg enough]
  simp

theorem of_read_eq_some (h : read input = (.ok (some data), rest)) :
    Fits data.length ∧ input = wrap data ++ rest := by
  obtain ⟨header, width, length, fits, rfl⟩ := exists_header_of_read h
  have written := Bytes.littleEndian_ofLittleEndian header
  rw [width, length] at written
  exact ⟨fits, by rw [wrap, written, List.append_assoc]⟩

/-- A frame that is cut behind its header is not mistaken for the end of the input. -/
theorem read_take_wrap (fits : Fits data.length) {cut : Nat} (header : headerSize ≤ cut)
    (inside : cut < (wrap data).length) : read ((wrap data).take cut) = (.error .cutShort, []) := by
  rw [length_wrap] at inside
  have front : (Bytes.littleEndian headerSize data.length).take cut =
      Bytes.littleEndian headerSize data.length :=
    List.take_of_length_le (by simpa using header)
  have short : (data.take (cut - headerSize)).length < data.length := by
    rw [List.length_take]
    omega
  rw [wrap, List.take_append, front, Bytes.length_littleEndian, read_header_append fits,
    if_pos short]

/-- More input behind changes nothing, unless the input ends where the frame goes on. -/
theorem read_append (input more : Bytes) :
    read (input ++ more) = ((read input).1, (read input).2 ++ more) ∨
      read input = (.ok none, []) ∨ read input = (.error .cutShort, []) := by
  by_cases short : input.length < headerSize
  · exact .inr (.inl (read_of_short short))
  have full : headerSize ≤ input.length := Nat.le_of_not_lt short
  have longer : headerSize ≤ (input ++ more).length := by
    rw [List.length_append]
    omega
  have front : (input ++ more).take headerSize = input.take headerSize :=
    List.take_append_of_le_length full
  have back : (input ++ more).drop headerSize = input.drop headerSize ++ more :=
    List.drop_append_of_le_length full
  rw [read_of_header full, read_of_header longer, front, back]
  dsimp only
  split
  · by_cases cut : (input.drop headerSize).length < Bytes.ofLittleEndian (input.take headerSize)
    · exact .inr (.inr (if_pos cut))
    · have enough := Nat.le_of_not_lt cut
      have still : ¬(input.drop headerSize ++ more).length <
          Bytes.ofLittleEndian (input.take headerSize) := by
        rw [List.length_append]
        omega
      left
      rw [if_neg cut, if_neg still, List.take_append_of_le_length enough,
        List.drop_append_of_le_length enough]
  · exact .inl rfl

/-- The input is frames, one after another and none of them cut. -/
def Whole (input : Bytes) : Prop :=
  ∃ frames : List Bytes, (∀ data ∈ frames, Fits data.length) ∧ input = frames.flatMap wrap

theorem Whole.read (whole : Whole input) : Whole (read input).2 := by
  obtain ⟨frames, fits, rfl⟩ := whole
  cases frames with
  | nil => exact ⟨[], List.forall_mem_nil _, rfl⟩
  | cons data frames =>
    obtain ⟨first, later⟩ := List.forall_mem_cons.mp fits
    rw [List.flatMap_cons, read_wrap_append first]
    exact ⟨frames, later, rfl⟩

theorem Whole.eq_nil_of_short (whole : Whole input) (short : input.length < headerSize) :
    input = [] := by
  obtain ⟨frames, -, rfl⟩ := whole
  cases frames with
  | nil => rfl
  | cons data frames =>
    rw [List.flatMap_cons, List.length_append, length_wrap] at short
    omega

/-- Reads frame after frame, up to the end of the input or a frame that cannot be read; gives the
frames, and how the reading ended. -/
def readAll (input : Bytes) : List Bytes × Except Error Unit :=
  match found : read input with
  | (.ok (some data), rest) =>
    have : rest.length < input.length := length_read_lt found
    (data :: (readAll rest).1, (readAll rest).2)
  | (.ok none, _) => ([], .ok ())
  | (.error e, _) => ([], .error e)
termination_by input.length

theorem readAll_of_some (found : read input = (.ok (some data), rest)) :
    readAll input = (data :: (readAll rest).1, (readAll rest).2) := by
  rw [readAll]
  split <;> simp_all

theorem readAll_of_none (found : read input = (.ok none, rest)) : readAll input = ([], .ok ()) := by
  rw [readAll]
  split <;> simp_all

theorem readAll_of_error {e : Error} (found : read input = (.error e, rest)) :
    readAll input = ([], .error e) := by
  rw [readAll]
  split <;> simp_all

/-- Whole frames are read one by one, then what is behind them. -/
theorem readAll_flatMap_wrap_append (whole : ∀ data ∈ frames, Fits data.length) (rest : Bytes) :
    readAll (frames.flatMap wrap ++ rest) = (frames ++ (readAll rest).1, (readAll rest).2) := by
  induction frames with
  | nil => rfl
  | cons data frames ih =>
    obtain ⟨fits, others⟩ := List.forall_mem_cons.mp whole
    have found := read_wrap_append fits (frames.flatMap wrap ++ rest)
    rw [List.flatMap_cons, List.append_assoc, readAll_of_some found, ih others]
    rfl

theorem of_readAll_eq_ok (h : readAll input = (frames, .ok ())) :
    (∀ data ∈ frames, Fits data.length) ∧
      ∃ stub : Bytes, stub.length < headerSize ∧ input = frames.flatMap wrap ++ stub := by
  induction frames generalizing input with
  | nil =>
    rcases found : read input with ⟨_ | _ | data, rest⟩
    · rw [readAll_of_error found] at h
      simp at h
    · exact ⟨List.forall_mem_nil _, input, short_of_read_eq_none found, rfl⟩
    · rw [readAll_of_some found] at h
      simp at h
  | cons first frames ih =>
    rcases found : read input with ⟨_ | _ | data, rest⟩
    · rw [readAll_of_error found] at h
      simp at h
    · rw [readAll_of_none found] at h
      simp at h
    · rw [readAll_of_some found] at h
      obtain ⟨both, ending⟩ := Prod.mk.inj h
      obtain ⟨rfl, more⟩ := List.cons.inj both
      obtain ⟨fits, rfl⟩ := of_read_eq_some found
      obtain ⟨whole, stub, short, rfl⟩ := ih (Prod.ext more ending)
      exact ⟨List.forall_mem_cons.mpr ⟨fits, whole⟩, stub, short, by simp⟩

/-- Reading ends cleanly exactly on whole frames with less than a header behind them. A frame cut
in its body is an error, one cut in its header is not. -/
theorem readAll_eq_ok_iff (input : Bytes) :
    (∀ frames, readAll input = (frames, .ok ()) ↔
        (∀ data ∈ frames, Fits data.length) ∧
          ∃ stub : Bytes, stub.length < headerSize ∧ input = frames.flatMap wrap ++ stub) ∧
      ∀ frames data cut, (∀ d ∈ data :: frames, Fits d.length) → 0 < cut →
        cut < (wrap data).length → input = frames.flatMap wrap ++ (wrap data).take cut →
          readAll input = (frames, if headerSize ≤ cut then .error .cutShort else .ok ()) := by
  constructor
  · intro frames
    constructor
    · exact of_readAll_eq_ok
    · rintro ⟨whole, stub, short, rfl⟩
      rw [readAll_flatMap_wrap_append whole, readAll_of_none (read_of_short short),
        List.append_nil]
  · rintro frames data cut whole - inside rfl
    obtain ⟨fits, whole⟩ := List.forall_mem_cons.mp whole
    rw [readAll_flatMap_wrap_append whole]
    split
    next header =>
      rw [readAll_of_error (read_take_wrap fits header inside), List.append_nil]
    next early =>
      have short : ((wrap data).take cut).length < headerSize := by
        rw [List.length_take]
        omega
      rw [readAll_of_none (read_of_short short), List.append_nil]

/-- One whole frame, then half of the next one's header. -/
theorem readAll_eq_ok_iff_half_header :
    let input : Bytes := wrap [7] ++ (wrap [8, 9]).take 2
    input = [1, 0, 0, 0, 7, 2, 0] ∧ readAll input = ([[7]], .ok ()) := by
  intro input
  have whole : ∀ d ∈ ([[8, 9], [7]] : List Bytes), Fits d.length := by decide
  exact ⟨rfl, (readAll_eq_ok_iff input).2 [[7]] [8, 9] 2 whole (by decide) (by decide) rfl⟩

/-- Two bytes of a header are no frames, and yet reading them ends cleanly. -/
theorem readAll_half_header_not_whole :
    (readAll [2, 0]).2 = .ok () ∧ ¬∃ frames : List Bytes, [2, 0] = frames.flatMap wrap := by
  have short : ([2, 0] : Bytes).length < headerSize := by decide
  constructor
  · rw [readAll_of_none (read_of_short short)]
  · rintro ⟨frames, eq⟩
    have length := congrArg List.length eq
    cases frames with
    | nil => simp at length
    | cons data frames =>
      rw [List.flatMap_cons, List.length_append, length_wrap] at length
      simp only [headerSize, List.length_cons, List.length_nil] at length
      omega

end Frame

end ContractLink
