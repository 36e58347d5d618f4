import ContractLink.Proofs.Link.Output
/-!
Frames over a link. Main statement: what is written frame by frame is read frame by frame, whatever
the data looks like and whatever comes behind it; and the lengths that a writer refuses are the
lengths that a reader refuses, so what is read can be written again.
-/
namespace ContractLink

namespace Exchange

variable {data : Bytes} {frames : List Bytes} {link : Link}

def writeFrames : List Bytes → Exchange Unit
  | [] => return ()
  | data :: rest => do
    writeFrame data
    writeFrames rest

/-- Reads so many times the next frame, up to the first failure. -/
def readFrames : Nat → Exchange (List (Option Bytes))
  | 0 => return []
  | count + 1 => do
    let found ← readFrame
    return found :: (← readFrames count)

theorem run_writeFrame_of_fits (fits : Frame.Fits data.length) (unlimited : link.room = none) :
    (writeFrame data).run link = (.ok (), { link with sent := link.sent ++ Frame.wrap data }) := by
  rw [writeFrame_eq, Frame.encode_of_fits fits]
  exact run_write_of_unlimited unlimited (Frame.wrap data)

theorem run_writeFrame_of_unfit (unfit : ¬Frame.Fits data.length) (link : Link) :
    (writeFrame data).run link = (.error (.frame (.invalidLength data.length)), link) := by
  unfold writeFrame Frame.header
  rw [if_neg unfit]
  rfl

theorem run_writeFrames (fits : ∀ data ∈ frames, Frame.Fits data.length)
    (unlimited : link.room = none) : (writeFrames frames).run link =
      (.ok (), { link with sent := link.sent ++ frames.flatMap Frame.wrap }) := by
  induction frames generalizing link with
  | nil =>
    rw [List.flatMap_nil, List.append_nil]
    rfl
  | cons data frames ih =>
    obtain ⟨first, later⟩ := List.forall_mem_cons.mp fits
    have rest := @ih { link with sent := link.sent ++ Frame.wrap data } later unlimited
    rw [writeFrames, run_bind, run_writeFrame_of_fits first unlimited, andThen_ok, rest,
      List.flatMap_cons, List.append_assoc]

theorem run_readFrame_of_wrap {rest : Bytes} (fits : Frame.Fits data.length)
    (starts : link.incoming = Frame.wrap data ++ rest) :
    readFrame.run link = (.ok (some data), { link with incoming := rest }) :=
  run_readFrame_of_ok (starts ▸ Frame.read_wrap_append fits rest)

/-- The frames are found one behind the other, each by its own length. -/
theorem run_readFrames_of_wrap {tail : Bytes} (fits : ∀ data ∈ frames, Frame.Fits data.length)
    (starts : link.incoming = frames.flatMap Frame.wrap ++ tail) :
    (readFrames frames.length).run link =
      (.ok (frames.map some), { link with incoming := tail }) := by
  induction frames generalizing link with
  | nil =>
    obtain rfl : link.incoming = tail := starts
    rfl
  | cons data frames ih =>
    obtain ⟨first, later⟩ := List.forall_mem_cons.mp fits
    rw [List.flatMap_cons, List.append_assoc] at starts
    have rest := @ih { link with incoming := frames.flatMap Frame.wrap ++ tail } later rfl
    rw [List.length_cons, readFrames, run_bind, run_readFrame_of_wrap first starts, andThen_ok,
      run_bind, rest]
    rfl

/-- A length is refused if no frame has it, whether or not the data is there. -/
theorem run_readFrame_eq_invalidLength_iff {n : Nat} {rest : Bytes}
    (expressible : n < 256 ^ Frame.headerSize)
    (starts : link.incoming = Bytes.littleEndian Frame.headerSize n ++ rest) :
    (readFrame.run link).1 = .error (.frame (.invalidLength n)) ↔ ¬Frame.Fits n := by
  have read := Frame.read_littleEndian_append expressible rest
  rw [← starts] at read
  by_cases fits : Frame.Fits n
  · rw [if_pos fits] at read
    refine iff_of_false (fun refused => ?_) (not_not_intro fits)
    split at read
    · rw [run_readFrame_of_error read] at refused
      cases refused
    · rw [run_readFrame_of_ok read] at refused
      cases refused
  · rw [if_neg fits] at read
    rw [run_readFrame_of_error read]
    exact iff_of_true rfl fits

/-- What was read is in front of what is left. -/
theorem of_run_readFrame_some {next : Link} (found : readFrame.run link = (.ok (some data), next)) :
    Frame.Fits data.length ∧ link.incoming = Frame.wrap data ++ next.incoming := by
  rcases read : Frame.read link.incoming with ⟨_ | found', rest⟩
  · rw [run_readFrame_of_error read] at found
    cases found
  · rw [run_readFrame_of_ok read] at found
    obtain ⟨same, rfl⟩ := Prod.mk.inj found
    obtain rfl := Except.ok.inj same
    exact Frame.of_read_eq_some read

/-- Data that is written as frames is read back from them, in the same order, and what is behind
them is left. No other length is written, nor is it read, so a frame that was read can be written
again, to the bytes it was read from. -/
theorem readFrames_of_written :
    (∀ (frames : List Bytes) (writer : Link), (∀ data ∈ frames, Frame.Fits data.length) →
      writer.room = none → ∃ written,
        (writeFrames frames).run writer =
            (.ok (), { writer with sent := writer.sent ++ written }) ∧
          ∀ (reader : Link) (tail : Bytes), reader.incoming = written ++ tail →
            (readFrames frames.length).run reader =
              (.ok (frames.map some), { reader with incoming := tail })) ∧
    (∀ (data : Bytes) (writer : Link), ¬Frame.Fits data.length →
      (writeFrame data).run writer = (.error (.frame (.invalidLength data.length)), writer)) ∧
    (∀ (data rest : Bytes) (reader writer : Link), data.length < 256 ^ Frame.headerSize →
      reader.incoming = Bytes.littleEndian Frame.headerSize data.length ++ rest →
      writer.room = none →
        ((readFrame.run reader).1 = .error (.frame (.invalidLength data.length)) ↔
          ((writeFrame data).run writer).1 = .error (.frame (.invalidLength data.length))) ∧
        (data <+: rest → ((readFrame.run reader).1 = .ok (some data) ↔
          ((writeFrame data).run writer).1 = .ok ()))) ∧
    (∀ (data : Bytes) (reader next writer : Link), readFrame.run reader = (.ok (some data), next) →
      writer.room = none → ∃ consumed, reader.incoming = consumed ++ next.incoming ∧
        (writeFrame data).run writer =
          (.ok (), { writer with sent := writer.sent ++ consumed })) := by
  refine ⟨?_, fun data writer unfit => run_writeFrame_of_unfit unfit writer, ?_, ?_⟩
  · intro frames writer fits unlimited
    exact ⟨frames.flatMap Frame.wrap, run_writeFrames fits unlimited,
      fun reader tail starts => run_readFrames_of_wrap fits starts⟩
  · intro data rest reader writer expressible starts unlimited
    have refused := run_readFrame_eq_invalidLength_iff expressible starts
    by_cases fits : Frame.Fits data.length
    · have sent := run_writeFrame_of_fits fits unlimited
      refine ⟨iff_of_false (fun unread => refused.mp unread fits) (by simp [sent]), ?_⟩
      rintro ⟨tail, rfl⟩
      rw [← List.append_assoc] at starts
      rw [run_readFrame_of_wrap fits starts, sent]
      exact iff_of_true rfl rfl
    · have unsent := run_writeFrame_of_unfit fits writer
      have unread := refused.mpr fits
      rw [unsent, unread]
      exact ⟨iff_of_true rfl rfl, fun _ => iff_of_false nofun nofun⟩
  · intro data reader next writer found unlimited
    obtain ⟨fits, consumed⟩ := of_run_readFrame_some found
    exact ⟨Frame.wrap data, consumed, run_writeFrame_of_fits fits unlimited⟩

/-- The first frame's data looks like a frame itself, and what is behind the two like half a
header. A byte too many is neither written nor read. -/
theorem readFrames_of_written_lookalike :
    let frames : List Bytes := [[1, 0, 0, 0, 7], [9]]
    let long : Bytes := List.replicate (Frame.maxSize + 1) 0
    let writer : Link := { incoming := [] }
    (∃ written, (writeFrames frames).run writer = (.ok (), { writer with sent := written }) ∧
      (readFrames 2).run { incoming := written ++ [2, 0] } =
        (.ok (frames.map some), { incoming := [2, 0] })) ∧
    (writeFrame long).run writer = (.error (.frame (.invalidLength long.length)), writer) ∧
    (readFrame.run { incoming := Bytes.littleEndian Frame.headerSize long.length }).1 =
      .error (.frame (.invalidLength long.length)) ∧
    ∃ consumed, [1, 0, 0, 0, 9, 2, 0] = consumed ++ [2, 0] ∧
      (writeFrame [9]).run writer = (.ok (), { writer with sent := consumed }) := by
  intro frames long writer
  obtain ⟨written, refused, lengths, again⟩ := readFrames_of_written
  have fits : ∀ data ∈ frames, Frame.Fits data.length := by decide
  have length : long.length = Frame.maxSize + 1 := List.length_replicate
  have unfit : ¬Frame.Fits long.length := by
    rw [length]
    decide
  have expressible : long.length < 256 ^ Frame.headerSize := by
    rw [length]
    decide
  have unwritten := refused long writer unfit
  refine ⟨?_, unwritten, ?_, ?_⟩
  · obtain ⟨bytes, sent, back⟩ := written frames writer fits rfl
    exact ⟨bytes, sent, back { incoming := bytes ++ [2, 0] } [2, 0] rfl⟩
  · let reader : Link := { incoming := Bytes.littleEndian Frame.headerSize long.length }
    have starts := (List.append_nil reader.incoming).symm
    obtain ⟨same, -⟩ := lengths long [] reader writer expressible starts rfl
    exact same.mpr (congrArg Prod.fst unwritten)
  · have read : readFrame.run { incoming := [1, 0, 0, 0, 9, 2, 0] } =
        (.ok (some [9]), { incoming := [2, 0] }) := rfl
    exact again [9] _ _ writer read rfl

end Exchange

end ContractLink
