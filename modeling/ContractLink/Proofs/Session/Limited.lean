import ContractLink.Proofs.Link.Lockstep
/-!
Sessions with a peer that takes a limited number of bytes. Up to the first write that does not fit,
such a session and one without a limit do the same; from then on nothing more is sent. Main
statement: what is sent is what would be sent without a limit, up to the limit.
-/
namespace ContractLink

open Exchange

namespace Link

/-- The first link has sent what the second one has, to a peer that takes `limit` bytes in all. -/
structure LimitedLike (limit : Nat) (first second : Link) : Prop where
  incoming : first.incoming = second.incoming
  sent : first.sent = second.sent
  room : first.room = some (limit - first.sent.length)
  within : first.sent.length ≤ limit
  unlimited : second.room = none

/-- The peer of the first link has taken all it takes, and the second link has sent that too. -/
structure Exhausted (limit : Nat) (first second : Link) : Prop extends first.Overtaken second where
  room : first.room = some 0
  full : first.sent.length = limit

/-- The peer takes no more bytes than it has been sent. -/
structure Full (sent : Bytes) (link : Link) : Prop where
  room : link.room = some 0
  sent : link.sent = sent

end Link

namespace Exchange

theorem run_write_of_fits {link : Link} {room : Nat} (limited : link.room = some room)
    {bytes : Bytes} (fits : bytes.length ≤ room) :
    (write bytes).run link = (.ok (), { link with
      sent := link.sent ++ bytes
      room := some (room - bytes.length) }) := by
  simp only [run, write, limited, if_pos fits, List.take_of_length_le fits]

theorem run_write_of_stalled {link : Link} {room : Nat} (limited : link.room = some room)
    {bytes : Bytes} (long : room < bytes.length) :
    (write bytes).run link = (.error .stalled, { link with
      sent := link.sent ++ bytes.take room
      room := some 0 }) := by
  have none_left : room - bytes.length = 0 := by omega
  simp only [run, write, limited, if_neg (Nat.not_le_of_lt long), none_left]

end Exchange

/-- A link with a limit beside one without. -/
def Lockstep.limited (limit : Nat) : Lockstep where
  alike := Link.LimitedLike limit
  apart := Link.Exhausted limit

namespace Link

variable {limit : Nat} {first second next : Link}

theorem Exhausted.of_grows (h : first.Exhausted limit second) (grows : second.Grows Anything next) :
    first.Exhausted limit next :=
  { h.toOvertaken.of_grows grows with
    room := h.room
    full := h.full }

theorem LimitedLike.ends_write (h : first.LimitedLike limit second) (bytes : Bytes) :
    (Lockstep.limited limit).Ends ((write bytes).run first) ((write bytes).run second) := by
  have within := h.within
  rw [run_write_of_unlimited h.unlimited]
  by_cases fits : bytes.length ≤ limit - first.sent.length
  · rw [run_write_of_fits h.room fits]
    apply Lockstep.Ends.together
    · rfl
    constructor
    · exact h.incoming
    · show first.sent ++ bytes = second.sent ++ bytes
      rw [h.sent]
    · simp only [List.length_append, Nat.sub_sub]
    · simp only [List.length_append]
      omega
    · exact h.unlimited
  · rw [run_write_of_stalled h.room (Nat.lt_of_not_le fits)]
    apply Lockstep.Ends.parted
    · rfl
    constructor
    · constructor
      · show first.sent ++ bytes.take _ <+: second.sent ++ bytes
        rw [h.sent]
        exact (List.prefix_append_right_inj _).mpr (List.take_prefix _ _)
      · exact h.unlimited
    · rfl
    · simp only [List.length_append, List.length_take]
      omega

end Link

instance (limit : Nat) : (Lockstep.limited limit).Neutral where
  alike_note _ h := ⟨h.incoming, h.sent, h.room, h.within, h.unlimited⟩
  apart_note _ h := ⟨⟨h.sent, h.unlimited⟩, h.room, h.full⟩
  apart_grows := Link.Exhausted.of_grows

theorem Exchange.matched_limited_readFrame (limit : Nat) : Matched (.limited limit) readFrame :=
  matched_readFrame Link.LimitedLike.incoming fun _ h =>
    ⟨rfl, h.sent, h.room, h.within, h.unlimited⟩

instance (limit : Nat) : (Lockstep.limited limit).Lawful where
  write bytes := ⟨fun h => h.ends_write bytes, adds_write bytes⟩
  await := matched_await (matched_limited_readFrame limit)

instance (sent : Bytes) : Link.Invariant (Link.Full sent) where
  note _ full := ⟨full.room, full.sent⟩
  write bytes full := by
    constructor
    · simp only [run, write, full.room, Nat.zero_sub]
    · simp only [run, write, full.room, List.take_zero, List.append_nil, full.sent]
  readFrame full := ⟨full.room, full.sent⟩

namespace Session

theorem Act.matched_perform {pair : Lockstep} [pair.Lawful] (reads : Matched pair readFrame)
    (codec : Codec) (act : Act) : Matched pair (act.perform codec) := by
  cases act with
  | step s => exact s.matched_perform codec
  | serve contract => exact contract.matched_serve codec reads

variable {limit : Nat} {first second : Link}

/-- To the first link nothing is added, whatever is done and read on it. -/
theorem exhausted_perform (codec : Codec) (act : Act) (h : first.Exhausted limit second) :
    Link.Exhausted limit ((act.perform codec).run first).2 ((act.perform codec).run second).2 := by
  have grown : first.Exhausted limit ((act.perform codec).run second).2 :=
    h.of_grows ((act.adds_perform codec).mono (fun _ => trivial) second)
  have full : Link.Full first.sent ((act.perform codec).run first).2 :=
    (act.matched_perform Lockstep.matched_keeping_readFrame codec).keeps ⟨h.room, rfl⟩
  constructor
  · constructor
    · rw [full.sent]
      exact grown.sent
    · exact grown.unlimited
  · exact full.room
  · rw [full.sent]
    exact grown.full

/-- An act that fails on the first link only, for want of room, is not the end of the session. -/
theorem limited_run (codec : Codec) (acts : List Act)
    (h : first.LimitedLike limit second ∨ first.Exhausted limit second) :
    Link.LimitedLike limit (run codec acts first).2 (run codec acts second).2 ∨
      Link.Exhausted limit (run codec acts first).2 (run codec acts second).2 := by
  induction acts generalizing first second with
  | nil => exact h
  | cons act rest ih =>
    apply ih
    rcases h with alike | apart
    · cases (act.matched_perform (matched_limited_readFrame limit) codec).ends alike with
      | together _ alike => exact .inl alike
      | parted _ apart => exact .inr apart
    · exact .inr (exhausted_perform codec act apart)

/-- A peer that takes a limited number of bytes is sent what a peer without a limit would be sent,
up to the limit. -/
theorem sent_run_limited (codec : Codec) (acts : List Act) (incoming : Bytes) (limit : Nat) :
    (run codec acts { incoming, room := some limit }).2.sent =
      (run codec acts { incoming }).2.sent.take limit := by
  have start : Link.LimitedLike limit { incoming, room := some limit } { incoming } :=
    ⟨rfl, rfl, rfl, Nat.zero_le limit, rfl⟩
  rcases limited_run codec acts (.inl start) with alike | exhausted
  · have within := alike.within
    rw [alike.sent] at within ⊢
    rw [List.take_of_length_le within]
  · have all := List.prefix_iff_eq_take.mp exhausted.sent
    rwa [exhausted.full] at all

end Session

end ContractLink
