import ContractLink.Proofs.Link.Lockstep
/-!
Serving with more input. What is sent depends on the input that has been read by then, and not on
what was sent before. Main statement: with more input behind, serving sends what it would send
without it, and perhaps more; after whole frames it goes on as if the rest were all the input.
-/
namespace ContractLink

open Exchange

namespace Link

/-- The second link has more input than the first one, behind it. -/
structure ExtendedBy (more : Bytes) (first second : Link) : Prop where
  incoming : second.incoming = first.incoming ++ more
  sent : second.sent = first.sent
  unlimited : first.room = none
  unlimited' : second.room = none

/-- The links are the same but for what the second one has sent earlier. -/
structure ResumedAfter (before : Bytes) (first second : Link) : Prop where
  incoming : first.incoming = second.incoming
  sent : second.sent = before ++ first.sent
  room : first.room = second.room

end Link

/-- A fresh link beside one that is used on. -/
def Lockstep.resumed (before : Bytes) : Lockstep where
  alike := Link.ResumedAfter before
  apart _ _ := False

instance (before : Bytes) : (Lockstep.resumed before).Neutral where
  alike_note _ h := ⟨h.incoming, h.sent, h.room⟩
  apart_note _ apart := apart
  apart_grows apart _ := apart

theorem Exchange.matched_resumed_readFrame (before : Bytes) :
    Matched (.resumed before) readFrame :=
  matched_readFrame Link.ResumedAfter.incoming fun _ h => ⟨rfl, h.sent, h.room⟩

instance (before : Bytes) : (Lockstep.resumed before).Lawful where
  write bytes := by
    constructor
    · intro first second h
      simp only [run, write, ← h.room]
      split <;> apply Lockstep.Ends.together
      · rfl
      · exact ⟨h.incoming, by simp only [h.sent, List.append_assoc], rfl⟩
      · rfl
      · exact ⟨h.incoming, by simp only [h.sent, List.append_assoc], rfl⟩
    · exact adds_write bytes
  await := matched_await (matched_resumed_readFrame before)

namespace Exchange

variable {link : Link}

theorem run_receive_of_short (short : link.incoming.length < Frame.headerSize) :
    receive.run link = (.ok none, { link with incoming := [] }) := by
  rw [receive, run_bind, run_readFrame_of_ok (Frame.read_of_short short)]
  rfl

theorem run_await_of_short {β : Type} (short : link.incoming.length < Frame.headerSize)
    (kind : MessageKind) (format : Format β) :
    (await kind format).run link = (.error .closed, { link with incoming := [] }) := by
  rw [await, run_bind, run_receive_of_short short]
  rfl

theorem short_of_receive_eq_none {rest : Link} (h : receive.run link = (.ok none, rest)) :
    link.incoming.length < Frame.headerSize := by
  rw [receive, run_bind] at h
  rcases read : Frame.read link.incoming with ⟨_ | _ | data, behind⟩
  · rw [run_readFrame_of_error read] at h
    cases h
  · exact Frame.short_of_read_eq_none read
  · rw [run_readFrame_of_ok read, andThen_ok, run_bind] at h
    rcases accepted : (accept data).run { link with incoming := behind } with ⟨_ | m, next⟩
    · rw [accepted] at h
      cases h
    · rw [accepted] at h
      cases h

end Exchange

/-- A link beside one with more input. -/
def Lockstep.extended (more : Bytes) : Lockstep where
  alike := Link.ExtendedBy more
  apart := Link.Overtaken

instance (more : Bytes) : (Lockstep.extended more).Neutral where
  alike_note _ h := ⟨h.incoming, h.sent, h.unlimited, h.unlimited'⟩
  apart_note _ h := ⟨h.sent, h.unlimited⟩
  apart_grows := Link.Overtaken.of_grows

namespace Link

variable {more : Bytes} {first second : Link}

theorem ExtendedBy.overtaken (h : first.ExtendedBy more second) : first.Overtaken second :=
  ⟨h.sent ▸ List.prefix_rfl, h.unlimited'⟩

/-- Where the header of a frame is left, the same frame is read from both links. -/
theorem ExtendedBy.ends_readFrame (h : first.ExtendedBy more second)
    (full : Frame.headerSize ≤ first.incoming.length) :
    (Lockstep.extended more).Ends (readFrame.run first) (readFrame.run second) := by
  rcases Frame.read_append first.incoming more with same | ended | cut
  · rw [← h.incoming] at same
    apply Lockstep.Ends.together
    · simp only [run, readFrame, same]
    constructor
    · simp only [run, readFrame, same]
    · exact h.sent
    · exact h.unlimited
    · exact h.unlimited'
  · have short := Frame.short_of_read_eq_none ended
    omega
  · rw [run_readFrame_of_error cut]
    have overtaken := h.overtaken.of_grows (adds_readFrame second)
    exact .parted rfl ⟨overtaken.sent, overtaken.unlimited⟩

end Link

instance (more : Bytes) : (Lockstep.extended more).Lawful where
  write bytes := by
    constructor
    · intro first second h
      rw [run_write_of_unlimited h.unlimited, run_write_of_unlimited h.unlimited']
      apply Lockstep.Ends.together
      · rfl
      constructor
      · exact h.incoming
      · simp only [h.sent]
      · exact h.unlimited
      · exact h.unlimited'
    · exact adds_write bytes
  await kind format := by
    constructor
    · intro first second h
      by_cases short : first.incoming.length < Frame.headerSize
      · rw [run_await_of_short short]
        have overtaken := h.overtaken.of_grows (adds_await kind format second)
        exact .parted rfl ⟨overtaken.sent, overtaken.unlimited⟩
      · exact ends_await (h.ends_readFrame (Nat.le_of_not_lt short)) kind format
    · exact adds_await kind format

/-- What is left of the link's input is whole frames. -/
def Link.Uncut (link : Link) : Prop := Frame.Whole link.incoming

instance : Link.Invariant Link.Uncut where
  note _ uncut := uncut
  write {link} bytes uncut := by
    unfold Link.Uncut
    rwa [keeps_write bytes link]
  readFrame := Frame.Whole.read

namespace Contract

/-- Serving fails on the first link; or it comes to the end of the input there, less than a header,
and the second link is served on from there. -/
inductive Continued (codec : Codec) (contract : Contract) (whole : Prop) (more : Bytes)
    (first second : Except LinkError Unit × Link) : Prop
  | failed {e : LinkError} (failed : first.1 = .error e) (overtaken : first.2.Overtaken second.2)
  | ended {stub : Bytes} {middle : Link} (served : first.1 = .ok ())
      (short : stub.length < Frame.headerSize) (uncut : whole → Frame.Whole stub)
      (alike : Link.ExtendedBy more { first.2 with incoming := stub } middle)
      (resumes : second = (contract.serve codec).run middle)

variable {codec : Codec} {contract : Contract} {whole : Prop} {more : Bytes}

theorem Continued.andThen {α : Type} {f : α → Exchange Unit}
    {first second : Except LinkError α × Link}
    (ends : (Lockstep.extended more).Ends first second)
    (later : ∀ a, first.1 = .ok a → first.2.ExtendedBy more second.2 →
      Continued codec contract whole more ((f a).run first.2) ((f a).run second.2))
    (adds : ∀ a, Adds Anything (f a)) :
    Continued codec contract whole more (andThen f first) (andThen f second) := by
  obtain ⟨result, link⟩ := first
  cases ends with
  | together same alike =>
    obtain ⟨result', link'⟩ := second
    cases same
    cases result with
    | error e => exact .failed rfl alike.overtaken
    | ok a => exact later a rfl alike
  | parted failed overtaken =>
    cases failed
    exact .failed rfl (overtaken.of_grows (grows_andThen adds second))

/-- The induction is on the input of the first link. -/
theorem serve_extended {first second : Link} (alike : first.ExtendedBy more second)
    (uncut : whole → first.Uncut) :
    Continued codec contract whole more ((contract.serve codec).run first)
      ((contract.serve codec).run second) := by
  induction shorter : first.incoming.length using Nat.strongRecOn generalizing first second with
  | ind n ih =>
    subst shorter
    by_cases short : first.incoming.length < Frame.headerSize
    · apply Continued.ended
      · rw [run_serve, run_receive_of_short short]
        rfl
      · exact short
      · exact uncut
      · rw [run_serve, run_receive_of_short short]
        exact ⟨alike.incoming, alike.sent, alike.unlimited, alike.unlimited'⟩
      · rfl
    · rw [run_serve, run_serve]
      have read := alike.ends_readFrame (Nat.le_of_not_lt short)
      apply Continued.andThen (ends_receive read)
      · intro found received alike
        cases found with
        | none => exact absurd (short_of_receive_eq_none (run_eq_of_fst_eq received)) short
        | some m =>
          apply Continued.andThen ((contract.matched_answer codec m).ends alike)
          · intro _ answered alike
            have left := length_receive_lt (run_eq_of_fst_eq received)
            apply ih _ (Nat.lt_of_le_of_lt (length_answer_le rfl) left) alike _ rfl
            intro all
            have opened := (matched_receive Lockstep.matched_keeping_readFrame).keeps (uncut all)
            exact (contract.matched_answer codec m).keeps opened
          · exact fun _ => (contract.adds_serve codec).mono fun _ => trivial
      · exact contract.adds_proceed codec

/-- What a link has sent makes no difference to the serving of its input. -/
theorem serve_resumed (codec : Codec) (contract : Contract) {link : Link}
    (unlimited : link.room = none) :
    let served := (contract.serve codec).run { incoming := link.incoming }
    ((contract.serve codec).run link).1 = served.1 ∧
      ((contract.serve codec).run link).2.sent = link.sent ++ served.2.sent := by
  intro served
  have resumed : Link.ResumedAfter link.sent { incoming := link.incoming } link :=
    ⟨rfl, (List.append_nil _).symm, unlimited.symm⟩
  cases (contract.matched_serve codec (matched_resumed_readFrame link.sent)).ends resumed with
  | together same alike => exact ⟨same.symm, alike.sent⟩
  | parted _ apart => exact apart.elim

/-- With more input behind, serving sends what it would send without it, and perhaps more. If the
input is whole frames and they are all served, the rest is served as if it were all the input. -/
theorem serve_append (codec : Codec) (contract : Contract) (front back : Bytes) :
    let serve (incoming : Bytes) := (contract.serve codec).run { incoming }
    (serve front).2.sent <+: (serve (front ++ back)).2.sent ∧
      (Frame.Whole front → (serve front).1 = .ok () →
        (serve (front ++ back)).2.sent = (serve front).2.sent ++ (serve back).2.sent ∧
          (serve (front ++ back)).1 = (serve back).1) := by
  intro serve
  have start : Link.ExtendedBy back { incoming := front } { incoming := front ++ back } :=
    ⟨rfl, rfl, rfl, rfl⟩
  have continued : Continued codec contract (Frame.Whole front) back (serve front)
      (serve (front ++ back)) := serve_extended start id
  cases continued with
  | failed failed overtaken =>
    constructor
    · exact overtaken.sent
    · intro _ served
      rw [failed] at served
      cases served
  | @ended stub middle served short uncut alike resumes =>
    constructor
    · rw [resumes]
      exact (alike.overtaken.of_grows ((contract.adds_serve codec).mono (fun _ => trivial) _)).sent
    · intro whole _
      have incoming : back = middle.incoming := by
        rw [alike.incoming, (uncut whole).eq_nil_of_short short]
        rfl
      obtain ⟨same, sent⟩ := contract.serve_resumed codec alike.unlimited'
      rw [resumes, sent, same, alike.sent, ← incoming]
      exact ⟨rfl, rfl⟩

/-- A contract without an API is asked for it twice and answers both times; the third time, the
input ends inside the frame. -/
theorem serve_append_script :
    let script : Script := { steps := [], outcome := ⟨0, 5, .nil⟩ }
    let serve (incoming : Bytes) := (script.contract.serve Registry.standard).run { incoming }
    let m : Message := .ofBody .getApi Body.GetApiRequest.format ⟨"code"⟩
    let asked : Bytes := Frame.wrap (Message.format.encode m)
    let cut : Bytes := asked.take 6
    let reply : Bytes := Frame.wrap (Message.format.encode
      (.ofBody .getApi Body.GetApiResponse.format ⟨1, none⟩))
    (serve asked).1 = .ok () ∧ (serve asked).2.sent = reply ∧
      (serve (asked ++ cut)).2.sent = reply ∧
      (serve (asked ++ cut)).1 = .error (.frame .cutShort) ∧
      (serve (asked ++ (asked ++ cut))).2.sent = reply ++ reply ∧
      (serve (asked ++ (asked ++ cut))).1 = .error (.frame .cutShort) := by
  intro script serve m asked cut reply
  have whole : Frame.Whole asked := ⟨[Message.format.encode m], by decide +kernel, by simp [asked]⟩
  have served : (serve asked).1 = .ok () ∧ (serve asked).2.sent = reply := by
    let opened : Link := (receive.run { incoming := asked }).2
    let closed : Link := ((script.contract.answer Registry.standard m).run opened).2
    have received : (receive.run { incoming := asked }).1 = .ok (some m) := by decide +kernel
    have answered : ((script.contract.answer Registry.standard m).run opened).1 = .ok () := by
      decide +kernel
    have ended : (receive.run closed).1 = .ok none := by decide +kernel
    have sent : (receive.run closed).2.sent = reply := by decide +kernel
    simp only [serve]
    rw [run_serve_of_answered (run_eq_of_fst_eq received) (run_eq_of_fst_eq answered), ← sent]
    exact served_of_ended (run_eq_of_fst_eq ended)
  have cutShort : (receive.run { incoming := cut }).1 = .error (.frame .cutShort) := by
    decide +kernel
  have silent : (receive.run { incoming := cut }).2.sent = [] := by decide +kernel
  have rest : serve cut = (.error (.frame .cutShort), (receive.run { incoming := cut }).2) := by
    simp only [serve]
    rw [run_serve, run_eq_of_fst_eq cutShort, andThen_error]
  obtain ⟨done, sent⟩ := served
  have goes (back : Bytes) : (serve (asked ++ back)).2.sent =
      (serve asked).2.sent ++ (serve back).2.sent ∧ (serve (asked ++ back)).1 = (serve back).1 :=
    (serve_append Registry.standard script.contract asked back).2 whole done
  have once : (serve (asked ++ cut)).2.sent = reply := by
    rw [(goes cut).1, sent, rest, silent, List.append_nil]
  have twice : (serve (asked ++ (asked ++ cut))).2.sent = reply ++ reply := by
    rw [(goes (asked ++ cut)).1, sent, once]
  have failed : (serve (asked ++ cut)).1 = .error (.frame .cutShort) := by
    rw [(goes cut).2, rest]
  refine ⟨done, sent, once, failed, twice, ?_⟩
  rw [(goes (asked ++ cut)).2, failed]

end Contract

end ContractLink
