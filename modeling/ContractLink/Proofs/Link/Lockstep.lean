import ContractLink.Proofs.Session.Outgoing
/-!
The same exchange on two links. The links may differ in what the exchange cannot tell, such as how
much more the peer takes, until that makes the exchange fail on one of them. Main statement: what
holds of the single writes and reads in this respect holds of answering a request and of serving.
-/
namespace ContractLink

open Exchange

/-- Any bytes and any entries. -/
def Anything (_ : Bytes) (_ : List Note) : Prop := True

instance : Cumulative Anything := ⟨fun _ => trivial, fun _ _ => trivial⟩

theorem Exchange.grows_andThen {α β : Type} {f : α → Exchange β} (more : ∀ a, Adds Anything (f a))
    (outcome : Except LinkError α × Link) : outcome.2.Grows Anything (andThen f outcome).2 := by
  obtain ⟨result, link⟩ := outcome
  cases result with
  | error e => exact .refl link
  | ok a => exact more a link

/-- The second link has sent all that the first one has, and perhaps more. -/
structure Link.Overtaken (first second : Link) : Prop where
  sent : first.sent <+: second.sent
  unlimited : second.room = none

theorem Link.Overtaken.of_grows {first second next : Link} (h : first.Overtaken second)
    (grows : second.Grows Anything next) : first.Overtaken next := by
  obtain ⟨more, notes, -, gains⟩ := grows
  obtain ⟨unlimited, sent⟩ := gains.output h.unlimited
  constructor
  · rw [sent]
    exact h.sent.trans (List.prefix_append _ _)
  · exact unlimited

/-- How two links differ: they are alike as long as exchanges do the same on both, and apart when
one has failed on the first, so that the second goes on alone. -/
structure Lockstep where
  alike : Link → Link → Prop
  apart : Link → Link → Prop

namespace Lockstep

variable {α β : Type}

/-- An exchange that has led to the two outcomes has done the same on both links, or has failed on
the first. -/
inductive Ends (pair : Lockstep) (first second : Except LinkError α × Link) : Prop
  | together (same : first.1 = second.1) (alike : pair.alike first.2 second.2)
  | parted {e : LinkError} (failed : first.1 = .error e) (apart : pair.apart first.2 second.2)

/-- Entries in the journal make no difference, and the second link may go on. -/
class Neutral (pair : Lockstep) : Prop where
  alike_note : ∀ {first second : Link} (entry : Note), pair.alike first second →
    pair.alike ((note entry).run first).2 ((note entry).run second).2
  apart_note : ∀ {first second : Link} (entry : Note), pair.apart first second →
    pair.apart ((note entry).run first).2 second
  apart_grows : ∀ {first second next : Link}, pair.apart first second →
    second.Grows Anything next → pair.apart first next

theorem Ends.andThen {pair : Lockstep} [pair.Neutral] {first second : Except LinkError α × Link}
    {f : α → Exchange β} (ends : pair.Ends first second)
    (later : ∀ a, first.1 = .ok a → pair.alike first.2 second.2 →
      pair.Ends ((f a).run first.2) ((f a).run second.2))
    (more : ∀ a, Adds Anything (f a)) : pair.Ends (andThen f first) (andThen f second) := by
  obtain ⟨result, link⟩ := first
  cases ends with
  | together same alike =>
    obtain ⟨result', link'⟩ := second
    cases same
    cases result with
    | error e => exact .together rfl alike
    | ok a => exact later a rfl alike
  | parted failed apart =>
    cases failed
    exact .parted rfl (Neutral.apart_grows apart (grows_andThen more second))

end Lockstep

namespace Exchange

variable {α β : Type} {pair : Lockstep}

/-- On links that are alike the exchange does the same, or fails on the first. -/
structure Matched (pair : Lockstep) (x : Exchange α) : Prop where
  ends : ∀ {first second : Link}, pair.alike first second → pair.Ends (x.run first) (x.run second)
  adds : Adds Anything x

end Exchange

theorem Lockstep.Ends.andThen_of_matched {α β : Type} {pair : Lockstep} [pair.Neutral]
    {first second : Except LinkError α × Link} {f : α → Exchange β} (ends : pair.Ends first second)
    (hf : ∀ a, Matched pair (f a)) :
    pair.Ends (Exchange.andThen f first) (Exchange.andThen f second) :=
  ends.andThen (fun a _ => (hf a).ends) fun a => (hf a).adds

namespace Exchange

variable {α β : Type} {pair : Lockstep}

theorem adds_write (bytes : Bytes) : Adds Anything (write bytes) :=
  fun link => ⟨bytes, [], trivial, gains_write bytes link⟩

theorem matched_ofExcept (result : Except LinkError α) : Matched pair (ofExcept result) :=
  ⟨fun alike => .together rfl alike, adds_ofExcept result⟩

theorem matched_pure (a : α) : Matched pair (pure a) := matched_ofExcept (.ok a)

section

variable [pair.Neutral]

theorem Matched.bind {x : Exchange α} {f : α → Exchange β} (hx : Matched pair x)
    (hf : ∀ a, Matched pair (f a)) : Matched pair (x >>= f) where
  ends alike := (hx.ends alike).andThen_of_matched hf
  adds := hx.adds.bind fun a => (hf a).adds

theorem matched_note (entry : Note) : Matched pair (note entry) where
  ends alike := .together rfl (Lockstep.Neutral.alike_note entry alike)
  adds link := ⟨[], [entry], trivial, gains_note entry link⟩

theorem matched_log (level : Log.Level) (message : String) : Matched pair (log level message) :=
  matched_note _

theorem matched_accept (data : Bytes) : Matched pair (accept data) :=
  (matched_ofExcept _).bind fun _ => (matched_log _ _).bind fun _ => matched_pure _

theorem ends_receive {first second : Link}
    (reads : pair.Ends (readFrame.run first) (readFrame.run second)) :
    pair.Ends (receive.run first) (receive.run second) := by
  apply reads.andThen_of_matched
  intro found
  cases found with
  | none => exact matched_pure _
  | some data => exact (matched_accept data).bind fun _ => matched_pure _

theorem matched_receive (reads : Matched pair readFrame) : Matched pair receive :=
  ⟨fun alike => ends_receive (reads.ends alike), adds_receive⟩

theorem ends_await {first second : Link}
    (reads : pair.Ends (readFrame.run first) (readFrame.run second)) (kind : MessageKind)
    (format : Format β) :
    pair.Ends ((await kind format).run first) ((await kind format).run second) := by
  apply (ends_receive reads).andThen_of_matched
  intro found
  cases found with
  | none => exact matched_ofExcept _
  | some m =>
    dsimp only
    split <;> exact matched_ofExcept _

theorem matched_await (reads : Matched pair readFrame) (kind : MessageKind) (format : Format β) :
    Matched pair (await kind format) :=
  ⟨fun alike => ends_await (reads.ends alike) kind format, adds_await kind format⟩

end

/-- From links with the same input the same frame is read. -/
theorem matched_readFrame
    (same : ∀ {first second : Link}, pair.alike first second → first.incoming = second.incoming)
    (drop : ∀ {first second : Link} (rest : Bytes), pair.alike first second →
      pair.alike { first with incoming := rest } { second with incoming := rest }) :
    Matched pair readFrame := by
  constructor
  · intro first second alike
    apply Lockstep.Ends.together
    · simp only [run, readFrame, same alike]
    · simp only [run, readFrame, same alike]
      exact drop _ alike
  · exact adds_readFrame

end Exchange

/-- Writing, and reading an answer, is done on both links alike. -/
class Lockstep.Lawful (pair : Lockstep) : Prop extends pair.Neutral where
  write : ∀ bytes, Matched pair (write bytes)
  await : ∀ {β : Type} (kind : MessageKind) (format : Format β), Matched pair (await kind format)

section

variable {pair : Lockstep} [pair.Lawful] (codec : Codec)

theorem Exchange.matched_writeFrame (data : Bytes) : Matched pair (writeFrame data) :=
  (matched_ofExcept _).bind fun _ => (Lockstep.Lawful.write _).bind fun _ =>
    Lockstep.Lawful.write _

theorem Exchange.matched_transmit (m : Message) : Matched pair (transmit m) :=
  (matched_log _ _).bind fun _ => matched_writeFrame _

namespace Call

theorem matched_answer (c : Call) : Matched pair (c.answer codec) := by
  cases c with
  | getValue => exact (Lockstep.Lawful.await _ _).bind fun _ => matched_pure _
  | getBalance =>
    exact (Lockstep.Lawful.await _ _).bind fun _ => (matched_ofExcept _).bind fun _ =>
      matched_ofExcept _
  | getInfo => exact (Lockstep.Lawful.await _ _).bind fun _ => matched_ofExcept _
  | announce | setValue | sendEvent => exact matched_pure _

theorem matched_perform (c : Call) : Matched pair (c.perform codec) :=
  (matched_ofExcept _).bind fun _ => (matched_transmit _).bind fun _ => c.matched_answer codec

end Call

namespace Step

theorem matched_perform (s : Step) : Matched pair (s.perform codec) := by
  cases s with
  | call c => exact c.matched_perform codec
  | parseAddress | checkApi => exact matched_ofExcept _

/-- The outcome that is entered is the same on both links, or the links part. -/
theorem matched_record (s : Step) : Matched pair (s.record codec) where
  ends {first second} alike := by
    cases (s.matched_perform codec).ends alike with
    | together same alike =>
      refine .together same ?_
      show pair.alike ((note (.stepped s ((s.perform codec).run first).1)).run _).2
        ((note (.stepped s ((s.perform codec).run second).1)).run _).2
      rw [← same]
      exact Lockstep.Neutral.alike_note _ alike
    | parted failed apart =>
      refine .parted failed (Lockstep.Neutral.apart_note _ ?_)
      have noted := gains_note (.stepped s ((s.perform codec).run second).1)
        ((s.perform codec).run second).2
      exact Lockstep.Neutral.apart_grows apart ⟨_, _, trivial, noted⟩
  adds := (s.adds_record codec).mono fun _ => trivial

end Step

theorem Program.matched_run {α : Type} (program : Program α) :
    Matched pair (program.run codec) := by
  induction program with
  | done result => exact matched_pure result
  | log level message next ih => exact (matched_log level message).bind fun _ => ih
  | step s next ih => exact (s.matched_record codec).bind ih

theorem Outcome.matched_report (outcome : Outcome) : Matched pair (outcome.report codec) :=
  (matched_ofExcept _).bind fun _ => matched_transmit _

namespace Contract

variable (contract : Contract)

theorem matched_answerInvoke (m : Message) : Matched pair (contract.answerInvoke codec m) :=
  (matched_ofExcept _).bind fun _ => (matched_ofExcept _).bind fun request =>
    (matched_log _ _).bind fun _ => (matched_note _).bind fun _ =>
    ((contract.invoke request).matched_run codec).bind fun outcome => outcome.matched_report codec

theorem matched_warnMissing (code : String) : Matched pair (contract.warnMissing code) := by
  unfold warnMissing
  split
  · exact matched_pure ()
  · exact matched_log _ _

theorem matched_answerApi (m : Message) : Matched pair (contract.answerApi m) :=
  (matched_ofExcept _).bind fun request => (contract.matched_warnMissing request.code).bind fun _ =>
    matched_transmit _

theorem matched_answer (m : Message) : Matched pair (contract.answer codec m) := by
  unfold answer
  split
  · exact contract.matched_answerInvoke codec m
  · exact contract.matched_answerApi m
  · exact matched_ofExcept _

theorem adds_proceed (found : Option Message) : Adds Anything (contract.proceed codec found) := by
  cases found with
  | none => exact adds_log _ _
  | some m =>
    have answers : Adds Anything (contract.answer codec m) :=
      (contract.adds_answer codec m).mono fun _ => trivial
    exact answers.bind fun _ => (contract.adds_serve codec).mono fun _ => trivial

/-- The induction is on the input of the first link; as long as the links are alike the second one
follows it. -/
theorem matched_serve (reads : Matched pair readFrame) : Matched pair (contract.serve codec) where
  ends {first second} alike := by
    induction shorter : first.incoming.length using Nat.strongRecOn
      generalizing first second with
    | ind n ih =>
      subst shorter
      rw [run_serve, run_serve]
      apply (ends_receive (reads.ends alike)).andThen
      · intro found received alike
        cases found with
        | none => exact (matched_log _ _).ends alike
        | some m =>
          apply ((contract.matched_answer codec m).ends alike).andThen
          · intro _ answered alike
            have read := length_receive_lt (run_eq_of_fst_eq received)
            exact ih _ (Nat.lt_of_le_of_lt (length_answer_le rfl) read) alike rfl
          · exact fun _ => (contract.adds_serve codec).mono fun _ => trivial
      · exact contract.adds_proceed codec
  adds := (contract.adds_serve codec).mono fun _ => trivial

end Contract

end

/-- Entries in the journal, writes and the reading of a frame keep what holds of the link. -/
class Link.Invariant (holds : Link → Prop) : Prop where
  note : ∀ {link : Link} (entry : Note), holds link → holds ((note entry).run link).2
  write : ∀ {link : Link} (bytes : Bytes), holds link → holds ((write bytes).run link).2
  readFrame : ∀ {link : Link}, holds link → holds (readFrame.run link).2

namespace Lockstep

/-- A link beside itself, as long as something holds of it. -/
def keeping (holds : Link → Prop) : Lockstep where
  alike first second := first = second ∧ holds first
  apart _ _ := False

variable {holds : Link → Prop}

theorem matched_keeping {α : Type} {x : Exchange α} (adds : Adds Anything x)
    (keeps : ∀ {link}, holds link → holds (x.run link).2) : Matched (keeping holds) x := by
  constructor
  · rintro link _ ⟨rfl, start⟩
    exact .together rfl ⟨rfl, keeps start⟩
  · exact adds

instance [Link.Invariant holds] : (keeping holds).Neutral where
  alike_note := by
    rintro link _ entry ⟨rfl, start⟩
    exact ⟨rfl, Link.Invariant.note entry start⟩
  apart_note _ apart := apart
  apart_grows apart _ := apart

theorem matched_keeping_readFrame [Link.Invariant holds] : Matched (keeping holds) readFrame :=
  matched_keeping adds_readFrame Link.Invariant.readFrame

instance [Link.Invariant holds] : (keeping holds).Lawful where
  write bytes := matched_keeping (adds_write bytes) (Link.Invariant.write bytes)
  await := matched_await matched_keeping_readFrame

end Lockstep

theorem Exchange.Matched.keeps {α : Type} {holds : Link → Prop} {x : Exchange α}
    (matched : Matched (.keeping holds) x) {link : Link} (start : holds link) :
    holds (x.run link).2 := by
  cases matched.ends ⟨rfl, start⟩ with
  | together _ alike => exact alike.2
  | parted _ apart => exact apart.elim

end ContractLink
