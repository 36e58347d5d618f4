import ContractLink.Proofs.Link.Output
import ContractLink.Proofs.Traversal
/-!
Words: the kinds of the messages that an exchange sends, in their order. An exchange that fails may
cut its word. Main statement: a program that makes the same calls whatever it is answered sends
their kinds, and is cut only right before a call that has no frame or right after one that is
answered.
-/
namespace ContractLink

open Exchange

/-- The bytes are frames, one after another, of messages of the kinds. -/
inductive Spells : List MessageKind → Bytes → Prop
  | nil : Spells [] []
  | cons {m : Message} {frame more : Bytes} {word : List MessageKind}
      (framed : m.toFrame = .ok frame) (later : Spells word more) :
      Spells (m.kind :: word) (frame ++ more)

namespace Spells

variable {word other : List MessageKind} {sent more : Bytes}

theorem singleton {m : Message} {frame : Bytes} (framed : m.toFrame = .ok frame) :
    Spells [m.kind] frame := by
  have spells := cons framed nil
  rwa [List.append_nil] at spells

theorem append (first : Spells word sent) (second : Spells other more) :
    Spells (word ++ other) (sent ++ more) := by
  induction first with
  | nil => exact second
  | cons framed _ ih =>
    rw [List.append_assoc]
    exact cons framed ih

/-- A reader finds the messages, one a frame, and nothing behind them. -/
theorem read (spells : Spells word sent) : ∃ messages : List Message,
    Frame.readAll sent = (messages.map Message.format.encode, .ok ()) ∧
      (∀ m ∈ messages, Message.format.decodeAll (Message.format.encode m) = .ok m) ∧
      messages.map Message.kind = word := by
  induction spells with
  | nil =>
    have short : ([] : Bytes).length < Frame.headerSize := by decide
    exact ⟨[], Frame.readAll_of_none (Frame.read_of_short short), List.forall_mem_nil _, rfl⟩
  | @cons m frame more word framed later ih =>
    obtain ⟨messages, frames, decoded, kinds⟩ := ih
    refine ⟨m :: messages, ?_, ?_, ?_⟩
    · rw [Frame.readAll_of_some (Message.read_of_toFrame framed more), frames]
      rfl
    · exact List.forall_mem_cons.mpr ⟨Message.decodeAll_of_toFrame framed, decoded⟩
    · rw [List.map_cons, kinds]

end Spells

namespace Exchange

variable {α β : Type} {word other : List MessageKind} {Cut Cut' : List MessageKind → Prop}

/-- An exchange that succeeds has sent its word, one that fails has sent a cut. -/
inductive Spoken (word : List MessageKind) (Cut : List MessageKind → Prop) :
    Except LinkError α → List MessageKind → Prop
  | whole (a : α) : Spoken word Cut (.ok a) word
  | cut {e : LinkError} {part : List MessageKind} (short : Cut part) :
      Spoken word Cut (.error e) part

theorem Spoken.mono {result : Except LinkError α} {part : List MessageKind}
    (spoken : Spoken word Cut result part) (cuts : ∀ part, Cut part → Cut' part) :
    Spoken word Cut' result part := by
  cases spoken with
  | whole a => exact .whole a
  | cut short => exact .cut (cuts _ short)

theorem Spoken.behind {result : Except LinkError α} {part : List MessageKind}
    (spoken : Spoken word Cut result part) (before : List MessageKind) :
    Spoken (before ++ word) (fun part => ∃ rest, Cut rest ∧ part = before ++ rest) result
      (before ++ part) := by
  cases spoken with
  | whole a => exact .whole a
  | cut short => exact .cut ⟨_, short, rfl⟩

/-- To a peer that takes everything the exchange sends the word, or a cut if it fails. -/
def Speaks (word : List MessageKind) (Cut : List MessageKind → Prop) (x : Exchange α) : Prop :=
  ∀ link : Link, link.room = none → ∃ part sent notes, Spoken word Cut (x.run link).1 part ∧
    Spells part sent ∧ link.Gains (x.run link).2 sent notes

/-- The exchange can succeed with the value. -/
def Yields (x : Exchange α) (a : α) : Prop := ∃ link, (x.run link).1 = .ok a

theorem of_yields_bind {x : Exchange α} {f : α → Exchange β} {b : β} (h : Yields (x >>= f) b) :
    ∃ a, Yields x a ∧ Yields (f a) b := by
  obtain ⟨link, h⟩ := h
  rw [run_bind] at h
  rcases result : x.run link with ⟨e | a, next⟩
  · rw [result] at h
    cases h
  · rw [result] at h
    exact ⟨a, ⟨link, by rw [result]⟩, next, h⟩

theorem Speaks.mono {x : Exchange α} (hx : Speaks word Cut x)
    (cuts : ∀ part, Cut part → Cut' part) : Speaks word Cut' x := by
  intro link unlimited
  obtain ⟨part, sent, notes, spoken, spells, gains⟩ := hx link unlimited
  exact ⟨part, sent, notes, spoken.mono cuts, spells, gains⟩

/-- What is cut is the first word, or the second behind all of the first. -/
theorem Speaks.bind {x : Exchange α} {f : α → Exchange β} (hx : Speaks word Cut x)
    (hf : ∀ a, Yields x a → Speaks other Cut' (f a)) :
    Speaks (word ++ other) (fun part => Cut part ∨ ∃ rest, Cut' rest ∧ part = word ++ rest)
      (x >>= f) := by
  intro link unlimited
  obtain ⟨part, sent, notes, spoken, spells, gains⟩ := hx link unlimited
  rw [run_bind]
  rcases result : x.run link with ⟨e | a, next⟩ <;> rw [result] at spoken gains
  · cases spoken with
    | cut short => exact ⟨part, sent, notes, .cut (.inl short), spells, gains⟩
  · cases spoken with
    | whole a =>
      have yields : Yields x a := ⟨link, by rw [result]⟩
      obtain ⟨rest, more, others, spoken', spells', gains'⟩ :=
        hf a yields next (gains.output unlimited).1
      refine ⟨word ++ rest, sent ++ more, notes ++ others, ?_, spells.append spells',
        gains.trans gains'⟩
      exact (spoken'.behind word).mono fun _ => .inr

theorem speaks_of_quiet {x : Exchange α} (hx : Adds Quiet x) : Speaks [] (· = []) x := by
  intro link unlimited
  obtain ⟨sent, notes, ⟨rfl, logs⟩, gains⟩ := hx link
  refine ⟨[], [], notes, ?_, .nil, gains⟩
  cases (x.run link).1 with
  | error e => exact .cut rfl
  | ok a => exact .whole a

/-- Before the word nothing is sent, and the exchange may fail. -/
theorem Speaks.bind_quiet {x : Exchange α} {f : α → Exchange β} (hx : Adds Quiet x)
    (hf : ∀ a, Speaks word Cut (f a)) (empty : Cut []) : Speaks word Cut (x >>= f) := by
  apply ((speaks_of_quiet hx).bind fun a _ => hf a).mono
  rintro part (rfl | ⟨rest, short, rfl⟩)
  · exact empty
  · exact short

theorem speaks_note_bind (entry : Note) {f : Unit → Exchange β} (hf : Speaks word Cut (f ())) :
    Speaks word Cut (note entry >>= f) := by
  intro link unlimited
  obtain ⟨part, sent, notes, spoken, spells, gains⟩ :=
    hf ((note entry).run link).2 ((gains_note entry link).output unlimited).1
  exact ⟨part, sent, _, spoken, spells, (gains_note entry link).trans gains⟩

theorem speaks_pure (a : α) : Speaks [] Cut (pure a) :=
  fun link _ => ⟨[], [], [], .whole a, .nil, .refl link⟩

theorem speaks_ofExcept_error {e : LinkError} (empty : Cut []) :
    Speaks word Cut (ofExcept (.error e) : Exchange α) :=
  fun link _ => ⟨[], [], [], .cut empty, .nil, .refl link⟩

end Exchange

namespace Call

variable {codec : Codec} {c : Call}

/-- Whether the call is one that the manager answers. -/
def asks : Call → Bool
  | getValue _ | getBalance _ | getInfo => true
  | announce _ | setValue .. | sendEvent .. => false

/-- Where the word of the calls may end if one of them fails. -/
inductive Cut (codec : Codec) : List Call → List MessageKind → Prop
  | unsent {c : Call} {calls : List Call} (unframed : c.frame? codec = none) :
      Cut codec (c :: calls) []
  | unanswered {c : Call} {calls : List Call} (asks : c.asks = true) :
      Cut codec (c :: calls) [c.kind]
  | later {c : Call} {calls : List Call} {part : List MessageKind} (cut : Cut codec calls part) :
      Cut codec (c :: calls) (c.kind :: part)

/-- Among calls that have frames, a word is cut right after one that is answered. -/
theorem Cut.of_append {front back : List Call} {part : List MessageKind}
    (framed : ∀ c ∈ front, c.frame? codec ≠ none) (cut : Cut codec (front ++ back) part) :
    (∃ before c, before ++ [c] <+: front ∧ c.asks = true ∧ part = (before ++ [c]).map kind) ∨
      ∃ rest, Cut codec back rest ∧ part = front.map kind ++ rest := by
  induction front generalizing part with
  | nil => exact .inr ⟨part, cut, rfl⟩
  | cons c front ih =>
    obtain ⟨own, others⟩ := List.forall_mem_cons.mp framed
    cases cut with
    | unsent unframed => exact absurd unframed own
    | unanswered asks => exact .inl ⟨[], c, by simp, asks, rfl⟩
    | later inside =>
      rcases ih others inside with ⟨before, last, first, asks, rfl⟩ | ⟨rest, behind, rfl⟩
      · exact .inl ⟨c :: before, last, List.cons_prefix_cons.mpr ⟨rfl, first⟩, asks, rfl⟩
      · exact .inr ⟨rest, behind, rfl⟩

theorem kind_of_asks (asks : c.asks = true) : c.kind ∈ [.getInfo, .getValue, .getBalance] := by
  cases c with
  | getInfo | getValue | getBalance => simp [kind]
  | announce | setValue | sendEvent => cases asks

theorem kind_of_message {m : Message} (written : c.message codec = .ok m) : m.kind = c.kind := by
  obtain ⟨payload, -, built⟩ := of_bind_eq_ok written
  obtain rfl := Except.ok.inj built
  rfl

/-- Only an answer that is asked for can fail. -/
theorem speaks_answer (codec : Codec) (c : Call) :
    Speaks [] (fun part => c.asks = true ∧ part = []) (c.answer codec) := by
  have quiet := speaks_of_quiet (adds_answer codec c)
  cases c with
  | getValue | getBalance | getInfo => exact quiet.mono fun _ empty => ⟨rfl, empty⟩
  | announce | setValue | sendEvent => exact speaks_pure ()

end Call

theorem Exchange.speaks_transmit (m : Message) :
    Speaks [m.kind] (fun part => part = [] ∧ ∃ e, m.toFrame = .error e) (transmit m) := by
  intro link unlimited
  cases framed : m.toFrame with
  | ok frame =>
    obtain ⟨r, eq⟩ := run_transmit_of_unlimited framed unlimited
    rw [eq]
    refine ⟨[m.kind], frame, [.logged r], .whole (), .singleton framed, rfl, ?_⟩
    exact fun _ => ⟨unlimited, rfl⟩
  | error e =>
    obtain ⟨r, eq⟩ := run_transmit_of_error framed link
    rw [eq]
    exact ⟨[], [], [.logged r], .cut ⟨rfl, e, rfl⟩, .nil, gains_note (.logged r) link⟩

/-- A call that has a frame is sent, and then may not be answered. -/
theorem Call.speaks_perform (codec : Codec) (c : Call) :
    Speaks [c.kind] (Cut codec [c]) (c.perform codec) := by
  intro link unlimited
  cases written : c.message codec with
  | error e =>
    rw [run_perform_of_message_error written]
    exact ⟨[], [], [], .cut (.unsent (frame?_of_message_error written)), .nil, .refl link⟩
  | ok m =>
    have sends := (speaks_transmit m).bind fun _ _ => c.speaks_answer codec
    rw [kind_of_message written] at sends
    rw [run_perform_of_message_ok written]
    apply sends.mono _ link unlimited
    rintro part (⟨rfl, e, unframed⟩ | ⟨rest, ⟨asks, rfl⟩, rfl⟩)
    · apply Cut.unsent
      rw [frame?_of_message_ok written, unframed]
      rfl
    · exact .unanswered asks

theorem Step.speaks_record {word : List MessageKind} {Cut : List MessageKind → Prop}
    {codec : Codec} {s : Step} (spoken : Speaks word Cut (s.perform codec)) :
    Speaks word Cut (s.record codec) := by
  intro link unlimited
  obtain ⟨part, sent, notes, spoken, spells, gains⟩ := spoken link unlimited
  have noted := gains_note (.stepped s ((s.perform codec).run link).1)
    ((s.perform codec).run link).2
  have both := gains.trans noted
  rw [List.append_nil] at both
  exact ⟨part, sent, _, spoken, spells, both⟩

namespace Program

variable {α : Type}

/-- Whatever it is answered the program makes the calls, in their order, and then yields the
result. -/
inductive Makes : Program α → List Call → α → Prop
  | done (result : α) : Makes (.done result) [] result
  | log {level : Log.Level} {message : String} {next : Program α} {calls : List Call} {result : α}
      (after : Makes next calls result) : Makes (.log level message next) calls result
  | call {c : Call} {next : c.Answer → Program α} {calls : List Call} {result : α}
      (after : ∀ answer, Makes (next answer) calls result) :
      Makes (.step (.call c) next) (c :: calls) result

namespace Makes

variable {codec : Codec} {program : Program α} {calls : List Call} {result a : α}

theorem eq_of_yields (makes : program.Makes calls result) (yields : Yields (program.run codec) a) :
    a = result := by
  induction makes with
  | done result =>
    obtain ⟨link, ran⟩ := yields
    exact (Except.ok.inj ran).symm
  | log after ih =>
    obtain ⟨u, -, later⟩ := of_yields_bind yields
    exact ih later
  | call after ih =>
    obtain ⟨answer, -, later⟩ := of_yields_bind yields
    exact ih answer later

theorem speaks (makes : program.Makes calls result) :
    Speaks (calls.map Call.kind) (Call.Cut codec calls) (program.run codec) := by
  induction makes with
  | done result => exact speaks_pure result
  | log after ih => exact speaks_note_bind _ ih
  | @call c next calls result after ih =>
    have records := Step.speaks_record (s := .call c) (c.speaks_perform codec)
    apply (records.bind fun answer _ => ih answer).mono
    rintro part (own | ⟨rest, short, rfl⟩)
    · cases own with
      | unsent unframed => exact .unsent unframed
      | unanswered asks => exact .unanswered asks
      | later cut => cases cut
    · exact .later short

end Makes

end Program

end ContractLink
