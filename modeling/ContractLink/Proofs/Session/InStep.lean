import ContractLink.Proofs.Link.Frames
import ContractLink.Proofs.Link.Word
import ContractLink.Proofs.Session.Outgoing
/-!
Questions and answers. A call that asks takes the next frame of the input for its answer, whole and
alone, whether or not the answer is one it can use. Main statement: what a call ends in depends on
that frame only, and it succeeds just when the frame carries an answer of its kind; so the input
stays on the boundary of a frame, call after call.
-/
namespace ContractLink

namespace Exchange

variable {α β : Type} {data : Bytes} {result : Except LinkError α}

/-- Whatever the link, the exchange ends in the result and leaves the input. -/
def Gives (result : Except LinkError α) (x : Exchange α) : Prop :=
  ∀ link, ∃ next, x.run link = (result, next) ∧ next.incoming = link.incoming

/-- If the input begins with a frame of the data, the exchange ends in the result and leaves what
is behind the frame. -/
def Takes (data : Bytes) (result : Except LinkError α) (x : Exchange α) : Prop :=
  ∀ (link : Link) (rest : Bytes), link.incoming = Frame.wrap data ++ rest →
    ∃ next, x.run link = (result, next) ∧ next.incoming = rest

theorem gives_ofExcept (result : Except LinkError α) : Gives result (ofExcept result) :=
  fun link => ⟨link, rfl, rfl⟩

theorem gives_pure (a : α) : Gives (.ok a) (pure a) := fun link => ⟨link, rfl, rfl⟩

theorem Gives.bind {x : Exchange α} {f : α → Exchange β} {g : α → Except LinkError β}
    (hx : Gives result x) (hf : ∀ a, Gives (g a) (f a)) : Gives (result >>= g) (x >>= f) := by
  intro link
  obtain ⟨next, first, kept⟩ := hx link
  rw [run_bind, first]
  cases result with
  | error e => exact ⟨next, rfl, kept⟩
  | ok a => exact kept ▸ hf a next

theorem Takes.bind {x : Exchange α} {f : α → Exchange β} {g : α → Except LinkError β}
    (hx : Takes data result x) (hf : ∀ a, Gives (g a) (f a)) :
    Takes data (result >>= g) (x >>= f) := by
  intro link rest starts
  obtain ⟨next, first, left⟩ := hx link rest starts
  rw [run_bind, first]
  cases result with
  | error e => exact ⟨next, rfl, left⟩
  | ok a => exact left ▸ hf a next

theorem Gives.ite {p : Prop} [Decidable p] {x y : Exchange α} {other : Except LinkError α}
    (hx : Gives result x) (hy : Gives other y) :
    Gives (if p then result else other) (if p then x else y) := by
  split
  · exact hx
  · exact hy

theorem takes_readFrame (fits : Frame.Fits data.length) :
    Takes data (.ok (some data)) readFrame :=
  fun _ _ starts => ⟨_, run_readFrame_of_wrap fits starts, rfl⟩

end Exchange

open Exchange

/-- The body that the data of a frame is taken for, which must be of a kind. -/
def Message.reply {β : Type} (kind : MessageKind) (format : Format β) (data : Bytes) :
    Except LinkError β := do
  let m ← (Message.format.decodeAll data).mapError .decode
  if m.kind = kind then (m.body format).mapError .decode
  else .error (.unexpectedMessage [kind] m.kind)

/-- The data is a message of the kind, and the body is its whole payload. -/
def Message.Bears {β : Type} (kind : MessageKind) (format : Format β) (data : Bytes) (body : β) :
    Prop :=
  ∃ m, Message.format.decodeAll data = .ok m ∧ m.kind = kind ∧ m.body format = .ok body

theorem Message.reply_eq_ok_iff {β : Type} {kind : MessageKind} {format : Format β} {data : Bytes}
    {body : β} : Message.reply kind format data = .ok body ↔ Bears kind format data body := by
  unfold reply Bears
  rw [bind_mapError_eq_ok_iff]
  refine exists_congr fun m => and_congr_right fun _ => ?_
  by_cases same : m.kind = kind
  · rw [if_pos same, mapError_eq_ok_iff, and_iff_right same]
  · simp [same]

namespace Exchange

variable {β : Type} {data : Bytes}

theorem gives_accept (data : Bytes) :
    Gives ((Message.format.decodeAll data).mapError .decode) (accept data) := by
  intro link
  unfold accept
  cases (Message.format.decodeAll data).mapError LinkError.decode with
  | error e => exact ⟨link, rfl, rfl⟩
  | ok m => exact ⟨_, rfl, rfl⟩

theorem takes_receive (fits : Frame.Fits data.length) :
    Takes data (some <$> (Message.format.decodeAll data).mapError .decode) receive := by
  intro link rest starts
  obtain ⟨opened, found, left⟩ := takes_readFrame fits link rest starts
  rw [receive, run_bind, found, andThen_ok, ← left]
  exact ((gives_accept data).bind fun m => gives_pure (some m)) opened

theorem takes_await (fits : Frame.Fits data.length) (kind : MessageKind) (format : Format β) :
    Takes data (Message.reply kind format data) (await kind format) := by
  intro link rest starts
  obtain ⟨opened, received, left⟩ := takes_receive fits link rest starts
  rw [await, run_bind, received, ← left]
  unfold Message.reply
  cases (Message.format.decodeAll data).mapError LinkError.decode with
  | error e => exact ⟨opened, rfl, rfl⟩
  | ok m => exact (gives_ofExcept _).ite (gives_ofExcept _) opened

end Exchange

namespace Call

variable {codec : Codec} {c : Call} {data : Bytes}

/-- What the data of a frame is to the call, if the frame is what it is answered. -/
def reply (codec : Codec) (data : Bytes) : (c : Call) → Except LinkError c.Answer
  | getValue _ => do
    return (← Message.reply .getValue Body.GetValueResponse.format data).value?
  | getBalance _ => do
    let response ← Message.reply .getBalance Body.GetBalanceResponse.format data
    let balance ← (codec.decode response.balance).mapError .codec
    Field.balance.integer balance
  | getInfo => do
    let response ← Message.reply .getInfo Body.GetInfoResponse.format data
    (codec.decode response.info).mapError .codec
  | announce _ | setValue .. | sendEvent .. => return ()

/-- The data is a message of the call's kind, its whole payload is a body of that kind, and the
answer is the value in it. -/
def Carries (codec : Codec) (data : Bytes) : (c : Call) → c.Answer → Prop
  | getValue _, value? => Message.Bears .getValue Body.GetValueResponse.format data ⟨value?⟩
  | getBalance _, balance => ∃ typed,
    Message.Bears .getBalance Body.GetBalanceResponse.format data ⟨typed⟩ ∧
      codec.decode typed = .ok (.integer balance)
  | getInfo, info => ∃ typed,
    Message.Bears .getInfo Body.GetInfoResponse.format data ⟨typed⟩ ∧
      codec.decode typed = .ok info
  | announce _, _ | setValue .., _ | sendEvent .., _ => False

theorem reply_eq_ok_iff (asks : c.asks = true) (answer : c.Answer) :
    c.reply codec data = .ok answer ↔ c.Carries codec data answer := by
  cases c with
  | getValue =>
    refine bind_eq_ok_iff.trans ⟨?_, fun bears => ?_⟩
    · rintro ⟨response, read, given⟩
      obtain rfl := Except.ok.inj given
      exact Message.reply_eq_ok_iff.mp read
    · exact ⟨⟨answer⟩, Message.reply_eq_ok_iff.mpr bears, rfl⟩
  | getBalance =>
    refine bind_eq_ok_iff.trans ⟨?_, ?_⟩
    · rintro ⟨response, read, rest⟩
      obtain ⟨balance, decoded, exact⟩ := bind_mapError_eq_ok_iff.mp rest
      obtain rfl := Field.integer_eq_ok_iff.mp exact
      exact ⟨response.balance, Message.reply_eq_ok_iff.mp read, decoded⟩
    · rintro ⟨typed, bears, decoded⟩
      refine ⟨⟨typed⟩, Message.reply_eq_ok_iff.mpr bears, bind_mapError_eq_ok_iff.mpr ?_⟩
      exact ⟨.integer answer, decoded, Field.integer_eq_ok_iff.mpr rfl⟩
  | getInfo =>
    refine bind_eq_ok_iff.trans ⟨?_, ?_⟩
    · rintro ⟨response, read, decoded⟩
      exact ⟨response.info, Message.reply_eq_ok_iff.mp read, mapError_eq_ok_iff.mp decoded⟩
    · rintro ⟨typed, bears, decoded⟩
      exact ⟨⟨typed⟩, Message.reply_eq_ok_iff.mpr bears, mapError_eq_ok_iff.mpr decoded⟩
  | announce | setValue | sendEvent => cases asks

theorem takes_answer (fits : Frame.Fits data.length) (asks : c.asks = true) :
    Takes data (c.reply codec data) (c.answer codec) := by
  cases c with
  | getValue => exact (takes_await fits _ _).bind fun response => gives_pure response.value?
  | getBalance =>
    exact (takes_await fits _ _).bind fun _ => (gives_ofExcept _).bind fun _ => gives_ofExcept _
  | getInfo => exact (takes_await fits _ _).bind fun _ => gives_ofExcept _
  | announce | setValue | sendEvent => cases asks

/-- A call that only tells does not read, whether or not it is sent. -/
theorem keeps_perform (tells : c.asks = false) : Keeps (c.perform codec) := by
  refine (keeps_ofExcept _).bind fun m => (keeps_transmit m).bind fun _ => ?_
  cases c with
  | getValue | getBalance | getInfo => cases tells
  | announce | setValue | sendEvent => exact keeps_pure ()

theorem run_perform_of_wrap (asks : c.asks = true) (sendable : ¬c.Unsendable codec)
    (fits : Frame.Fits data.length) {link : Link} {rest : Bytes} (unlimited : link.room = none)
    (starts : link.incoming = Frame.wrap data ++ rest) :
    ∃ next, (c.perform codec).run link = (c.reply codec data, next) ∧ next.incoming = rest := by
  obtain ⟨frame, framed⟩ := Option.ne_none_iff_exists'.mp (mt frame?_eq_none_iff.mp sendable)
  obtain ⟨m, written, whole⟩ := frame?_eq_some_iff.mp framed
  obtain ⟨r, sent⟩ := run_transmit_of_unlimited whole unlimited
  rw [run_perform_of_message_ok written, sent, andThen_ok]
  exact takes_answer fits asks _ rest starts

/-- Whether carrying out the call takes a frame of the input. -/
def reads (codec : Codec) (c : Call) : Bool := c.asks && (c.frame? codec).isSome

theorem reads_eq_true_iff : c.reads codec = true ↔ c.asks = true ∧ ¬c.Unsendable codec := by
  rw [reads, Bool.and_eq_true, ← frame?_eq_none_iff, Option.isSome_iff_ne_none]

theorem incoming_perform_of_not_reads (idle : ¬c.reads codec) (link : Link) :
    ((c.perform codec).run link).2.incoming = link.incoming := by
  rw [reads_eq_true_iff] at idle
  cases asks : c.asks with
  | false => exact keeps_perform asks link
  | true =>
    have unsendable : c.Unsendable codec := by_contra fun sendable => idle ⟨asks, sendable⟩
    obtain ⟨e, notes, eq⟩ := run_perform_of_frame?_eq_none (frame?_eq_none_iff.mpr unsendable) link
    rw [eq]

theorem room_perform (codec : Codec) (c : Call) {link : Link} (unlimited : link.room = none) :
    ((c.perform codec).run link).2.room = none := by
  obtain ⟨notes, -, gains⟩ := c.gains_perform codec link
  exact (gains.output unlimited).1

end Call

namespace Session

variable {codec : Codec}

/-- Each call that reads takes one frame, and the next one finds the input at the next frame. -/
theorem incoming_run_calls {calls : List Call} {frames : List Bytes} {tail : Bytes} {link : Link}
    (fits : ∀ data ∈ frames, Frame.Fits data.length) (unlimited : link.room = none)
    (count : calls.countP (Call.reads codec) = frames.length)
    (starts : link.incoming = frames.flatMap Frame.wrap ++ tail) :
    (run codec (calls.map fun c => .step (.call c)) link).2.incoming = tail := by
  induction calls generalizing frames link with
  | nil =>
    obtain rfl := List.eq_nil_of_length_eq_zero count.symm
    exact starts
  | cons c calls ih =>
    have still := c.room_perform codec unlimited
    by_cases reads : c.reads codec
    · rw [List.countP_cons_of_pos reads] at count
      cases frames with
      | nil => cases count
      | cons data frames =>
        obtain ⟨first, later⟩ := List.forall_mem_cons.mp fits
        obtain ⟨asks, sendable⟩ := Call.reads_eq_true_iff.mp reads
        rw [List.flatMap_cons, List.append_assoc] at starts
        obtain ⟨next, ran, left⟩ :=
          Call.run_perform_of_wrap asks sendable first unlimited starts
        rw [ran] at still
        show (run codec _ ((c.perform codec).run link).2).2.incoming = tail
        rw [ran]
        exact ih later still (Nat.succ.inj count) left
    · rw [List.countP_cons_of_neg reads] at count
      exact ih fits still count ((Call.incoming_perform_of_not_reads reads link).trans starts)

/-- A call that only tells reads nothing, nor does one that fails before it is sent. Every other
call takes the next frame, whatever is in it and behind it; what it ends in depends on the frame
alone, and is an answer just when the frame carries it. So calls in a row take one frame for each
that reads. -/
theorem calls_in_step (codec : Codec) :
    (∀ (c : Call) (link : Link), c.asks = false →
      ((c.perform codec).run link).2.incoming = link.incoming) ∧
    (∀ (c : Call) (link : Link), c.Unsendable codec →
      ∃ e next, (c.perform codec).run link = (.error e, next) ∧ next.sent = link.sent ∧
        next.incoming = link.incoming) ∧
    (∀ (c : Call) (data : Bytes), c.asks = true → ¬c.Unsendable codec →
      Frame.Fits data.length → ∃ outcome,
        (∀ (link : Link) (rest : Bytes), link.room = none →
          link.incoming = Frame.wrap data ++ rest →
            ∃ next, (c.perform codec).run link = (outcome, next) ∧ next.incoming = rest) ∧
        ∀ answer, outcome = .ok answer ↔ c.Carries codec data answer) ∧
    ∀ (calls : List Call) (frames : List Bytes) (tail : Bytes) (link : Link),
      (∀ data ∈ frames, Frame.Fits data.length) → link.room = none →
      calls.countP (Call.reads codec) = frames.length →
      link.incoming = frames.flatMap Frame.wrap ++ tail →
        (run codec (calls.map fun c => .step (.call c)) link).2.incoming = tail := by
  refine ⟨fun c link tells => Call.keeps_perform tells link, ?_, ?_, ?_⟩
  · intro c link unsendable
    obtain ⟨e, notes, eq⟩ :=
      Call.run_perform_of_frame?_eq_none (Call.frame?_eq_none_iff.mpr unsendable) link
    exact ⟨e, _, eq, rfl, rfl⟩
  · intro c data asks sendable fits
    exact ⟨c.reply codec data, fun link rest => Call.run_perform_of_wrap asks sendable fits,
      Call.reply_eq_ok_iff asks⟩
  · exact fun calls frames tail link => incoming_run_calls

/-- A balance is read from the frame that holds one, and the frame that holds no message is taken
for nothing. The event has a value that the standard registry cannot write. -/
theorem calls_in_step_balance :
    let codec : Codec := Registry.standard
    let query : Call := .getBalance ⟨false, List.replicate 20 7, rfl⟩
    let event : Call := .sendEvent [.custom 200 [1]] []
    let calls : List Call := [query, event, .setValue [1] none, .getInfo]
    let balance : Bytes := [8, 11, 0, 0, 0, 0, 0, 0, 0, 11, 2, 0, 0, 0, 0, 0, 0, 0, 1, 44]
    (∃ next, (query.perform codec).run { incoming := Frame.wrap balance ++ [2, 0] } =
        (.ok 300, next) ∧ next.incoming = [2, 0]) ∧
      (∃ e next, (query.perform codec).run { incoming := Frame.wrap [255] ++ [2, 0] } =
        (.error e, next) ∧ next.incoming = [2, 0]) ∧
      (∃ e next, (event.perform codec).run { incoming := [2, 0] } = (.error e, next) ∧
        next.incoming = [2, 0]) ∧
      (run codec (calls.map fun c => .step (.call c))
        { incoming := [[255], balance].flatMap Frame.wrap ++ [2, 0] }).2.incoming = [2, 0] := by
  intro codec query event calls balance
  obtain ⟨-, unsent, answered, inStep⟩ := calls_in_step codec
  have framed : query.frame? codec ≠ none := by decide +kernel
  have sendable : ¬query.Unsendable codec := mt Call.frame?_eq_none_iff.mpr framed
  have custom : Value.custom 200 [1] ∈ event.values := .head _
  have unsendable : event.Unsendable codec := .inl ⟨_, custom, _, rfl⟩
  refine ⟨?_, ?_, ?_, ?_⟩
  · obtain ⟨outcome, taken, succeeds⟩ := answered query balance rfl sendable (by decide)
    have decoded : codec.decode ⟨11, [1, 44]⟩ = .ok (.integer 300) := by decide +kernel
    have bears : Message.Bears .getBalance Body.GetBalanceResponse.format balance ⟨⟨11, [1, 44]⟩⟩ :=
      ⟨⟨.getBalance, balance.drop 9⟩, rfl, rfl, rfl⟩
    obtain rfl := (succeeds 300).mpr ⟨_, bears, decoded⟩
    exact taken { incoming := Frame.wrap balance ++ [2, 0] } [2, 0] rfl rfl
  · obtain ⟨outcome, taken, succeeds⟩ := answered query [255] rfl sendable (by decide)
    obtain ⟨next, ran, left⟩ := taken { incoming := Frame.wrap [255] ++ [2, 0] } [2, 0] rfl rfl
    cases outcome with
    | error e => exact ⟨e, next, ran, left⟩
    | ok answer =>
      obtain ⟨typed, ⟨m, read, -⟩, -⟩ := (succeeds answer).mp rfl
      have unread : Message.format.decodeAll [255] = .error .invalidValue := rfl
      rw [unread] at read
      cases read
  · obtain ⟨e, next, ran, -, left⟩ := unsent event { incoming := [2, 0] } unsendable
    exact ⟨e, next, ran, left⟩
  · have count : calls.countP (Call.reads codec) = 2 := by decide +kernel
    exact inStep calls [[255], balance] [2, 0] _ (by decide) rfl count rfl

end Session

end ContractLink
