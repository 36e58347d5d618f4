import ContractLink.Frame
import ContractLink.Wire.Format
/-!
Messages: a kind and a payload, which is the encoding of the body of that kind.
-/
namespace ContractLink

inductive MessageKind where
  | version
  | invoke
  | result
  | getValue
  | setValue
  /-- Reserved; never sent. -/
  | call
  | event
  | getInfo
  | getBalance
  | getApi
  deriving DecidableEq, Repr

namespace MessageKind

def all : List MessageKind :=
  [version, invoke, result, getValue, setValue, call, event, getInfo, getBalance, getApi]

def code : MessageKind → UInt8
  | version => 0
  | invoke => 1
  | result => 2
  | getValue => 3
  | setValue => 4
  | call => 5
  | event => 6
  | getInfo => 7
  | getBalance => 8
  | getApi => 9

def ofCode? (code : UInt8) : Option MessageKind := all.find? (·.code = code)

theorem ofCode?_code (k : MessageKind) : ofCode? k.code = some k := by cases k <;> rfl

def name : MessageKind → String
  | version => "Version"
  | invoke => "Invoke"
  | result => "Result"
  | getValue => "GetValue"
  | setValue => "SetValue"
  | call => "Call"
  | event => "Event"
  | getInfo => "GetInfo"
  | getBalance => "GetBalance"
  | getApi => "GetApi"

/-- The name by which a message is asked for. -/
def title (k : MessageKind) : String := k.name.map Char.toUpper

def format : Format MessageKind := Format.u8.refine ofCode? code

end MessageKind

structure Message where
  kind : MessageKind
  payload : Bytes
  deriving DecidableEq, Repr

namespace Message

def format : Format Message :=
  (MessageKind.format.pair .blob).via (fun (kind, payload) => ⟨kind, payload⟩)
    fun m => (m.kind, m.payload)

/-- The message that carries a body. -/
def ofBody {β : Type} (kind : MessageKind) (body : Format β) (value : β) : Message :=
  ⟨kind, body.encode value⟩

/-- The frame that the message is sent as, if it fits one. -/
def toFrame (m : Message) : Except Frame.Error Bytes := Frame.encode (format.encode m)

/-- The body, which is the whole payload. -/
def body {β : Type} (m : Message) (format : Format β) : Except DecodeError β :=
  format.decodeAll m.payload

end Message

end ContractLink
