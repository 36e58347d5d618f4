import ContractLink.Message.Basic
import ContractLink.Value.Typed
/-!
The bodies of messages.
-/
namespace ContractLink

namespace Body

/-- The engine announces itself. -/
structure Version where
  version : UInt16
  pid : UInt32
  engineType : String
  deriving DecidableEq, Repr

def Version.format : Format Version :=
  (Format.u16.pair (Format.u32.pair .text)).via
    (fun (version, pid, engineType) => ⟨version, pid, engineType⟩)
    fun b => (b.version, b.pid, b.engineType)

/-- The manager asks for a run of a contract's method. -/
structure Invoke where
  /-- Where the contract's code is. -/
  code : String
  sender : TypedBytes
  recipient : TypedBytes
  value : TypedBytes
  limit : TypedBytes
  method : String
  params : TypedBytes
  deriving DecidableEq, Repr

def Invoke.format : Format Invoke :=
  (Format.text.pair (TypedBytes.format.pair (TypedBytes.format.pair (TypedBytes.format.pair
    (TypedBytes.format.pair (Format.text.pair TypedBytes.format)))))).via
    (fun (code, sender, recipient, value, limit, method, params) =>
      ⟨code, sender, recipient, value, limit, method, params⟩)
    fun b => (b.code, b.sender, b.recipient, b.value, b.limit, b.method, b.params)

/-- The engine reports the outcome of a run. -/
structure Result where
  status : UInt32
  stepUsed : TypedBytes
  result : TypedBytes
  deriving DecidableEq, Repr

def Result.format : Format Result :=
  (Format.u32.pair (TypedBytes.format.pair TypedBytes.format)).via
    (fun (status, stepUsed, result) => ⟨status, stepUsed, result⟩)
    fun b => (b.status, b.stepUsed, b.result)

structure GetValueRequest where
  key : Bytes
  deriving DecidableEq, Repr

def GetValueRequest.format : Format GetValueRequest := Format.blob.via (⟨·⟩) (·.key)

/-- No value when the key is absent. -/
structure GetValueResponse where
  value? : Option Bytes
  deriving DecidableEq, Repr

def GetValueResponse.format : Format GetValueResponse := Format.blob.option.via (⟨·⟩) (·.value?)

/-- No value deletes the key. -/
structure SetValue where
  key : Bytes
  value? : Option Bytes
  deriving DecidableEq, Repr

def SetValue.format : Format SetValue :=
  (Format.blob.pair Format.blob.option).via (fun (key, value?) => ⟨key, value?⟩)
    fun b => (b.key, b.value?)

structure Event where
  indexed : List TypedBytes
  data : List TypedBytes
  deriving DecidableEq, Repr

def Event.format : Format Event :=
  (TypedBytes.format.list.pair TypedBytes.format.list).via (fun (indexed, data) => ⟨indexed, data⟩)
    fun b => (b.indexed, b.data)

structure GetInfoResponse where
  info : TypedBytes
  deriving DecidableEq, Repr

def GetInfoResponse.format : Format GetInfoResponse := TypedBytes.format.via (⟨·⟩) (·.info)

structure GetBalanceRequest where
  address : TypedBytes
  deriving DecidableEq, Repr

def GetBalanceRequest.format : Format GetBalanceRequest :=
  TypedBytes.format.via (⟨·⟩) (·.address)

structure GetBalanceResponse where
  balance : TypedBytes
  deriving DecidableEq, Repr

def GetBalanceResponse.format : Format GetBalanceResponse :=
  TypedBytes.format.via (⟨·⟩) (·.balance)

structure GetApiRequest where
  code : String
  deriving DecidableEq, Repr

def GetApiRequest.format : Format GetApiRequest := Format.text.via (⟨·⟩) (·.code)

/-- The encoded API, when the status says that there is one. -/
structure GetApiResponse where
  status : UInt32
  info? : Option Bytes
  deriving DecidableEq, Repr

def GetApiResponse.format : Format GetApiResponse :=
  (Format.u32.pair Format.blob.option).via (fun (status, info?) => ⟨status, info?⟩)
    fun b => (b.status, b.info?)

end Body

end ContractLink
