import ContractLink.Contract.Basic
/-!
The probe: a contract that makes one pass of every call whatever it is asked, and logs what it is
answered. It declares the same API at every code path.
-/
namespace ContractLink

namespace Probe

def eventSignature : String := "LogEvent(int,str,Address)"

def balanceAccountText : String := "cx1000000000000000000000000000000000000000"

def eventAddressText : String := "cx0004444444444444444444444444444444444444"

/-- Whose balance is asked for, as the text is read. -/
def balanceAccount : Address := ⟨true, 0x10 :: List.replicate 19 0x00, rfl⟩

/-- What the event carries as data, as the text is read. -/
def eventAddress : Address := ⟨true, 0x00 :: 0x04 :: List.replicate 18 0x44, rfl⟩

def outcome : Outcome := { status := Status.success, stepUsed := 10, result := .text "Test" }

/-- The request on one line. -/
def describe (request : Request) : String :=
  "invoke(code=" ++ Text.quoteText request.code ++
    s!", from={request.sender}, to={request.recipient}" ++
    s!", value={request.value}, limit={request.limit}" ++
    ", method=" ++ Text.quoteText request.method ++ ", params=" ++ request.params.inspect ++ ")"

/-- The first of a list of parameters; nil when there is none. -/
def firstParam (params : Value) : Value := Value.ofOption (params.asList?.bind List.head?)

/-- The indexed values of the event. -/
def indexed (request : Request) : List Value :=
  [.text eventSignature, .integer 1, firstParam request.params]

/-- The other values of the event. -/
def data : List Value := [.address eventAddress]

def inspectList (values : List Value) : String := Text.bracketed (values.map Value.inspect)

def hello : Bytes := Bytes.ofText "hello"
def world : Bytes := Bytes.ofText "world"
def foo : Bytes := Bytes.ofText "foo"

def invoke (request : Request) : Program Outcome :=
  .log .info (describe request) <|
  .step (.call .getInfo) fun info =>
  .log .info s!"get_info() -> {info.inspect}" <|
  .log .info "set_value(b\"hello\", b\"world\")" <|
  .step (.call (.setValue hello (some world))) fun _ =>
  .step (.call (.getValue hello)) fun value? =>
  .log .info ("get_value(b\"hello\") -> " ++ Text.inspectOption value?) <|
  .log .info "set_value(b\"foo\", None)" <|
  .step (.call (.setValue foo none)) fun _ =>
  .step (.call (.getValue foo)) fun value? =>
  .log .info ("get_value(b\"foo\") -> " ++ Text.inspectOption value?) <|
  .step (.call (.getBalance balanceAccount)) fun balance =>
  .log .info s!"get_balance({balanceAccount.inspect}) -> {balance}" <|
  .log .info s!"send_event({inspectList (indexed request)}, {inspectList data})" <|
  .step (.call (.sendEvent (indexed request) data)) fun _ =>
  .done outcome

def api : Except ApiError Api := do
  let api ← Api.addFunction {} "hello" 0 [("msg", .text)] [.text]
  api.addEvent "LogEvent" 0 2 [("id", .integer), ("msg", .text), ("addr", .address)]

def contract : Contract where
  invoke := invoke
  api _ := api

end Probe

end ContractLink
