import ContractLink.CommandLine.Socket
import ContractLink.Contract.Probe
import ContractLink.Link.Serve
/-!
The command line: connects to a manager's socket, announces the engine and serves the probe until
the manager disconnects. A run is a function of the arguments and of what the host gives it.
-/
namespace ContractLink

namespace CommandLine

inductive Command where
  | help
  | refuse (argument : String)
  | connect (socket : String)
  deriving DecidableEq, Repr

def defaultSocket : String := "/tmp/ee.socket"

/-- A request for help in the first place wins over all that follows. -/
def Command.ofArguments : List String → Command
  | [] => connect defaultSocket
  | first :: rest =>
    if first = "-h" ∨ first = "--help" then help
    else
      match rest with
      | [] => connect first
      | extra :: _ => refuse extra

/-- How the program is called, under the name it was started by. -/
def usage (program : String) : String := "Scripted Execution Engine

USAGE:
    " ++ program ++ " [socket_path]

ARGS:
    <socket_path>    Service manager Unix socket (default: " ++ defaultSocket ++ ")

OPTIONS:
    -h, --help       Print this help message

ENVIRONMENT:
    EE_LOG           Minimum log level: debug, info, warn or error (default: info)

"

/-- What the program is started with. -/
structure Host where
  /-- The name that the program was started by. -/
  program? : Option String := none
  /-- The setting of the least log level shown. -/
  logSetting? : Option String
  processId : UInt32
  /-- What the manager at a socket path sends, if it can be connected to. -/
  connect : String → Except ConnectFault Bytes

structure Report where
  exitCode : UInt8
  errorText : String
  /-- What the manager received, if it was connected to. -/
  sent? : Option Bytes := none

/-- How the engine announces itself. -/
def identity (processId : UInt32) : Body.Version :=
  { version := 1, pid := processId, engineType := "rust" }

def register (processId : UInt32) : Exchange Unit := do
  let identity := identity processId
  (Call.announce identity).perform Registry.standard
  Exchange.log .info (s!"registered as {identity.engineType} engine " ++
    s!"(version {identity.version}, pid {identity.pid})")

/-- Announces the engine, then serves the probe. -/
def engage (processId : UInt32) : Exchange Unit := do
  register processId
  Probe.contract.serve Registry.standard

def run (host : Host) (arguments : List String) : Report :=
  let report (exitCode : UInt8) (records : List Log.Record) (sent? : Option Bytes) : Report :=
    ⟨exitCode, Log.render (Log.Level.ofSetting host.logSetting?) records, sent?⟩
  let usage := usage (host.program?.getD "eetest")
  match Command.ofArguments arguments with
  | .help => { exitCode := 0, errorText := usage }
  | .refuse argument =>
    { exitCode := 1, errorText := s!"Unexpected argument: {argument}\n\n" ++ usage }
  | .connect socket =>
    let start : Log.Record := ⟨.info, s!"connect({socket})"⟩
    match host.connect socket with
    | .error fault => report 1 [start, ⟨.error, fault.message⟩] none
    | .ok incoming =>
      match (engage host.processId).run { incoming, journal := [.logged start] } with
      | (.ok (), link) =>
        report 0 (link.records ++ [⟨.info, "service manager disconnected, exiting"⟩])
          (some link.sent)
      | (.error e, link) =>
        report 1 (link.records ++ [⟨.error, e.message⟩]) (some link.sent)

end CommandLine

end ContractLink
