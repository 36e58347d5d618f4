import ContractLink.CommandLine.Basic
/-!
The program. The manager's side of the connection is read whole from the socket path before the
engine answers, and what the engine sends goes to the standard output.
-/
namespace ContractLink

namespace CommandLine

/-- What is at a path, as the outcome of connecting to it. -/
def openPath (path : String) : IO (Except ConnectFault Bytes) := do
  match SocketPath.fault? path with
  | some fault => return .error fault
  | none =>
    try
      return .ok (← IO.FS.readBinFile path).data.toList
    catch
      | .noFileOrDirectory .. => return .error .notFound
      | .inappropriateType .. => return .error .notDirectory
      | _ => return .error .refused

/-- The number of this process, which the system keeps in a file. -/
def readProcessId : IO UInt32 := do
  try
    let status ← IO.FS.readFile "/proc/self/stat"
    return ((status.splitOn " ").head?.bind String.toNat?).elim 0 UInt32.ofNat
  catch _ => return 0

end CommandLine

end ContractLink

open ContractLink CommandLine

def main (arguments : List String) : IO UInt32 := do
  let found ← match Command.ofArguments arguments with
    | .connect socket => openPath socket
    | _ => pure (.error .notFound)
  let host : Host := {
    program? := some (← IO.appPath).toString
    logSetting? := ← IO.getEnv "EE_LOG"
    processId := ← readProcessId
    connect := fun _ => found }
  let report := run host arguments
  if let some sent := report.sent? then
    let output ← IO.getStdout
    output.write ⟨sent.toArray⟩
    output.flush
  IO.eprint report.errorText
  return report.exitCode.toUInt32
