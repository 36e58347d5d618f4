import ContractLink.Bytes.Basic
/-!
Socket paths: what connecting to one leads to. The directories stand for the file system of a host.
A path is followed through them name by name, and only its last name may stand for something else
than a directory.
-/
namespace ContractLink

inductive ConnectFault where
  | notFound
  | notDirectory
  | invalidPath
  /-- Something other than a socket, or a socket that nobody listens on. -/
  | refused
  | pathTooLong
  deriving DecidableEq, Repr

namespace ConnectFault

def message : ConnectFault → String
  | notFound => "i/o: No such file or directory (os error 2)"
  | notDirectory => "i/o: Not a directory (os error 20)"
  | invalidPath => "i/o: Invalid argument (os error 22)"
  | refused => "i/o: Connection refused (os error 111)"
  | pathTooLong => "i/o: path must be shorter than SUN_LEN"

end ConnectFault

/-- What a name in a directory stands for. -/
inductive FileEntry where
  /-- A socket with a manager that listens on it, and what that manager sends. -/
  | socket (incoming : Bytes)
  | file
  | directory (entries : List (String × FileEntry))

abbrev Directory := List (String × FileEntry)

/-- A directory and the ones that it lies in, the nearest first. -/
structure Location where
  here : Directory
  above : List Directory := []

namespace Location

def enter (l : Location) (entries : Directory) : Location := ⟨entries, l.here :: l.above⟩

/-- The root is its own parent. -/
def parent : Location → Location
  | ⟨here, []⟩ => ⟨here, []⟩
  | ⟨_, up :: above⟩ => ⟨up, above⟩

/-- Connects to what the names lead to. An empty name, such as the one after a closing slash, stays
in the directory; what is no directory has no further names, not even an empty one. -/
def connect (l : Location) : List String → Except ConnectFault Bytes
  | [] => .error .refused
  | name :: rest =>
    if name = "" ∨ name = "." then l.connect rest
    else if name = ".." then l.parent.connect rest
    else
      match l.here.lookup name, rest with
      | none, _ => .error .notFound
      | some (.directory entries), _ => (l.enter entries).connect rest
      | some (.socket incoming), [] => .ok incoming
      | some .file, [] => .error .refused
      | some _, _ :: _ => .error .notDirectory

end Location

namespace SocketPath

/-- A path takes fewer bytes than this. -/
def sizeLimit : Nat := 108

/-- The directories that every host has, with those of their entries that every host has. -/
def root : Directory :=
  let file (name : String) : String × FileEntry := (name, .file)
  let bare (name : String) : String × FileEntry := (name, .directory [])
  let within (name : String) (entries : Directory) : String × FileEntry :=
    (name, .directory entries)
  [within "dev" (["full", "null", "random", "tty", "urandom", "zero"].map file),
    within "etc" (["group", "hostname", "hosts", "passwd", "resolv.conf"].map file),
    within "usr" (["bin", "include", "lib", "local", "sbin", "share"].map bare),
    within "var" (["cache", "lib", "log", "run", "spool", "tmp"].map bare)] ++
  ["bin", "boot", "home", "lib", "media", "mnt", "opt", "proc", "root", "run", "sbin", "srv", "sys",
    "tmp"].map bare

/-- What is wrong with a path, whatever the host has there. -/
def fault? (path : String) : Option ConnectFault :=
  if path = "" then some .invalidPath
  else if sizeLimit ≤ path.utf8ByteSize then some .pathTooLong
  else none

/-- The names in a path, which stand between its slashes. -/
def names (path : String) : List String := (path.toList.splitOn '/').map String.ofList

/-- Connects to a path. A path that does not start at the root starts at the working directory,
which lies in the directory for temporary files. -/
def connect (workingDirectory : Directory) (path : String) : Except ConnectFault Bytes :=
  match fault? path with
  | some fault => .error fault
  | none =>
    let start : Location :=
      if path.startsWith "/" then ⟨root, []⟩ else ⟨workingDirectory, [[], root]⟩
    start.connect (names path)

end SocketPath

end ContractLink
