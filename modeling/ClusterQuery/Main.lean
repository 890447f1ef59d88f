import ClusterQuery.Program

/-!
# The executable

The host is the machine itself. Everything else that happens is `Program.run`.
-/

namespace ClusterQuery.Main

/-- The reason of a failure in the words of the operating system. -/
def reason : IO.Error → String
  | .noFileOrDirectory .. => "No such file or directory (os error 2)"
  | .permissionDenied .. => "Permission denied (os error 13)"
  | .inappropriateType _ 20 _ => "Not a directory (os error 20)"
  | .inappropriateType _ 21 _ => "Is a directory (os error 21)"
  | .invalidArgument _ 36 _ => "File name too long (os error 36)"
  | e => toString e

partial def readAll (stream : IO.FS.Stream) (done : ByteArray) : IO ByteArray := do
  let bytes ← stream.read 65536
  if bytes.isEmpty then return done else readAll stream (done ++ bytes)

def readInput : IO (Except FileError ByteArray) := do
  try
    return .ok (← readAll (← IO.getStdin) ByteArray.empty)
  catch e => return .error (.cannotRead (reason e))

def readHandle (handle : IO.FS.Handle) : IO (Except FileError ByteArray) := do
  try
    return .ok (← handle.readBinToEnd)
  catch e => return .error (.cannotRead (reason e))

def readFile (path : String) : IO (Except FileError ByteArray) := do
  try
    readHandle (← IO.FS.Handle.mk path .read)
  catch e => return .error (.cannotOpen (reason e))

/-- The configuration directory of the user, when it is known. -/
def configDirectory : IO (Option String) := do
  match ← IO.getEnv "XDG_CONFIG_HOME" with
  | some directory =>
    if directory.startsWith "/" then return some directory else fromHome
  | none => fromHome
where
  fromHome : IO (Option String) := do
    return (← IO.getEnv "HOME").map (· ++ "/.config")

def defaultConfig : IO (Option String) := do
  match ← configDirectory with
  | none => return none
  | some directory =>
    let path := directory ++ "/pvq/config.toml"
    try
      let found ← IO.FS.realPath path
      return if ← found.pathExists then some path else none
    catch _ => return none

def host : Host IO where
  configVariable := IO.getEnv "PVQ_CONFIG"
  defaultConfig := defaultConfig
  read
    | .input => readInput
    | .file path => readFile path
  refusedRecords k _ := "not a list of records of the kind " ++ k.name
  refusedConfig _ := "not a configuration"

end ClusterQuery.Main

open ClusterQuery in
def main (args : List String) : IO UInt32 := do
  let outcome ← Program.run Main.host args
  IO.print outcome.stdout
  IO.eprint outcome.stderr
  return outcome.exit.toUInt32
