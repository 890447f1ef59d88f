import ClusterQuery.Listing

/-!
# The program

The program asks its host for files, its input and the places of configuration files, and
gives an outcome: what it prints, the complaint about what went wrong, and the exit status.
The configuration is loaded before a command does anything. A file is opened only when all
that comes before it has gone well.
-/

namespace ClusterQuery

/-- A file may not open, or open and then not be readable. -/
inductive FileError
  | cannotOpen (reason : String)
  | cannotRead (reason : String)
  deriving DecidableEq, Repr

def FileError.reason : FileError → String
  | cannotOpen reason => reason
  | cannotRead reason => reason

/-- What the program asks of the world around it, and the words of the libraries it is built on. -/
structure Host (m : Type → Type) where
  /-- The value of the variable `PVQ_CONFIG`. -/
  configVariable : m (Option String)
  /-- The path of the default configuration file, if there is one. -/
  defaultConfig : m (Option String)
  read : Source → m (Except FileError ByteArray)
  /-- How the reader of JSON refuses bytes that are no list of records of a kind. -/
  refusedRecords : Kind → ByteArray → String
  /-- How the reader of TOML refuses a text that is no configuration. -/
  refusedConfig : String → String

/-- How a run ends before it is printed. -/
inductive Ending
  | usage
  | version
  | done (result : Except RunError String)

structure Outcome where
  exit : Nat
  stdout : String
  stderr : String
  deriving DecidableEq, Repr

def versionText : String := "pvq 0.1.0\n"

def usageText : String :=
  "usage: pvq [--config FILE] (vm | ct | disk | volume) [-f FILE] [-l SELECTOR]... [-o FORMAT]\n" ++
  "       pvq [--config FILE] fields (vm | ct | disk | volume)\n" ++
  "       pvq [--config FILE] check [-l SELECTOR]...\n" ++
  "       pvq --version\n"

def Ending.outcome : Ending → Outcome
  | usage => ⟨2, "", usageText⟩
  | version => ⟨0, versionText, ""⟩
  | done (.ok text) => ⟨0, text, ""⟩
  | done (.error e) => ⟨1, "", "Error: " ++ e.message ++ "\n"⟩

namespace Program

variable {m : Type → Type} [Monad m] (h : Host m)

/-- The file asked for goes before that of the variable, and both go before the default. -/
def configFile (asked : Option String) : m (Option ConfigFile) := do
  match asked with
  | some path => return some ⟨path, false⟩
  | none =>
    match ← h.configVariable with
    | some path => return some ⟨path, false⟩
    | none => return (← h.defaultConfig).map (⟨·, true⟩)

/-- The configuration in a file, given what came of reading it and how a text is refused. -/
def readConfig (file : ConfigFile) (contents : Except FileError ByteArray)
    (refused : String → String := fun _ => "") : Except RunError Config :=
  match contents with
  | .error e => .error (.file e.reason)
  | .ok bytes =>
    match String.fromUTF8? bytes with
    | none => .error (.file "stream did not contain valid UTF-8")
    | some text =>
      match Config.ofText? text with
      | none => .error (.badConfig ⟨file, refused text⟩)
      | some c => .ok c

def loadConfig (asked : Option String) : m (Except RunError Config) := do
  match ← configFile h asked with
  | none => return .ok {}
  | some file => return readConfig file (← h.read (.file file.path)) h.refusedConfig

/-- What a listing prints, given what came of reading its source. -/
def printFrom (k : Kind) (source : Source) (format : Format) (s : Selector) :
    Except FileError ByteArray → Except RunError String
  | .error (.cannotOpen reason) => .error (.file reason)
  | .error (.cannotRead reason) => .error (.unreadableRecords ⟨source.name, reason⟩)
  | .ok bytes =>
    Listing.print k source (h.refusedRecords k bytes) format s (Symbol.ofBytes bytes)

def list (c : Config) (k : Kind) (o : ListRequest) : m (Except RunError String) := do
  match Listing.plan c k o with
  | .error e => return .error e
  | .ok (format, s) => return printFrom h k o.source format s (← h.read o.source)

def perform (c : Config) : Command → m (Except RunError String)
  | .list k o => list h c k o
  | .fields k => return .ok (fieldsText k)
  | .check texts => return checkText texts

def invoke (i : Invocation) : m (Except RunError String) := do
  match ← loadConfig h i.config with
  | .error e => return .error e
  | .ok c => perform h c i.command

def ending (args : List String) : m Ending := do
  match CommandLine.parse? args with
  | none => return .usage
  | some .version => return .version
  | some (.invoke i) => return .done (← invoke h i)

def run (args : List String) : m Outcome := do
  return (← ending h args).outcome

end Program

end ClusterQuery
