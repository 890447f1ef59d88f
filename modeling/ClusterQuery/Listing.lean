import ClusterQuery.CommandLine.Request
import ClusterQuery.Config
import ClusterQuery.Filter
import ClusterQuery.Render

/-!
# Listings

A listing is planned before its records are read: the output format is settled, the selectors
of the configuration and those of the command line are read and joined, and their fields are
checked against the kind. Then the records are read, filtered and rendered. The first of
these stages that fails is the error of the listing, and nothing is printed.
-/

namespace ClusterQuery

/-- Where records come from. -/
inductive Source
  | input
  | file (path : String)
  deriving DecidableEq, Repr

def Source.name : Source → String
  | input => "stdin"
  | file path => path

def ListRequest.source (o : ListRequest) : Source :=
  o.file.elim .input .file

/-- A configuration file, which may be the one that is looked for by default. -/
structure ConfigFile where
  path : String
  isDefault : Bool := false
  deriving DecidableEq, Repr

/-- Records that were refused, with the name of their source and the words of their reader. -/
structure UnreadableRecords where
  name : String
  words : String
  deriving DecidableEq, Repr

/-- A configuration file that was refused, with the words of its reader. -/
structure BadConfig extends ConfigFile where
  words : String
  deriving DecidableEq, Repr

inductive RunError
  | selector (e : SelectorError)
  | unknownFormat (name : String)
  | file (reason : String)
  | unreadableRecords (e : UnreadableRecords)
  | badConfig (e : BadConfig)
  deriving DecidableEq, Repr

namespace RunError

def message : RunError → String
  | selector e => e.message
  | unknownFormat name => Format.unknownMessage name
  | file reason => "IO error: " ++ reason
  | unreadableRecords e => "Failed to read records from " ++ e.name ++ ": " ++ e.words
  | badConfig e => "Configuration error in " ++ e.path ++ ": " ++ e.words

end RunError

namespace Listing

variable (c : Config) (k : Kind) (o : ListRequest)

def format : Except RunError Format :=
  let name := o.output.getD c.output
  match Format.ofName? name with
  | some format => .ok format
  | none => .error (.unknownFormat name)

/-- The selectors of the configuration come before those of the command line. -/
def selector : Except RunError Selector := do
  let standing ← (c.standingSelector k).mapError .selector
  let own ← (Selector.ofTexts o.selectors).mapError .selector
  return standing ++ own

/-- The format and the selector, whose fields the kind has. -/
def plan : Except RunError (Format × Selector) := do
  let format ← format c o
  let selector ← selector c k o
  (selector.checkFields k).mapError .selector
  return (format, selector)

/-- Reads, filters and renders the records of a source, whose reader would refuse them in these
words. -/
def print (source : Source) (words : String) (format : Format) (s : Selector)
    (symbols : List Symbol) : Except RunError String :=
  match k.decode? symbols with
  | none => .error (.unreadableRecords ⟨source.name, words⟩)
  | some rs => do
    let selected ← (s.filter k rs).mapError .selector
    return render k format selected

end Listing

def fieldsText (k : Kind) : String :=
  unlines (("# " ++ k.name) :: k.fieldNames)

/-- The conditions of some selectors in canonical form. -/
def checkText (texts : List String) : Except RunError String := do
  let s ← (Selector.ofTexts texts).mapError .selector
  return if s.isEmpty then "(empty selector: matches everything)\n"
    else unlines (s.conditions.map Condition.text)

end ClusterQuery
