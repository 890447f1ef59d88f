import ClusterQuery.CommandLine.Item
import ClusterQuery.Record.Kind

/-!
# Requests

Arguments are read from left to right. Before the command stand only the configuration file
and the question for the version, which is answered as soon as it is read. The command takes
the flags that belong to it, and those with one value only once.
-/

namespace ClusterQuery

structure ListRequest where
  file : Option String := none
  selectors : List String := []
  output : Option String := none
  deriving DecidableEq, Repr

inductive Command
  | list (k : Kind) (options : ListRequest)
  | fields (k : Kind)
  | check (selectors : List String)
  deriving DecidableEq, Repr

/-- A command, with the configuration file that is asked for. -/
structure Invocation where
  config : Option String
  command : Command
  deriving DecidableEq, Repr

inductive Request
  | version
  | invoke (i : Invocation)
  deriving DecidableEq, Repr

namespace CommandLine

inductive Verb
  | list (k : Kind)
  | fields
  | check
  deriving DecidableEq, Repr

def verb? (word : String) : Option Verb :=
  if word = "vm" ∨ word = "vms" then some (.list .virtualMachine)
  else if word = "ct" ∨ word = "cts" ∨ word = "container" then some (.list .container)
  else if word = "disk" ∨ word = "disks" then some (.list .disk)
  else if word = "volume" ∨ word = "volumes" ∨ word = "vol" then some (.list .volume)
  else if word = "fields" then some .fields
  else if word = "check" then some .check
  else none

def kind? (word : String) : Option Kind :=
  Kind.all.find? (·.word == word)

def Verb.flags : Verb → List Flag
  | list _ => [.config, .file, .selector, .output]
  | fields => [.config]
  | check => [.config, .selector]

def command? (verb : Verb) (items : List Item) : Option Command :=
  match verb, words items with
  | .list k, [] => do
    let file ← atMostOnce .file items
    let output ← atMostOnce .output items
    return .list k ⟨file, valuesOf .selector items, output⟩
  | .fields, [word] => (kind? word).map .fields
  | .check, [] => some (.check (valuesOf .selector items))
  | _, _ => none

/-- Reads what follows the word of a command. A configuration file that is named here goes
before one named earlier. -/
def invocation? (config : Option String) (verb : Verb) (args : List String) :
    Option Invocation := do
  let items ← items? verb.flags args
  let own ← atMostOnce .config items
  let command ← command? verb items
  return ⟨own <|> config, command⟩

/-- Asks for the version; what is attached to the short form does not matter. -/
def asksVersion (arg : String) : Bool :=
  arg == "--version" || arg.toList.take 2 == ['-', 'V']

/-- Reads arguments after those that named a configuration file. -/
def requestAfter? (config : Option String) : List String → Option Request
  | [] => none
  | arg :: args =>
    if asksVersion arg then some .version
    else if isOption arg then
      match flag? [.config] arg.toList with
      | none => none
      | some (flag, some value) =>
        if flag.accepts value && config.isNone then requestAfter? (some value) args else none
      | some (flag, none) =>
        match args with
        | [] => none
        | value :: args =>
          if flag.accepts value && !isOption value && config.isNone then
            requestAfter? (some value) args
          else none
    else do
      let verb ← verb? arg
      let invocation ← invocation? config verb args
      return .invoke invocation

/-- What the arguments ask for; `none` when they are not understood. -/
def parse? (args : List String) : Option Request :=
  requestAfter? none args

end CommandLine

end ClusterQuery
