/-!
# Options and words

After a command stand its options and words. An option is long or short, and its value is
attached to it or is the next argument; a value that is an argument of its own does not start
with a dash unless it is one dash alone. After two dashes every argument is a word.
-/

namespace ClusterQuery.CommandLine

inductive Flag
  | config
  | file
  | selector
  | output
  deriving DecidableEq, Repr

namespace Flag

def long : Flag → String
  | config => "config"
  | file => "file"
  | selector => "selector"
  | output => "output"

def short? : Flag → Option Char
  | config => none
  | file => some 'f'
  | selector => some 'l'
  | output => some 'o'

/-- A path may not be empty. -/
def accepts : Flag → String → Bool
  | config, value => value != ""
  | file, value => value != ""
  | selector, _ => true
  | output, _ => true

end Flag

/-- One option or word of a command. -/
inductive Item
  | flag (f : Flag) (value : String)
  | word (w : String)
  deriving DecidableEq, Repr

/-- The flag of an option, with the value that is attached to it. -/
def flag? (allowed : List Flag) (arg : List Char) : Option (Flag × Option String) :=
  match arg with
  | '-' :: '-' :: rest => do
    let name := rest.takeWhile (· ≠ '=')
    let flag ← allowed.find? (·.long.toList == name)
    match rest.dropWhile (· ≠ '=') with
    | [] => return (flag, none)
    | _ :: value => return (flag, some (String.ofList value))
  | '-' :: c :: rest => do
    let flag ← allowed.find? (·.short? == some c)
    match rest with
    | [] => return (flag, none)
    | '=' :: value => return (flag, some (String.ofList value))
    | value => return (flag, some (String.ofList value))
  | _ => none

/-- Whether an argument is an option and no word. -/
def isOption (arg : String) : Bool :=
  arg.toList.head? == some '-' && arg != "-"

/-- Reads the options and words of a command that takes these flags. -/
def items? (allowed : List Flag) : List String → Option (List Item)
  | [] => some []
  | arg :: args =>
    if arg = "--" then some (args.map .word)
    else if isOption arg then
      match flag? allowed arg.toList with
      | none => none
      | some (flag, some value) =>
        if flag.accepts value then (items? allowed args).map (.flag flag value :: ·) else none
      | some (flag, none) =>
        match args with
        | [] => none
        | value :: args =>
          if flag.accepts value && !isOption value then
            (items? allowed args).map (.flag flag value :: ·)
          else none
    else (items? allowed args).map (.word arg :: ·)

def valuesOf (flag : Flag) (items : List Item) : List String :=
  items.filterMap fun
    | .flag f value => if f = flag then some value else none
    | .word _ => none

def words (items : List Item) : List String :=
  items.filterMap fun
    | .flag _ _ => none
    | .word w => some w

/-- The value of a flag that may stand once. -/
def atMostOnce (flag : Flag) (items : List Item) : Option (Option String) :=
  match valuesOf flag items with
  | [] => some none
  | [value] => some (some value)
  | _ => none

end ClusterQuery.CommandLine
