import ClusterQuery.Json.Value
import ClusterQuery.Json.Printer
import ClusterQuery.Record.Kind

/-!
# Members of records

In JSON a record is an object, or a list of the values of its leading members. Each kind has
a table of its members in that order. A member has a codec, which is how a value of its type
is read and written, and the two ways in which the attribute goes out of a record and into
one. The first member of every kind is required; of the others, one that is missing or null
is absent, and a flag is then false.
-/

namespace ClusterQuery

open Json (Scalar)

/-- How the values of a type stand in JSON. -/
inductive Codec : Type → Type
  | word32 : Codec UInt32
  | text : Codec String
  | optionalWord32 : Codec (Option UInt32)
  | optionalWord64 : Codec (Option UInt64)
  | optionalText : Codec (Option String)
  | flag : Codec Bool

/-- Reads a whole number below a bound as what is made of it. -/
def word? {α : Type} (size : Nat) (make : (n : Nat) → n < size → α) : Json → Option α
  | .number (.integer (.ofNat n)) => if h : n < size then some (make n h) else none
  | _ => none

def word32? : Json → Option UInt32 :=
  word? UInt32.size UInt32.ofNatLT

def word64? : Json → Option UInt64 :=
  word? UInt64.size UInt64.ofNatLT

def text? : Json → Option String
  | .string (some s) => some s
  | _ => none

/-- A flag is a boolean, an integer of 64 bits with sign, or a text. -/
def flag? : Json → Option Bool
  | .bool b => some b
  | .number (.integer n) =>
    if fitsInt64 n then some (n ≠ 0) else none
  | .string (some s) => some (s = "1" ∨ s = "yes" ∨ s = "true")
  | _ => none

/-- Reads a value that may be missing or null. -/
def optional {α : Type} (read : Json → Option α) : Option Json → Option (Option α)
  | none => some none
  | some .null => some none
  | some v => (read v).map some

namespace Codec

/-- Reads the value of a member, which is `none` when the member is missing. -/
def read {β : Type} : Codec β → Option Json → Option β
  | word32, v => v.bind word32?
  | text, v => v.bind text?
  | optionalWord32, v => optional word32? v
  | optionalWord64, v => optional word64? v
  | optionalText, v => optional text? v
  | flag, v => (optional flag? v).map (·.getD false)

/-- The value as it is written; an absent value is not written. -/
def write {β : Type} : Codec β → β → Option Scalar
  | word32, n => some (.number n.toNat)
  | text, s => some (.text s)
  | optionalWord32, n => n.map (.number ·.toNat)
  | optionalWord64, n => n.map (.number ·.toNat)
  | optionalText, s => s.map .text
  | flag, b => some (.bool b)

end Codec

structure Member (α : Type) where
  {β : Type}
  key : String
  codec : Codec β
  get : α → β
  set : β → α → α

namespace Member

variable {α : Type}

/-- Sets the member of a record to the value found under its key. -/
def read (m : Member α) (find : String → Option Json) (r : α) : Option α :=
  (m.codec.read (find m.key)).map (m.set · r)

def write (m : Member α) (r : α) : Option (String × Scalar) :=
  (m.codec.write (m.get r)).map (m.key, ·)

end Member

def VirtualMachine.members : List (Member VirtualMachine) :=
  [⟨"vmid", .word32, vmid, fun v r => { r with vmid := v }⟩,
    ⟨"name", .optionalText, name, fun v r => { r with name := v }⟩,
    ⟨"status", .optionalText, status, fun v r => { r with status := v }⟩,
    ⟨"node", .optionalText, node, fun v r => { r with node := v }⟩,
    ⟨"pool", .optionalText, pool, fun v r => { r with pool := v }⟩,
    ⟨"tags", .optionalText, tags, fun v r => { r with tags := v }⟩,
    ⟨"template", .flag, template, fun v r => { r with template := v }⟩]

def Container.members : List (Member Container) :=
  [⟨"vmid", .word32, vmid, fun v r => { r with vmid := v }⟩,
    ⟨"name", .optionalText, name, fun v r => { r with name := v }⟩,
    ⟨"status", .optionalText, status, fun v r => { r with status := v }⟩,
    ⟨"node", .optionalText, node, fun v r => { r with node := v }⟩,
    ⟨"pool", .optionalText, pool, fun v r => { r with pool := v }⟩,
    ⟨"tags", .optionalText, tags, fun v r => { r with tags := v }⟩]

def Disk.members : List (Member Disk) :=
  [⟨"devpath", .text, devpath, fun v r => { r with devpath := v }⟩,
    ⟨"type", .optionalText, medium, fun v r => { r with medium := v }⟩,
    ⟨"health", .optionalText, health, fun v r => { r with health := v }⟩,
    ⟨"used", .optionalText, used, fun v r => { r with used := v }⟩,
    ⟨"node", .optionalText, node, fun v r => { r with node := v }⟩,
    ⟨"gpt", .flag, gpt, fun v r => { r with gpt := v }⟩,
    ⟨"mounted", .flag, mounted, fun v r => { r with mounted := v }⟩,
    ⟨"size", .optionalWord64, size, fun v r => { r with size := v }⟩,
    ⟨"model", .optionalText, model, fun v r => { r with model := v }⟩]

def Volume.members : List (Member Volume) :=
  [⟨"volid", .text, volid, fun v r => { r with volid := v }⟩,
    ⟨"name", .optionalText, name, fun v r => { r with name := v }⟩,
    ⟨"format", .optionalText, format, fun v r => { r with format := v }⟩,
    ⟨"storage", .optionalText, storage, fun v r => { r with storage := v }⟩,
    ⟨"node", .optionalText, node, fun v r => { r with node := v }⟩,
    ⟨"content", .optionalText, content, fun v r => { r with content := v }⟩,
    ⟨"resource_type", .optionalText, ownerType, fun v r => { r with ownerType := v }⟩,
    ⟨"size", .optionalWord64, size, fun v r => { r with size := v }⟩,
    ⟨"vmid", .optionalWord32, vmid, fun v r => { r with vmid := v }⟩]

namespace Kind

def members : (k : Kind) → List (Member k.Record)
  | virtualMachine => VirtualMachine.members
  | container => Container.members
  | disk => Disk.members
  | volume => Volume.members

def memberKeys (k : Kind) : List String :=
  k.members.map Member.key

/-- A record with every optional attribute absent. -/
def blank : (k : Kind) → k.Record
  | virtualMachine => { vmid := 0 }
  | container => { vmid := 0 }
  | disk => { devpath := "" }
  | volume => { volid := "" }

end Kind

end ClusterQuery
