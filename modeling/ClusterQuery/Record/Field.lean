import ClusterQuery.Record.Kind

/-!
# Selectable fields

Three tables say what selectors may test in records of a kind: the names of its fields, in the
order in which they are listed to the user, how the value of a field is read off a record, and
which fields are compared as something other than one text. The tables are kept apart, as it is
the first one that a selector is checked against and the second one that an evaluation asks; that
a field is in one of these if and only if it is in the other is a theorem about all kinds.
-/

namespace ClusterQuery

/-- What the value of a field stands for. -/
inductive Reading
  | whole
  | tags
  deriving DecidableEq, Repr

/-- The name of a field and how its values are compared. -/
structure Field where
  name : String
  reading : Reading
  deriving DecidableEq, Repr

/-- Flags are shown as words. -/
def flagText (b : Bool) : String :=
  if b then "yes" else "no"

def VirtualMachine.valueOf? (r : VirtualMachine) : String → Option (Option String)
  | "status" => some r.status
  | "tags" => some r.tags
  | "pool" => some r.pool
  | "name" => some r.name
  | "template" => some (flagText r.template)
  | _ => none

def Container.valueOf? (r : Container) : String → Option (Option String)
  | "status" => some r.status
  | "tags" => some r.tags
  | "pool" => some r.pool
  | "name" => some r.name
  | _ => none

def Disk.valueOf? (r : Disk) : String → Option (Option String)
  | "type" => some r.medium
  | "health" => some r.health
  | "used" => some r.used
  | "node" => some r.node
  | "gpt" => some (flagText r.gpt)
  | "mounted" => some (flagText r.mounted)
  | _ => none

def Volume.valueOf? (r : Volume) : String → Option (Option String)
  | "format" => some r.format
  | "storage" => some r.storage
  | "node" => some r.node
  | "content" => some r.content
  | "resource_type" => some r.ownerType
  | "name" => some r.label
  | _ => none

namespace Kind

/-- The names that a selector may test. -/
def fieldNames : Kind → List String
  | virtualMachine => ["status", "tags", "pool", "name", "template"]
  | container => ["status", "tags", "pool", "name"]
  | disk => ["type", "health", "used", "node", "gpt", "mounted"]
  | volume => ["format", "storage", "node", "content", "resource_type", "name"]

/-- `none` when the kind has no such field, `some none` when the record lacks a value for it. -/
def valueOf? : (k : Kind) → k.Record → String → Option (Option String)
  | virtualMachine, r => VirtualMachine.valueOf? r
  | container, r => Container.valueOf? r
  | disk, r => Disk.valueOf? r
  | volume, r => Volume.valueOf? r

/-- The fields that are not compared as a whole. -/
def comparisons : Kind → List Field
  | virtualMachine | container => [⟨"tags", .tags⟩]
  | disk | volume => []

variable (k : Kind)

def supports (name : String) : Bool :=
  k.fieldNames.contains name

/-- A name without a comparison of its own is compared as a whole. -/
def reading (name : String) : Reading :=
  ((k.comparisons.find? (·.name == name)).map Field.reading).getD .whole

/-- The fields of the kind, each with the way its values are compared. -/
def fields : List Field :=
  k.fieldNames.map fun name => ⟨name, k.reading name⟩

variable {k}

theorem supports_iff {name : String} : k.supports name ↔ name ∈ k.fieldNames := by
  simp [supports]

/-- Exactly the names in the table of a kind are read off its records. -/
theorem valueOf?_isSome_iff {r : k.Record} {name : String} :
    (k.valueOf? r name).isSome ↔ name ∈ k.fieldNames := by
  cases k with
  | virtualMachine =>
      simp only [valueOf?, VirtualMachine.valueOf?, fieldNames]
      split <;> simp_all
  | container =>
      simp only [valueOf?, Container.valueOf?, fieldNames]
      split <;> simp_all
  | disk =>
      simp only [valueOf?, Disk.valueOf?, fieldNames]
      split <;> simp_all
  | volume =>
      simp only [valueOf?, Volume.valueOf?, fieldNames]
      split <;> simp_all

theorem exists_valueOf? {name : String} (h : name ∈ k.fieldNames) (r : k.Record) :
    ∃ value, k.valueOf? r name = some value :=
  Option.isSome_iff_exists.mp (valueOf?_isSome_iff.mpr h)

/-- Every field with a comparison of its own is one of the kind's. -/
theorem comparisons_subset_fields (k : Kind) : k.comparisons ⊆ k.fields := by
  cases k <;> decide

end Kind

end ClusterQuery
