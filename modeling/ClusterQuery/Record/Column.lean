import ClusterQuery.Record.Field
import ClusterQuery.Text.Table

/-!
# Columns and labels of records

The headers under which the records of each kind are tabled, the cells of a record, and the label
by which a record is named. An absent attribute is shown as a dash.
-/

namespace ClusterQuery

/-- An attribute, or a dash when it is absent. -/
def orDash (value : Option String) : String :=
  value.getD "-"

def VirtualMachine.cells (r : VirtualMachine) : List String :=
  [Nat.repr r.vmid.toNat, orDash r.name, orDash r.status, orDash r.node, orDash r.pool,
    orDash r.tags, flagText r.template]

def Container.cells (r : Container) : List String :=
  [Nat.repr r.vmid.toNat, orDash r.name, orDash r.status, orDash r.node, orDash r.pool,
    orDash r.tags]

def Disk.cells (r : Disk) : List String :=
  [r.devpath, orDash r.medium, orDash r.health, orDash r.used, orDash r.node, flagText r.gpt,
    flagText r.mounted]

def Volume.cells (r : Volume) : List String :=
  [r.volid, orDash r.format, orDash r.storage, orDash r.node, orDash r.content,
    orDash r.ownerType]

namespace Kind

def headers : Kind → List String
  | virtualMachine => ["VMID", "NAME", "STATUS", "NODE", "POOL", "TAGS", "TEMPLATE"]
  | container => ["VMID", "NAME", "STATUS", "NODE", "POOL", "TAGS"]
  | disk => ["DEVPATH", "TYPE", "HEALTH", "USED", "NODE", "GPT", "MOUNTED"]
  | volume => ["VOLID", "FORMAT", "STORAGE", "NODE", "CONTENT", "TYPE"]

def cells : (k : Kind) → k.Record → List String
  | virtualMachine, r => VirtualMachine.cells r
  | container, r => Container.cells r
  | disk, r => Disk.cells r
  | volume, r => Volume.cells r

def columns (k : Kind) : List Column :=
  k.headers.map Column.ofHeader

/-- Guests go by their name, or by their number when they have none. -/
def label : (k : Kind) → k.Record → String
  | virtualMachine, r => r.name.getD (Nat.repr r.vmid.toNat)
  | container, r => r.name.getD (Nat.repr r.vmid.toNat)
  | disk, r => r.devpath
  | volume, r => r.label

/-- A record has a cell under each header. -/
theorem length_cells (k : Kind) (r : k.Record) : (k.cells r).length = k.headers.length := by
  cases k <;> rfl

/-- The bytes of a header, which its column starts with, are its characters. -/
theorem utf8ByteSize_header (k : Kind) : ∀ text ∈ k.headers, text.utf8ByteSize = text.length := by
  cases k <;> decide

end Kind

end ClusterQuery
