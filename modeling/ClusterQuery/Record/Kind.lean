/-!
# Record kinds

The four kinds of records a cluster reports, and one record type for each. A missing
attribute is `none`; flags are always known.
-/

namespace ClusterQuery

inductive Kind
  | virtualMachine
  | container
  | disk
  | volume
  deriving DecidableEq, Repr

namespace Kind

def all : List Kind := [virtualMachine, container, disk, volume]

/-- The kind as error messages and listings spell it. -/
def name : Kind → String
  | virtualMachine => "virtual machine"
  | container => "container"
  | disk => "disk"
  | volume => "volume"

/-- The short word that names the kind on the command line and in configuration files. -/
def word : Kind → String
  | virtualMachine => "vm"
  | container => "ct"
  | disk => "disk"
  | volume => "volume"

end Kind

structure VirtualMachine where
  vmid : UInt32
  name : Option String := none
  status : Option String := none
  node : Option String := none
  pool : Option String := none
  tags : Option String := none
  template : Bool := false
  deriving DecidableEq, Repr

structure Container where
  vmid : UInt32
  name : Option String := none
  status : Option String := none
  node : Option String := none
  pool : Option String := none
  tags : Option String := none
  deriving DecidableEq, Repr

structure Disk where
  devpath : String
  model : Option String := none
  medium : Option String := none
  health : Option String := none
  used : Option String := none
  node : Option String := none
  gpt : Bool := false
  mounted : Bool := false
  size : Option UInt64 := none
  deriving DecidableEq, Repr

structure Volume where
  volid : String
  name : Option String := none
  format : Option String := none
  storage : Option String := none
  node : Option String := none
  content : Option String := none
  ownerType : Option String := none
  size : Option UInt64 := none
  vmid : Option UInt32 := none
  deriving DecidableEq, Repr

namespace Volume

/-- The explicit name, or else what follows the first colon of the volume identifier; an
identifier without a colon stands for itself. -/
def label (v : Volume) : String :=
  match v.name with
  | some name => name
  | none =>
    match v.volid.toList.dropWhile (· ≠ ':') with
    | [] => v.volid
    | _ :: rest => String.ofList rest

end Volume

/-- The type of the records of a kind. -/
@[reducible] def Kind.Record : Kind → Type
  | virtualMachine => VirtualMachine
  | container => Container
  | disk => Disk
  | volume => Volume

instance (k : Kind) : DecidableEq k.Record :=
  match k with
  | .virtualMachine => inferInstanceAs (DecidableEq VirtualMachine)
  | .container => inferInstanceAs (DecidableEq Container)
  | .disk => inferInstanceAs (DecidableEq Disk)
  | .volume => inferInstanceAs (DecidableEq Volume)

end ClusterQuery
