import Std.Data.HashMap
import ModelRegistry.Ident
import ModelRegistry.Watch

namespace ModelRegistry

structure AddressSet where
  addrs : Array String
  index : Std.HashMap String Nat

namespace AddressSet

def empty : AddressSet := ⟨#[], ∅⟩

instance : Inhabited AddressSet := ⟨empty⟩

def size (s : AddressSet) : Nat := s.addrs.size

def toList (s : AddressSet) : List String := s.addrs.toList

def contains (s : AddressSet) (a : String) : Bool := s.index.contains a

def insert (s : AddressSet) (a : String) : AddressSet :=
  if s.index.contains a then s
  else ⟨s.addrs.push a, s.index.insert a s.addrs.size⟩

/-- Moves the last address into the slot of `a` and shortens the array. -/
def remove (s : AddressSet) (a : String) : AddressSet :=
  match s.index[a]? with
  | none => s
  | some i =>
    let addrs := (s.addrs.swapIfInBounds i (s.addrs.size - 1)).pop
    let index := s.index.erase a
    ⟨addrs, match addrs[i]? with
      | some moved => index.insert moved i
      | none => index⟩

def ofList (addresses : List String) : AddressSet := addresses.foldl insert empty

def mutate (s : AddressSet) (m : Mutation) : AddressSet :=
  match m.kind with
  | .add => s.insert m.address
  | .remove => s.remove m.address
  | .unknown _ => s

def apply (s : AddressSet) (b : DiffBatch) : AddressSet :=
  b.log.foldl mutate (match b.snapshot with
    | some addresses => ofList addresses
    | none => s)

def slots (n want : Nat) (draw : Nat → Nat) : List Nat :=
  (List.range want).map (fun k => draw k % n)

/-- All addresses if `want` covers them, else `want` draws with replacement. -/
def sample (s : AddressSet) (want : Nat) (draw : Nat → Nat) : List String :=
  if s.size ≤ want then s.toList
  else (slots s.size want draw).filterMap (s.addrs[·]?)

end AddressSet

structure Replica where
  model : ModelId
  addresses : AddressSet

namespace Replica

def new (model : ModelId) : Replica := ⟨model, .empty⟩

def size (r : Replica) : Nat := r.addresses.size

def isEmpty (r : Replica) : Bool := r.size == 0

def toList (r : Replica) : List String := r.addresses.toList

def contains (r : Replica) (a : String) : Bool := r.addresses.contains a

def apply (r : Replica) (b : DiffBatch) : Replica := { r with addresses := r.addresses.apply b }

def sample (r : Replica) (want : Nat) (draw : Nat → Nat) : List String :=
  r.addresses.sample want draw

end Replica

end ModelRegistry
