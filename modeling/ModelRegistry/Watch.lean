namespace ModelRegistry

inductive MutationKind
  | add
  | remove
  | unknown (tag : Int)
  deriving DecidableEq, Repr

structure Mutation where
  kind : MutationKind
  address : String
  deriving DecidableEq, Repr

namespace Mutation

def add (address : String) : Mutation := ⟨.add, address⟩

def remove (address : String) : Mutation := ⟨.remove, address⟩

end Mutation

structure DiffBatch where
  snapshot : Option (List String)
  log : List Mutation
  next : Nat
  deriving DecidableEq, Repr

namespace DiffBatch

def full (addresses : List String) (next : Nat) : DiffBatch := ⟨some addresses, [], next⟩

def incremental (log : List Mutation) (next : Nat) : DiffBatch := ⟨none, log, next⟩

def isFull (b : DiffBatch) : Bool := b.snapshot.isSome

end DiffBatch

structure Cursor where
  instanceId : String
  seqno : Nat
  deriving DecidableEq, Repr

namespace Cursor

def empty : Cursor := ⟨"", 0⟩

instance : Inhabited Cursor := ⟨empty⟩

def isEmpty (c : Cursor) : Bool := c.instanceId.isEmpty && c.seqno == 0

end Cursor

structure Response where
  instanceId : String
  batch : DiffBatch
  deriving DecidableEq, Repr

namespace Response

def next (r : Response) : Cursor := ⟨r.instanceId, r.batch.next⟩

end Response

end ModelRegistry
