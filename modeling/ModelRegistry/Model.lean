import Std.Data.ExtTreeMap
import ModelRegistry.Ident

namespace ModelRegistry

structure Model where
  id : ModelId
  path : String
  checkpoint : String
  requestedReplicas : Nat
  overrides : Std.ExtTreeMap String String

namespace Model

def plain (id : ModelId) (path checkpoint : String) (replicas : Nat) : Model :=
  ⟨id, path, checkpoint, replicas, ∅⟩

def conventional (id : ModelId) : Model :=
  plain id s!"/models/{id}" s!"/checkpoints/{id}" 1

end Model

structure PublishedModel where
  model : Model
  addresses : List String

structure ServerTypeStats where
  chipType : String
  chipTopology : String
  replicas : Nat
  deriving DecidableEq, Repr

structure ClusterStats where
  serverTypes : List ServerTypeStats
  deriving DecidableEq, Repr

namespace ClusterStats

def totalReplicas (s : ClusterStats) : Nat := s.serverTypes.foldl (· + ·.replicas) 0

end ClusterStats

end ModelRegistry
