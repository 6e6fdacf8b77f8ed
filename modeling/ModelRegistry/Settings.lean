import Std.Data.ExtTreeMap
import ModelRegistry.Binary64
import ModelRegistry.Error

namespace ModelRegistry

structure LoggingSettings where
  level : String
  format : String
  deriving DecidableEq, Repr

structure RegistrySettings where
  adminTimeout : Nat
  dialTimeout : Nat
  watchRetryDelay : Nat
  watchChannelCapacity : Nat
  deriving DecidableEq, Repr

structure RetrySettings where
  initialDelay : Nat
  maxDelay : Nat
  multiplier : Binary64
  deriving DecidableEq, Repr

structure Settings where
  logging : LoggingSettings
  registry : RegistrySettings
  retry : RetrySettings
  clusters : Std.ExtTreeMap String String

namespace LoggingSettings

def default : LoggingSettings := ⟨"info", "pretty"⟩

end LoggingSettings

namespace RegistrySettings

def default : RegistrySettings := ⟨10000, 10000, 1000, 64⟩

def MakesChannel (s : RegistrySettings) : Prop :=
  0 < s.watchChannelCapacity ∧ s.watchChannelCapacity < 0x2000000000000000

instance (s : RegistrySettings) : Decidable s.MakesChannel := inferInstanceAs (Decidable (_ ∧ _))

end RegistrySettings

namespace RetrySettings

def default : RetrySettings := ⟨100, 5000, .two⟩

end RetrySettings

namespace Settings

def default : Settings := ⟨.default, .default, .default, ∅⟩

def require (holds : Bool) (field reason : String) : Except ConfigError Unit :=
  if holds then .ok () else .error (.invalid field reason)

def checkCluster (entry : String × String) : Except ConfigError Unit := do
  require (!entry.1.isEmpty) "clusters" "cluster identifier must not be empty"
  require (!entry.2.isEmpty) "clusters" s!"address for {entry.1} must not be empty"

/-- The first violated condition, in the order of the fields and then of the cluster identifiers. -/
def check (s : Settings) : Except ConfigError Unit := do
  require (s.registry.adminTimeout != 0) "admin_timeout_ms" "must be greater than 0"
  require (s.registry.dialTimeout != 0) "dial_timeout_ms" "must be greater than 0"
  require (s.registry.watchRetryDelay != 0) "watch_retry_delay_ms" "must be greater than 0"
  require (s.registry.watchChannelCapacity != 0) "watch_channel_capacity" "must be greater than 0"
  require (s.retry.initialDelay != 0) "initial_delay_ms" "must be greater than 0"
  require (decide (s.retry.initialDelay ≤ s.retry.maxDelay)) "max_delay_ms"
    "must be >= initial_delay_ms"
  require (!s.retry.multiplier.isBelowOne) "backoff_multiplier" "must be >= 1.0"
  s.clusters.toList.forM checkCluster

end Settings

end ModelRegistry
