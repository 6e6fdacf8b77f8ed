import ModelRegistry.Connection
import ModelRegistry.Error
import ModelRegistry.Ident
import ModelRegistry.Settings

namespace ModelRegistry

structure Env where
  cluster : ClusterId
  registry : RegistrySettings
  retry : RetrySettings
  now : Nat
  draw : Nat

inductive Acquisition
  | entering
  | resolving
  | dialing (address : String) (expires : Nat)
  | finished (result : Except Error Link)

namespace Acquisition

inductive Signal
  | proceed
  | resolved (result : Except Error String)
  | dialed (result : Except Error Link)
  | expired

def isDialing : Acquisition → Bool
  | resolving | dialing .. => true
  | _ => false

def busy (cluster : ClusterId) : Error :=
  .resourceExhausted s!"dial to registry of {cluster} already in progress"

def unresolved (cluster : ClusterId) (e : Error) : Error :=
  .unavailable s!"cannot resolve registry address for {cluster}: {e.message}"

def timedOut (address : String) : Error :=
  .unavailable s!"dial to registry at {address} timed out"

def undialed (address : String) (e : Error) : Error :=
  if e.kind = .deadlineExceeded then
    .unavailable s!"dial to registry at {address} failed: {e.message}"
  else e

def step (env : Env) (c : Connection) : Acquisition → Signal → Connection × Acquisition
  | entering, .proceed =>
    match c.enter with
    | (c, .cached link) => (c, finished (.ok link))
    | (c, .busy) => (c, finished (.error (busy env.cluster)))
    | (c, .vacant) => (c, resolving)
  | resolving, .resolved (.ok address) =>
    (c, dialing address (env.now + env.registry.dialTimeout))
  | resolving, .resolved (.error e) =>
    (c.abandon, finished (.error (unresolved env.cluster e)))
  | dialing _ _, .dialed (.ok link) => (.ready link, finished (.ok link))
  | dialing address _, .dialed (.error e) => (c.abandon, finished (.error (undialed address e)))
  | dialing address _, .expired => (c.abandon, finished (.error (timedOut address)))
  | a, _ => (c, a)

def cancel (c : Connection) (a : Acquisition) : Connection :=
  if a.isDialing then c.abandon else c

theorem isRetryable_undialed (address : String) (e : Error) :
    (undialed address e).isRetryable = (e.isRetryable || e.kind == .deadlineExceeded) := by
  cases e <;> rfl

theorem isNotFound_undialed (address : String) (e : Error) :
    (undialed address e).isNotFound = e.isNotFound := by
  cases e <;> rfl

theorem undialed_of_isNotFound (address : String) {e : Error} (h : e.isNotFound) :
    undialed address e = e := by
  cases e <;> first | rfl | cases h

end Acquisition

end ModelRegistry
