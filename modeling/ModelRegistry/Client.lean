import ModelRegistry.Chance
import ModelRegistry.Request
import ModelRegistry.Subscription

namespace ModelRegistry

structure Client where
  cluster : ClusterId
  registry : RegistrySettings
  retry : RetrySettings
  connection : Connection
  subscriptions : Array Subscription
  tracked : Std.ExtTreeMap ModelId Nat
  started : Nat
  drawn : Nat

namespace Client

def new (cluster : ClusterId) (registry : RegistrySettings) (retry : RetrySettings) : Client :=
  ⟨cluster, registry, retry, .idle, #[], ∅, 0, 0⟩

def env (c : Client) (now : Nat) (draws : Draws) : Env :=
  ⟨c.cluster, c.registry, c.retry, now, draws c.drawn⟩

def stepped (c : Client) (connection : Connection) : Client :=
  { c with connection, drawn := c.drawn + 1 }

def adminDeadline (c : Client) (now : Nat) : Nat := now + c.registry.adminTimeout

def subscription? (c : Client) (model : ModelId) : Option (Nat × Subscription) := do
  let n ← c.tracked[model]?
  let s ← c.subscriptions[n]?
  return (n, s)

def noRuntime : Error := .internal "address watch requires a Tokio runtime"

def subscribe (c : Client) (model : ModelId) : Client :=
  { c with
    subscriptions := c.subscriptions.push (.start c.retry model)
    tracked := c.tracked.insert model c.subscriptions.size
    started := c.started + 1 }

/-- The replica of a model, and the client with a subscription to it. Where no task can run
(`runtime` is false) a subscription cannot be started. -/
def lookup (c : Client) (runtime : Bool) (model : ModelId) : Except Error (Client × Replica) :=
  match c.subscription? model with
  | some (_, s) => .ok (c, s.replica)
  | none => if runtime then .ok (c.subscribe model, .new model) else .error noRuntime

def resolveAddresses (c : Client) (runtime : Bool) (model : ModelId) (want : Nat) (draw : Draws) :
    Except Error (Client × List String) := do
  let (c, replica) ← c.lookup runtime model
  return (c, replica.sample want draw)

def trackedModels (c : Client) : List ModelId := c.tracked.keys

def replicaSizes (c : Client) : List (ModelId × Nat) :=
  c.trackedModels.filterMap (fun m => (c.subscription? m).map (fun s => (m, s.2.replica.size)))

def replicaSize? (c : Client) (model : ModelId) : Option Nat :=
  (c.subscription? model).map (·.2.replica.size)

def acquire (c : Client) (now : Nat) (draws : Draws) (a : Acquisition)
    (signal : Acquisition.Signal) : Client × Acquisition :=
  let (connection, a) := a.step (c.env now draws) c.connection signal
  (c.stepped connection, a)

def call (c : Client) (now : Nat) (draws : Draws) (k : Call Answer) (signal : Call.Signal Answer) :
    Client × Call Answer :=
  let (connection, k) := k.step (c.env now draws) c.connection signal
  (c.stepped connection, k)

def produce (c : Client) (now : Nat) (draws : Draws) (n : Nat) (signal : Call.Signal Response) :
    Client :=
  match c.subscriptions[n]? with
  | none => c
  | some s =>
    let (connection, s) := s.produce (c.env now draws) c.connection signal
    { c.stepped connection with subscriptions := c.subscriptions.setIfInBounds n s }

/-- One step of the consumer of subscription `n`. On hearing that the model is gone it drops the
entry of the model, if that is its own. -/
def consume (c : Client) (n : Nat) : Option Client := do
  let s ← c.subscriptions[n]?
  let (update, s) ← s.consume
  let c := { c with subscriptions := c.subscriptions.setIfInBounds n s }
  match update with
  | .batch _ => return c
  | .gone _ =>
    let model := s.replica.model
    return if c.tracked[model]? = some n then { c with tracked := c.tracked.erase model } else c

end Client

end ModelRegistry
