import ModelRegistry.AddressTable
import ModelRegistry.Client

namespace ModelRegistry

structure Cache where
  registry : RegistrySettings
  retry : RetrySettings
  clients : Std.ExtTreeMap ClusterId Client

namespace Cache

def new (registry : RegistrySettings) (retry : RetrySettings) : Cache := ⟨registry, retry, ∅⟩

def size (c : Cache) : Nat := c.clients.size

def isEmpty (c : Cache) : Bool := c.clients.isEmpty

def client (c : Cache) (cluster : ClusterId) : Client :=
  c.clients.getD cluster (.new cluster c.registry c.retry)

def put (c : Cache) (client : Client) : Cache :=
  { c with clients := c.clients.insert client.cluster client }

def getOrCreate (c : Cache) (cluster : ClusterId) : Cache × Client :=
  match c.clients[cluster]? with
  | some client => (c, client)
  | none =>
    let client := Client.new cluster c.registry c.retry
    (c.put client, client)

def resolveAddresses (c : Cache) (runtime : Bool) (cluster : ClusterId) (model : ModelId)
    (want : Nat) (draw : Draws) : Cache × Except Error (List String) :=
  let (c, client) := c.getOrCreate cluster
  match client.resolveAddresses runtime model want draw with
  | .ok (client, addresses) => (c.put client, .ok addresses)
  | .error e => (c, .error e)

end Cache

end ModelRegistry
