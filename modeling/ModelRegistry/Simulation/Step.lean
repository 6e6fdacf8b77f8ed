import ModelRegistry.MemoryRegistry
import ModelRegistry.Replica
import ModelRegistry.StandIn

namespace ModelRegistry.Simulation

inductive Step
  | openClient (cluster : ClusterId)
  | request (cluster : ClusterId) (r : Request)
  | resolve (cluster : ClusterId) (model : ModelId) (want : Nat)
  | acquire (cluster : ClusterId)
  | poison (cluster : ClusterId)
  | poisonIf (cluster : ClusterId) (handle : Nat)
  | trial (cluster : ClusterId) (allowed : Option Nat)
  | advance (time : Nat)
  | start (name : String) (step : Step)
  | peek (name : String)
  | join (name : String)
  | cancel (name : String)
  | prepare (more : Script)
  | command (c : MemoryRegistry.Command)
  | batch (cs : List MemoryRegistry.Command)
  | watches (model : ModelId)
  | eventually (cluster : ClusterId) (model : ModelId) (size : Nat)
  | lookUp (cluster : ClusterId)
  | dial (address : String)
  | ask (stub : Nat) (r : Request)
  | close (stub : Nat)
  | watch (stub : Nat) (model : ModelId) (cursor : Cursor) (timeout : Nat)

inductive Result
  | none
  | opened (serial : Nat) (cluster : ClusterId) (clients : Nat)
  | answered (r : Except Error Answer)
  | found (size want : Nat) (replica : Replica)
  | refused (e : Error)
  | acquired (r : Except Error Nat)
  | tried (r : Except Error String)
  | pending
  | ended (r : Result) (time : Nat)
  | holds (b : Bool)
  | watches (calls : List Cursor) (waiting : Nat)
  | resolved (r : Except Error String)
  | dialed (r : Except Error Nat)
  | changed (r : Except Error Response)

end ModelRegistry.Simulation
