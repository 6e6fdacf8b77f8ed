import ModelRegistry.Connection
import ModelRegistry.Request
import ModelRegistry.Watch

namespace ModelRegistry

inductive Query
  | resolve (cluster : ClusterId)
  | dial (address : String)
  | request (link : Link) (r : Request)
  | watch (link : Link) (model : ModelId) (cursor : Cursor)
  | trial (link : Link) (cached : Bool)

inductive Reply
  | resolved (r : Except Error String)
  | dialed (r : Except Error Link)
  | answered (r : Except Error Answer)
  | changed (r : Except Error Response)
  | tried (r : Except Error String)

inductive Flight
  | timed (due : Option Nat) (reply : Reply)
  | connecting (due : Option Nat) (outcome : Except Error Unit)
  | held
  | parked

namespace Flight

def due? : Flight → Option Nat
  | timed due _ | connecting due _ => due
  | held | parked => none

def arrived (now : Nat) : Option Nat → Bool
  | some due => due ≤ now
  | none => false

end Flight

end ModelRegistry
