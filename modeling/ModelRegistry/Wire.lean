import ModelRegistry.Ident
import ModelRegistry.Json.Read
import ModelRegistry.Model
import ModelRegistry.Watch

/-!
The records that travel between a client and a registry, as JSON. A record is written as an object
with its fields in order; it is read from such an object, whatever the order and with unknown
members ignored, or from the array of its fields.
-/

namespace ModelRegistry

open Json (Value)

class Wire (α : Type) where
  encode : α → Value
  decode : Value → Option α

namespace Wire

def fieldsOfObject (names : List String) (members : List (Option String × Value)) :
    Option (List (Option Value)) :=
  if members.all (·.1.isSome) && names.all (fun n => members.countP (·.1 == some n) ≤ 1) then
    some (names.map (fun n => members.lookup (some n)))
  else none

def fields (names : List String) : Value → Option (List (Option Value))
  | .object members => fieldsOfObject names members
  | .array elements =>
    if elements.length ≤ names.length then
      some ((List.range names.length).map (elements[·]?))
    else none
  | _ => none

variable {α : Type}

def required [Wire α] : Option Value → Option α
  | some v => decode v
  | none => none

def defaulting [Wire α] (default : α) : Option Value → Option α
  | some v => decode v
  | none => some default

def text? : Value → Option String
  | .text s => some s
  | _ => none

def textMap? : Value → Option (Std.ExtTreeMap String String)
  | .object members =>
    members.foldlM (fun t (k, v) => do return t.insert (← k) (← text? v)) ∅
  | _ => none

def integer? (low high : Int) : Value → Option Int
  | .integer i => if low ≤ i ∧ i ≤ high then some i else none
  | _ => none

def word32? (v : Value) : Option Nat := (integer? 0 0xffffffff v).map Int.toNat

def word64? (v : Value) : Option Nat := (integer? 0 0xffffffffffffffff v).map Int.toNat

instance : Wire String := ⟨.text, text?⟩

instance : Wire ClusterId := ⟨fun c => .text c.text, fun v => (text? v).map .mk⟩

instance : Wire ModelId := ⟨fun m => .text m.text, fun v => (text? v).map .mk⟩

instance [Wire α] : Wire (List α) where
  encode l := .array (l.map encode)
  decode
    | .array elements => elements.mapM decode
    | _ => none

instance [Wire α] : Wire (Option α) where
  encode o := o.elim .null encode
  decode
    | .null => some none
    | v => (decode v).map some

instance : Wire (Std.ExtTreeMap String String) where
  encode t := .record (t.toList.map (fun e => (e.1, .text e.2)))
  decode := textMap?

instance : Wire Model where
  encode m := .record [("model_id", encode m.id), ("model_path", .text m.path),
    ("checkpoint_path", .text m.checkpoint), ("requested_replicas", .integer m.requestedReplicas),
    ("overrides", encode m.overrides)]
  decode v := do
    match ← fields ["model_id", "model_path", "checkpoint_path", "requested_replicas",
        "overrides"] v with
    | [id, path, checkpoint, replicas, overrides] =>
      return ⟨← required id, ← required path, ← required checkpoint, ← replicas.bind word32?,
        ← defaulting ∅ overrides⟩
    | _ => none

instance : Wire PublishedModel where
  encode m := .record [("model", encode m.model), ("modelet_addresses", encode m.addresses)]
  decode v := do
    match ← fields ["model", "modelet_addresses"] v with
    | [model, addresses] => return ⟨← required model, ← defaulting [] addresses⟩
    | _ => none

instance : Wire ServerTypeStats where
  encode s := .record [("chip_type", .text s.chipType), ("chip_topology", .text s.chipTopology),
    ("replicas", .integer s.replicas)]
  decode v := do
    match ← fields ["chip_type", "chip_topology", "replicas"] v with
    | [chip, topology, replicas] =>
      return ⟨← required chip, ← required topology, ← replicas.bind word32?⟩
    | _ => none

instance : Wire ClusterStats where
  encode s := .record [("server_types", encode s.serverTypes)]
  decode v := do
    match ← fields ["server_types"] v with
    | [types] => return ⟨← defaulting [] types⟩
    | _ => none

/-- A kind without content is its name, or an object with nothing under it; one with content is an
object with the content under its name. -/
instance : Wire MutationKind where
  encode
    | .add => .text "Add"
    | .remove => .text "Remove"
    | .unknown tag => .record [("Unknown", .integer tag)]
  decode
    | .text "Add" | .object [(some "Add", .null)] => some .add
    | .text "Remove" | .object [(some "Remove", .null)] => some .remove
    | .object [(some "Unknown", v)] => (integer? (-0x80000000) 0x7fffffff v).map .unknown
    | _ => none

instance : Wire Mutation where
  encode m := .record [("kind", encode m.kind), ("address", .text m.address)]
  decode v := do
    match ← fields ["kind", "address"] v with
    | [kind, address] => return ⟨← required kind, ← required address⟩
    | _ => none

instance : Wire DiffBatch where
  encode b := .record [("snapshot", encode b.snapshot), ("log", encode b.log),
    ("next_seqno", .integer b.next)]
  decode v := do
    match ← fields ["snapshot", "log", "next_seqno"] v with
    | [snapshot, log, next] =>
      return ⟨← defaulting none snapshot, ← defaulting [] log, ← next.bind word64?⟩
    | _ => none

instance : Wire Cursor where
  encode c := .record [("registry_instance", .text c.instanceId), ("seqno", .integer c.seqno)]
  decode v := do
    match ← fields ["registry_instance", "seqno"] v with
    | [instanceId, seqno] => return ⟨← required instanceId, ← seqno.bind word64?⟩
    | _ => none

instance : Wire Response where
  encode r := .record [("registry_instance", .text r.instanceId), ("batch", encode r.batch)]
  decode v := do
    match ← fields ["registry_instance", "batch"] v with
    | [instanceId, batch] => return ⟨← required instanceId, ← required batch⟩
    | _ => none

def ofText? [Wire α] (s : String) : Option α := (Json.read s).bind decode

def toText [Wire α] (a : α) : String := (encode a).compact

end Wire

end ModelRegistry
