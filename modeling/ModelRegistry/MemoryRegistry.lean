import Std.Data.ExtTreeMap
import Std.Data.ExtTreeSet
import ModelRegistry.Exchange

/-!
A registry in memory, which is also its own address lookup and dialer. Each model's entry keeps the
log of changes to its addresses since the registry process started; a watch whose cursor lies in
that log gets the rest of it, one that has all of it waits, and any other gets the whole set.
-/

namespace ModelRegistry

structure Entry where
  model : Model
  addresses : List String
  log : List Mutation
  logStart : Nat

structure LinkState where
  epoch : Nat
  closed : Bool

structure ParkedWatch where
  caller : Nat
  link : Link
  model : ModelId
  cursor : Cursor

structure MemoryRegistry where
  identities : Nat → String
  restarts : Nat
  entries : Std.ExtTreeMap ModelId Entry
  links : Array LinkState
  epoch : Nat
  holding : Bool
  dialFailures : List Error
  callFailures : List Error
  forgotten : Std.ExtTreeSet ClusterId
  resolves : Nat
  dials : Nat
  closes : Nat
  cursors : Std.ExtTreeMap ModelId (List Cursor)
  parked : List ParkedWatch
  announcements : Nat

namespace Entry

def new (model : Model) (addresses : List String) : Entry := ⟨model, addresses, [], 0⟩

def next (e : Entry) : Nat := e.logStart + e.log.length

def published (e : Entry) : PublishedModel := ⟨e.model, e.addresses⟩

def add (e : Entry) (address : String) : Entry :=
  if address ∈ e.addresses then e
  else { e with addresses := e.addresses ++ [address], log := e.log ++ [.add address] }

def remove (e : Entry) (address : String) : Entry :=
  if address ∈ e.addresses then
    { e with addresses := e.addresses.filter (· != address), log := e.log ++ [.remove address] }
  else e

def forgetLog (e : Entry) : Entry := { e with logStart := e.next, log := [] }

def logFrom (e : Entry) (seqno : Nat) : List Mutation := e.log.drop (seqno - e.logStart)

/-- The answer to a cursor presented to the process `identity`; none if the cursor is current. -/
def answer (identity : String) (e : Entry) (c : Cursor) : Option DiffBatch :=
  if c.instanceId ≠ identity ∨ c.seqno < e.logStart ∨ e.next < c.seqno then
    some (.full e.addresses e.next)
  else if c.seqno < e.next then some (.incremental (e.logFrom c.seqno) e.next)
  else none

def stats (e : Entry) : ClusterStats := ⟨[⟨"cpu", "1", e.addresses.length % 0x100000000⟩]⟩

end Entry

namespace MemoryRegistry

inductive Command
  | publish (model : Model) (addresses : List String)
  | unpublish (id : ModelId)
  | addAddress (id : ModelId) (address : String)
  | removeAddress (id : ModelId) (address : String)
  | restart (id : ModelId) (addresses : List String)
  | dropConnections
  | failDials (errors : List Error)
  | failCalls (errors : List Error)
  | holdDials
  | releaseDials
  | forget (cluster : ClusterId)
  | remember (cluster : ClusterId)

def new (identities : Nat → String) : MemoryRegistry where
  identities
  restarts := 0
  entries := ∅
  links := #[]
  epoch := 0
  holding := false
  dialFailures := []
  callFailures := []
  forgotten := ∅
  resolves := 0
  dials := 0
  closes := 0
  cursors := ∅
  parked := []
  announcements := 0

def identity (r : MemoryRegistry) : String := r.identities r.restarts

def announce (r : MemoryRegistry) : MemoryRegistry :=
  { r with announcements := r.announcements + 1 }

def modifyEntry (r : MemoryRegistry) (id : ModelId) (f : Entry → Entry) : MemoryRegistry :=
  match r.entries[id]? with
  | some e => { r with entries := r.entries.insert id (f e) }
  | none => r

def restart (r : MemoryRegistry) (id : ModelId) (addresses : List String) : MemoryRegistry :=
  { r with restarts := r.restarts + 1, entries := r.entries.map (fun _ => Entry.forgetLog) }
    |>.modifyEntry id (fun e => { e with addresses })

def command (r : MemoryRegistry) : Command → MemoryRegistry
  | .publish model addresses =>
    { r with entries := r.entries.insert model.id (.new model addresses) }.announce
  | .unpublish id => { r with entries := r.entries.erase id }.announce
  | .addAddress id address => (r.modifyEntry id (·.add address)).announce
  | .removeAddress id address => (r.modifyEntry id (·.remove address)).announce
  | .restart id addresses => (r.restart id addresses).announce
  | .dropConnections => { r with epoch := r.epoch + 1 }.announce
  | .failDials errors => { r with dialFailures := r.dialFailures ++ errors }
  | .failCalls errors => { r with callFailures := r.callFailures ++ errors }
  | .holdDials => { r with holding := true }
  | .releaseDials => { r with holding := false }
  | .forget cluster => { r with forgotten := r.forgotten.insert cluster }
  | .remember cluster => { r with forgotten := r.forgotten.erase cluster }

def resolve (r : MemoryRegistry) (cluster : ClusterId) : MemoryRegistry × Except Error String :=
  ({ r with resolves := r.resolves + 1 },
    if r.forgotten.contains cluster then .error (.notFound s!"unknown cluster {cluster}")
    else .ok s!"fake://{cluster}")

def connect (r : MemoryRegistry) : MemoryRegistry × Except Error Link :=
  match r.dialFailures with
  | e :: rest => ({ r with dialFailures := rest }, .error e)
  | [] => ({ r with links := r.links.push ⟨r.epoch, false⟩ }, .ok r.links.size)

def isOpen (r : MemoryRegistry) (link : Link) : Bool :=
  match r.links[link]? with
  | some l => !l.closed && l.epoch == r.epoch
  | none => false

def checkOpen (r : MemoryRegistry) (link : Link) : Except Error Unit :=
  if r.isOpen link then .ok () else .error (.unavailable "connection closed")

def begin (r : MemoryRegistry) (link : Link) : MemoryRegistry × Except Error Unit :=
  match r.checkOpen link, r.callFailures with
  | .error e, _ => (r, .error e)
  | .ok (), e :: rest => ({ r with callFailures := rest }, .error e)
  | .ok (), [] => (r, .ok ())

def unpublished (id : ModelId) : Error := .notFound s!"model {id} is not published"

def alreadyPublished (id : ModelId) : Error :=
  .invalidArgument s!"model {id} is already published"

def perform (r : MemoryRegistry) : Request → MemoryRegistry × Except Error Answer
  | .publish model =>
    if r.entries.contains model.id then (r, .error (alreadyPublished model.id))
    else ({ r with entries := r.entries.insert model.id (.new model []) }, .ok .done)
  | .update model =>
    if r.entries.contains model.id then
      (r.modifyEntry model.id (fun e => { e with model }), .ok .done)
    else (r, .error (unpublished model.id))
  | .unpublish id =>
    ({ r with entries := r.entries.erase id }.announce,
      if r.entries.contains id then .ok .done else .error (unpublished id))
  | .list id => (r, .ok (.models (r.entries[id]?.map Entry.published).toList))
  | .listAll => (r, .ok (.models (r.entries.values.map Entry.published)))
  | .stats id =>
    (r, match r.entries[id]? with
      | some e => .ok (.stats e.stats)
      | none => .error (unpublished id))

def request (r : MemoryRegistry) (link : Link) (q : Request) :
    MemoryRegistry × Except Error Answer :=
  match r.begin link with
  | (r, .ok ()) => r.perform q
  | (r, .error e) => (r, .error e)

def answer (r : MemoryRegistry) (model : ModelId) (cursor : Cursor) :
    Except Error (Option Response) :=
  match r.entries[model]? with
  | some e => .ok ((e.answer r.identity cursor).map (fun b => ⟨r.identity, b⟩))
  | none => .error (unpublished model)

def look (r : MemoryRegistry) (link : Link) (model : ModelId) (cursor : Cursor) :
    Except Error (Option Response) := do
  r.checkOpen link
  r.answer model cursor

def present (r : MemoryRegistry) (model : ModelId) (cursor : Cursor) : MemoryRegistry :=
  { r with cursors := r.cursors.insert model (r.cursors.getD model [] ++ [cursor]) }

def park (r : MemoryRegistry) (w : ParkedWatch) : MemoryRegistry :=
  { r with parked := r.parked ++ [w] }

def unpark (r : MemoryRegistry) (caller : Nat) : MemoryRegistry :=
  { r with parked := r.parked.filter (·.caller != caller) }

def watch (r : MemoryRegistry) (caller : Nat) (link : Link) (model : ModelId) (cursor : Cursor) :
    MemoryRegistry × Option (Except Error Response) :=
  match (r.present model cursor).begin link with
  | (r, .error e) => (r, some (.error e))
  | (r, .ok ()) =>
    match r.look link model cursor with
    | .error e => (r, some (.error e))
    | .ok (some response) => (r, some (.ok response))
    | .ok none => (r.park ⟨caller, link, model, cursor⟩, none)

/-- A parked watch looks again; it leaves with an answer or stays, then last in line. -/
def lookAgain (r : MemoryRegistry) (caller : Nat) :
    MemoryRegistry × Option (Except Error Response) :=
  match r.parked.find? (·.caller == caller) with
  | none => (r, none)
  | some w =>
    let r := r.unpark caller
    match r.look w.link w.model w.cursor with
    | .error e => (r, some (.error e))
    | .ok (some response) => (r, some (.ok response))
    | .ok none => (r.park w, none)

def close (r : MemoryRegistry) (link : Link) : MemoryRegistry :=
  match r.links[link]? with
  | some l =>
    if l.closed then r
    else { r with
      links := r.links.setIfInBounds link { l with closed := true }
      closes := r.closes + 1 }.announce
  | none => r

def watchCalls (r : MemoryRegistry) (model : ModelId) : List Cursor := r.cursors.getD model []

def openWatches (r : MemoryRegistry) (model : ModelId) : Nat :=
  r.parked.countP (·.model == model)

def ask (r : MemoryRegistry) (now caller : Nat) : Query → MemoryRegistry × Flight
  | .resolve cluster =>
    let (r, reply) := r.resolve cluster
    (r, .timed (some now) (.resolved reply))
  | .dial _ => ({ r with dials := r.dials + 1 }, .held)
  | .request link q =>
    let (r, reply) := r.request link q
    (r, .timed (some now) (.answered reply))
  | .watch link model cursor =>
    match r.watch caller link model cursor with
    | (r, some reply) => (r, .timed (some now) (.changed reply))
    | (r, none) => (r, .parked)
  | .trial _ _ => (r, .timed (some now) (.tried (.ok "null")))

def poll (r : MemoryRegistry) (now caller : Nat) : Flight → MemoryRegistry × Option Reply
  | .timed due reply => (r, if Flight.arrived now due then some reply else none)
  | .connecting _ _ => (r, none)
  | .held =>
    if r.holding then (r, none)
    else
      let (r, reply) := r.connect
      (r, some (.dialed reply))
  | .parked =>
    let (r, reply) := r.lookAgain caller
    (r, reply.map .changed)

end MemoryRegistry

end ModelRegistry
