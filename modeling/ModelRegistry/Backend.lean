import ModelRegistry.AddressTable
import ModelRegistry.MemoryRegistry
import ModelRegistry.StandIn

namespace ModelRegistry

inductive Collaborators
  | standIn (s : StandIn)
  | memory (r : MemoryRegistry)

structure Backend where
  table : Option AddressTable
  collaborators : Collaborators

namespace Collaborators

def ask (c : Collaborators) (now caller : Nat) (q : Query) : Collaborators × Flight :=
  match c with
  | standIn s =>
    let (s, flight) := s.ask now q
    (standIn s, flight)
  | memory r =>
    let (r, flight) := r.ask now caller q
    (memory r, flight)

def poll (c : Collaborators) (now caller : Nat) (flight : Flight) : Collaborators × Option Reply :=
  match c with
  | standIn s =>
    let (s, reply) := s.poll now flight
    (standIn s, reply)
  | memory r =>
    let (r, reply) := r.poll now caller flight
    (memory r, reply)

def drop (c : Collaborators) (caller : Nat) : Collaborators :=
  match c with
  | standIn s => standIn s
  | memory r => memory (r.unpark caller)

def close (c : Collaborators) (now : Nat) (link : Link) : Collaborators :=
  match c with
  | standIn s => standIn (s.noteClose now link)
  | memory r => memory (r.close link)

def announcements : Collaborators → Nat
  | standIn _ => 0
  | memory r => r.announcements

def parkedCallers : Collaborators → List Nat
  | standIn _ => []
  | memory r => r.parked.map (·.caller)

end Collaborators

namespace Backend

def ask (b : Backend) (now caller : Nat) (q : Query) : Backend × Flight :=
  match b.table, q with
  | some table, .resolve cluster => (b, .timed (some now) (.resolved (table.resolve cluster)))
  | _, _ =>
    let (collaborators, flight) := b.collaborators.ask now caller q
    ({ b with collaborators }, flight)

def poll (b : Backend) (now caller : Nat) (flight : Flight) : Backend × Option Reply :=
  let (collaborators, reply) := b.collaborators.poll now caller flight
  ({ b with collaborators }, reply)

def drop (b : Backend) (caller : Nat) : Backend :=
  { b with collaborators := b.collaborators.drop caller }

def close (b : Backend) (now : Nat) (link : Link) : Backend :=
  { b with collaborators := b.collaborators.close now link }

end Backend

end ModelRegistry
