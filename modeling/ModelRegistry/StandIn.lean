import Std.Data.ExtTreeMap
import ModelRegistry.Exchange

/-!
A stand-in for all collaborators of a client. It replies from queues prepared in advance, each reply
after a time of its own, and logs every question. An empty queue gives a usual reply.
-/

namespace ModelRegistry

structure Cue (α : Type) where
  after : Nat
  outcome : Option (Except Error α)

structure Script where
  resolve : List (Cue String)
  dial : List (Cue Unit)
  publish : List (Cue Unit)
  update : List (Cue Unit)
  unpublish : List (Cue Unit)
  list : List (Cue (List PublishedModel))
  stats : List (Cue ClusterStats)
  watch : Std.ExtTreeMap ModelId (List (Cue Response))
  trial : List (Cue String)

structure StandIn where
  script : Script
  links : Nat
  log : Array (Nat × Query)
  closed : Array (Nat × Link)

namespace Cue

variable {α : Type}

def now (v : α) : Cue α := ⟨0, some (.ok v)⟩

def never : Cue α := ⟨0, none⟩

def next (usual : Cue α) : List (Cue α) → Cue α × List (Cue α)
  | [] => (usual, [])
  | cue :: rest => (cue, rest)

def flight (now : Nat) (cue : Cue α) (reply : Except Error α → Reply) : Flight :=
  match cue.outcome with
  | some outcome => .timed (some (now + cue.after)) (reply outcome)
  | none => .timed none (reply (.error (.internal "")))

end Cue

namespace Script

def empty : Script := ⟨[], [], [], [], [], [], [], ∅, []⟩

instance : Inhabited Script := ⟨empty⟩

def cues (s : Script) (model : ModelId) : List (Cue Response) := s.watch.getD model []

def append (s more : Script) : Script where
  resolve := s.resolve ++ more.resolve
  dial := s.dial ++ more.dial
  publish := s.publish ++ more.publish
  update := s.update ++ more.update
  unpublish := s.unpublish ++ more.unpublish
  list := s.list ++ more.list
  stats := s.stats ++ more.stats
  watch := more.watch.foldl (fun w model cues => w.insert model (s.cues model ++ cues)) s.watch
  trial := s.trial ++ more.trial

end Script

namespace StandIn

def new (script : Script) : StandIn := ⟨script, 0, #[], #[]⟩

def note (s : StandIn) (now : Nat) (q : Query) : StandIn := { s with log := s.log.push (now, q) }

def noteClose (s : StandIn) (now : Nat) (link : Link) : StandIn :=
  { s with closed := s.closed.push (now, link) }

def clearLog (s : StandIn) : StandIn := { s with log := #[], closed := #[] }

def done (_ : Unit) : Answer := .done

def answered {α : Type} (answer : α → Answer) (outcome : Except Error α) : Reply :=
  .answered (outcome.map answer)

def reply (s : Script) (now : Nat) : Query → Script × Flight
  | .resolve cluster =>
    let (cue, resolve) := Cue.next (.now s!"addr:{cluster}") s.resolve
    ({ s with resolve }, cue.flight now .resolved)
  | .dial _ =>
    let (cue, dial) := Cue.next (.now ()) s.dial
    ({ s with dial }, match cue.outcome with
      | some outcome => .connecting (some (now + cue.after)) outcome
      | none => .connecting none (.ok ()))
  | .request _ (.publish _) =>
    let (cue, publish) := Cue.next (.now ()) s.publish
    ({ s with publish }, cue.flight now (answered done))
  | .request _ (.update _) =>
    let (cue, update) := Cue.next (.now ()) s.update
    ({ s with update }, cue.flight now (answered done))
  | .request _ (.unpublish _) =>
    let (cue, unpublish) := Cue.next (.now ()) s.unpublish
    ({ s with unpublish }, cue.flight now (answered done))
  | .request _ (.list _) | .request _ .listAll =>
    let (cue, list) := Cue.next (.now []) s.list
    ({ s with list }, cue.flight now (answered .models))
  | .request _ (.stats _) =>
    let (cue, stats) := Cue.next (.now ⟨[]⟩) s.stats
    ({ s with stats }, cue.flight now (answered .stats))
  | .watch _ model _ =>
    let (cue, rest) := Cue.next .never (s.cues model)
    ({ s with watch := s.watch.insert model rest }, cue.flight now .changed)
  | .trial _ _ =>
    let (cue, trial) := Cue.next (.now "\"end\"") s.trial
    ({ s with trial }, cue.flight now .tried)

def ask (s : StandIn) (now : Nat) (q : Query) : StandIn × Flight :=
  let (script, flight) := reply s.script now q
  ({ s.note now q with script }, flight)

def connect (s : StandIn) : Except Error Unit → StandIn × Except Error Link
  | .ok () => ({ s with links := s.links + 1 }, .ok (s.links + 1))
  | .error e => (s, .error e)

def poll (s : StandIn) (now : Nat) : Flight → StandIn × Option Reply
  | .timed due reply => (s, if Flight.arrived now due then some reply else none)
  | .connecting due outcome =>
    if Flight.arrived now due then
      let (s, r) := s.connect outcome
      (s, some (.dialed r))
    else (s, none)
  | .held | .parked => (s, none)

end StandIn

end ModelRegistry
