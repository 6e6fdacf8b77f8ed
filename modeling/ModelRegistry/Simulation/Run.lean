import ModelRegistry.Simulation.Task

/-!
A system of tasks in virtual time: clients, their collaborators, the tasks that are ready to go on,
and the alarms that will make others ready. Task 0 is the one that carries out the steps of the run;
it is not queued with the others.
-/

namespace ModelRegistry.Simulation

structure Run where
  now : Nat
  cache : Cache
  backend : Backend
  draws : ClusterId → Draws
  tasks : Std.ExtTreeMap TaskId Task
  nextTask : TaskId
  ready : List TaskId
  mainReady : Bool
  alarms : List Alarm
  names : Std.ExtTreeMap String TaskId
  opened : List ClusterId
  handles : List Link
  stubs : List Link

namespace Run

def main : TaskId := 0

def new (cache : Cache) (backend : Backend) (draws : ClusterId → Draws) : Run where
  now := 0
  cache
  backend
  draws
  tasks := ∅
  nextTask := 1
  ready := []
  mainReady := false
  alarms := []
  names := ∅
  opened := []
  handles := []
  stubs := []

def wake (s : Run) (id : TaskId) : Run :=
  if id = main then { s with mainReady := true }
  else if id ∈ s.ready then s
  else { s with ready := s.ready ++ [id] }

def wakeAll (s : Run) (ids : List TaskId) : Run := ids.foldl wake s

def setTask (s : Run) (id : TaskId) (t : Task) : Run := { s with tasks := s.tasks.insert id t }

def setWork (s : Run) (id : TaskId) (w : Work) : Run := s.setTask id ⟨w, none⟩

def spawn (s : Run) (w : Work) : Run :=
  { s.setWork s.nextTask w with nextTask := s.nextTask + 1 }.wake s.nextTask

def hasEnded (s : Run) (id : TaskId) : Bool :=
  match s.tasks[id]? with
  | some ⟨.ended _ _, _⟩ => true
  | _ => false

def tasksWith (s : Run) (p : Task → Bool) : List TaskId :=
  (s.tasks.toList.filter (p ·.2)).map (·.1)

def isJoin (target : TaskId) (t : Task) : Bool :=
  match t.work with
  | .join id => id == target
  | _ => false

def isHeld (t : Task) : Bool :=
  match t.flight with
  | some .held => true
  | _ => false

def finish (s : Run) (id : TaskId) (r : Result) : Run :=
  (s.setWork id (.ended r s.now)).wakeAll (s.tasksWith (isJoin id))

def wait (s : Run) (w : Work) : Wait := w.wait s.cache s.hasEnded

def setAlarms (s : Run) (id : TaskId) (wanted : List (Cause × Nat)) : Run :=
  let isSet (w : Cause × Nat) : Bool := s.alarms.any (fun a => a.task == id && a.cause == w.1)
  let missing := (wanted.filter (fun w => !isSet w)).map (fun w => ⟨w.2, id, w.1⟩)
  { s with alarms := s.alarms ++ missing }

def clearAlarms (s : Run) (id : TaskId) (limited : Bool) : Run :=
  { s with alarms := s.alarms.filter (fun a => a.task != id || (limited && a.cause == .deadline)) }

def tellParked (s : Run) (announcements : Nat) : Run :=
  let c := s.backend.collaborators
  if c.announcements = announcements then s else s.wakeAll c.parkedCallers

def withBackend (s : Run) (b : Backend) : Run :=
  { s with backend := b }.tellParked s.backend.collaborators.announcements

def close (s : Run) (link : Link) : Run := s.withBackend (s.backend.close s.now link)

def putClient (s : Run) (c : Client) : Run := { s with cache := s.cache.put c }

def client (s : Run) (cluster : ClusterId) : Run × Client :=
  let (cache, c) := s.cache.getOrCreate cluster
  ({ s with cache }, c)

def spawnWatch (s : Run) (cluster : ClusterId) (n : Nat) : Run :=
  (s.spawn (.produce cluster n (s.nextTask + 1))).spawn (.consume cluster n s.nextTask)

def memory? (s : Run) : Option MemoryRegistry :=
  match s.backend.collaborators with
  | .memory r => some r
  | .standIn _ => none

def withMemory (s : Run) (r : MemoryRegistry) : Run :=
  s.withBackend { s.backend with collaborators := .memory r }

def standIn? (s : Run) : Option StandIn :=
  match s.backend.collaborators with
  | .standIn t => some t
  | .memory _ => none

def withStandIn (s : Run) (t : StandIn) : Run :=
  s.withBackend { s.backend with collaborators := .standIn t }

def movesGate : MemoryRegistry.Command → Bool
  | .holdDials | .releaseDials => true
  | _ => false

def command (s : Run) (c : MemoryRegistry.Command) : Run :=
  match s.memory? with
  | some r =>
    let s := s.withMemory (r.command c)
    if movesGate c then s.wakeAll (s.tasksWith isHeld) else s
  | none => s

def jump (s : Run) : Option Run :=
  match (s.alarms.map (·.due)).min? with
  | some due =>
    let (off, alarms) := s.alarms.partition (fun a => a.due ≤ due)
    some ({ s with now := max s.now due, alarms }.wakeAll (off.map Alarm.task))
  | none => none

end Run

end ModelRegistry.Simulation
