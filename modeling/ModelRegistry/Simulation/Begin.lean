import ModelRegistry.Simulation.Run

namespace ModelRegistry.Simulation.Run

def openClient (s : Run) (id : TaskId) (cluster : ClusterId) : Run :=
  let (s, _) := s.client cluster
  let opened := if cluster ∈ s.opened then s.opened else s.opened ++ [cluster]
  { s with opened }.finish id (.opened (opened.idxOf cluster) cluster s.cache.size)

def request (s : Run) (id : TaskId) (cluster : ClusterId) (r : Request) : Run :=
  let (s, c) := s.client cluster
  s.setWork id (.request cluster r (.start c.retry (some (c.adminDeadline s.now))))

def resolve (s : Run) (id : TaskId) (cluster : ClusterId) (model : ModelId) (want : Nat) :
    Run :=
  let (s, before) := s.client cluster
  match before.lookup true model with
  | .error e => s.finish id (.refused e)
  | .ok (after, replica) =>
    let s := s.putClient after
    let s := if before.started < after.started then
        s.spawnWatch cluster before.subscriptions.size
      else s
    s.finish id (.found ((before.replicaSize? model).getD 0) want replica)

def poison (s : Run) (id : TaskId) (cluster : ClusterId) (unwanted : Link → Bool) : Run :=
  let (s, c) := s.client cluster
  let (connection, discarded) := c.connection.discard unwanted
  let s := s.putClient { c with connection }
  let s := match discarded with
    | some link => s.close link
    | none => s
  s.finish id .none

def startTask (s : Run) (id : TaskId) (name : String) (step : Step) : Run :=
  { s with names := s.names.insert name s.nextTask }.spawn (.step step) |>.finish id .none

def known (s : Run) (task : Option TaskId) : Result :=
  match task.bind (s.tasks[·]?) with
  | some ⟨.ended r time, _⟩ => .ended r time
  | _ => .pending

def release (s : Run) : Work → Run
  | .request cluster _ call =>
    let (s, c) := s.client cluster
    s.putClient { c with connection := call.cancel c.connection }
  | .acquire cluster a =>
    let (s, c) := s.client cluster
    s.putClient { c with connection := a.cancel c.connection }
  | .trial cluster t =>
    let (s, c) := s.client cluster
    s.putClient { c with connection := t.cancel c.connection }
  | _ => s

def cancelTask (s : Run) (task : TaskId) : Run :=
  match s.tasks[task]? with
  | some ⟨.ended _ _, _⟩ | none => s
  | some t =>
    let s := s.release t.work
    { s.clearAlarms task false with
      tasks := s.tasks.erase task
      ready := s.ready.erase task
      backend := s.backend.drop task }

def cancel (s : Run) (id : TaskId) (name : String) : Run :=
  let task := s.names[name]?
  let s := (task.map s.cancelTask).getD s
  s.finish id (s.known task)

def join (s : Run) (id : TaskId) (name : String) : Run :=
  match s.names[name]? with
  | some target => if s.tasks.contains target then s.setWork id (.join target)
    else s.finish id .pending
  | none => s.finish id .pending

def prepare (s : Run) (id : TaskId) (more : Script) : Run :=
  let s := match s.standIn? with
    | some t => s.withStandIn { t with script := t.script.append more }
    | none => s
  s.finish id .none

def watches (s : Run) (id : TaskId) (model : ModelId) : Run :=
  match s.memory? with
  | some r => s.finish id (.watches (r.watchCalls model) (r.openWatches model))
  | none => s.finish id .none

def pollInterval : Nat := 5

def waitLimit : Nat := 5000

def hasSize (s : Run) (cluster : ClusterId) (model : ModelId) (size : Nat) : Bool :=
  (s.cache.client cluster).replicaSize? model == some size

def lookAt (s : Run) (id : TaskId) (cluster : ClusterId) (model : ModelId)
    (size givesUp : Nat) : Run :=
  if s.hasSize cluster model size then s.finish id (.holds true)
  else if givesUp ≤ s.now then s.finish id (.holds false)
  else s.setWork id (.eventually cluster model size givesUp (s.now + pollInterval))

def lookUp (s : Run) (id : TaskId) (cluster : ClusterId) : Run :=
  match s.memory? with
  | some r =>
    let (r, reply) := r.resolve cluster
    (s.withMemory r).finish id (.resolved reply)
  | none => s.finish id .none

def ask (s : Run) (id : TaskId) (stub : Nat) (q : Request) : Run :=
  match s.memory?, s.stubs[stub]? with
  | some r, some link =>
    let (r, reply) := r.request link q
    (s.withMemory r).finish id (.answered reply)
  | _, _ => s.finish id .none

def begin (s : Run) (id : TaskId) : Step → Run
  | .openClient cluster => s.openClient id cluster
  | .request cluster r => s.request id cluster r
  | .resolve cluster model want => s.resolve id cluster model want
  | .acquire cluster => (s.client cluster).1.setWork id (.acquire cluster .entering)
  | .poison cluster => s.poison id cluster (fun _ => true)
  | .poisonIf cluster handle => s.poison id cluster (fun link => s.handles[handle]? == some link)
  | .trial cluster allowed =>
    let (s, c) := s.client cluster
    s.setWork id (.trial cluster (.start c.retry (allowed.map (s.now + ·))))
  | .advance time => s.setWork id (.sleep (s.now + time))
  | .start name step => s.startTask id name step
  | .peek name => s.finish id (s.known s.names[name]?)
  | .join name => s.join id name
  | .cancel name => s.cancel id name
  | .prepare more => s.prepare id more
  | .command c => (s.command c).finish id .none
  | .batch cs => (cs.foldl command s).finish id .none
  | .watches model => s.watches id model
  | .eventually cluster model size =>
    (s.client cluster).1.lookAt id cluster model size (s.now + waitLimit)
  | .lookUp cluster => s.lookUp id cluster
  | .dial address => s.setWork id (.dial address)
  | .ask stub q => s.ask id stub q
  | .close stub =>
    let s := match s.stubs[stub]? with
      | some link => s.close link
      | none => s
    s.finish id .none
  | .watch stub model cursor timeout =>
    match s.stubs[stub]? with
    | some link => s.setWork id (.watch link model cursor (s.now + timeout))
    | none => s.finish id .none

end ModelRegistry.Simulation.Run
