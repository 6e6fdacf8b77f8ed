import ModelRegistry.Simulation.Begin

/-!
One move of a task: it hears of whatever it waited for and goes on to its next wait. A question is
put, and its reply looked for, in one move; a reply that has come is heard before any limit.
-/

namespace ModelRegistry.Simulation.Run

def answer? : Reply → Option (Except Error Answer)
  | .answered r => some r
  | _ => none

def response? : Reply → Option (Except Error Response)
  | .changed r => some r
  | _ => none

def trial? : Reply → Option (Except Error String)
  | .tried r => some r
  | _ => none

def hearRequest (s : Run) (id : TaskId) (cluster : ClusterId) (r : Request) (call : Call Answer)
    (h : Heard) : Run :=
  let (c, call) := (s.cache.client cluster).call s.now (s.draws cluster) call (h.signal answer?)
  let s := s.putClient c
  match call.stage with
  | .finished result => s.finish id (.answered (result.bind r.conclude))
  | _ => s.setWork id (.request cluster r call)

def handle (s : Run) (link : Link) : Run × Nat :=
  let handles := if link ∈ s.handles then s.handles else s.handles ++ [link]
  ({ s with handles }, handles.idxOf link)

def hearAcquire (s : Run) (id : TaskId) (cluster : ClusterId) (a : Acquisition) (h : Heard) :
    Run :=
  let (c, a) := (s.cache.client cluster).acquire s.now (s.draws cluster) a h.acquisition
  let s := s.putClient c
  match a with
  | .finished (.ok link) =>
    let (s, n) := s.handle link
    s.finish id (.acquired (.ok n))
  | .finished (.error e) => s.finish id (.acquired (.error e))
  | _ => s.setWork id (.acquire cluster a)

def hearTrial (s : Run) (id : TaskId) (cluster : ClusterId) (t : Trial) (h : Heard) : Run :=
  let c := s.cache.client cluster
  let (connection, t) := t.step (c.env s.now (s.draws cluster)) c.connection (h.signal trial?)
  let s := s.putClient (c.stepped connection)
  match t.call.stage with
  | .finished result => s.finish id (.tried result)
  | _ => s.setWork id (.trial cluster t)

def queued (c : Client) (n : Nat) : Nat :=
  (c.subscriptions[n]?.map (·.queue.length)).getD 0

def isSending (c : Client) (n : Nat) : Bool :=
  c.subscriptions[n]?.any (·.producer.isSending)

def hearProduce (s : Run) (id : TaskId) (cluster : ClusterId) (n : Nat) (consumer : TaskId)
    (h : Heard) : Run :=
  let before := s.cache.client cluster
  let after := before.produce s.now (s.draws cluster) n (h.signal response?)
  let s := (s.putClient after).setWork id (.produce cluster n consumer)
  if queued before n < queued after n then s.wake consumer else s

def hearConsume (s : Run) (cluster : ClusterId) (n : Nat) (producer : TaskId) : Run :=
  match (s.cache.client cluster).consume n with
  | some c =>
    let s := s.putClient c
    if isSending c n then s.wake producer else s
  | none => s

def hearDial (s : Run) (id : TaskId) (address : String) : Heard → Run
  | .reply (.dialed (.ok link)) =>
    { s with stubs := s.stubs ++ [link] }.finish id (.dialed (.ok s.stubs.length))
  | .reply (.dialed (.error e)) => s.finish id (.dialed (.error e))
  | _ => s.setWork id (.dial address)

def hearWatch (s : Run) (id : TaskId) : Heard → Run
  | .reply (.changed r) => s.finish id (.changed r)
  | _ => s.finish id .pending

def hear (s : Run) (id : TaskId) (w : Work) (h : Heard) : Run :=
  match w with
  | .step step => s.begin id step
  | .request cluster r call => s.hearRequest id cluster r call h
  | .acquire cluster a => s.hearAcquire id cluster a h
  | .trial cluster t => s.hearTrial id cluster t h
  | .produce cluster n consumer => s.hearProduce id cluster n consumer h
  | .consume cluster n producer => s.hearConsume cluster n producer
  | .sleep _ => s.finish id .none
  | .eventually cluster model size givesUp _ => s.lookAt id cluster model size givesUp
  | .join target => s.finish id (s.known (some target))
  | .dial address => s.hearDial id address h
  | .watch _ _ _ _ => s.hearWatch id h
  | .ended _ _ => s

def goOn (s : Run) (id : TaskId) (w : Work) (h : Heard) : Run :=
  let s := s.hear id w h
  let limited := match s.tasks[id]? with
    | some t => (t.work.limit? s.cache).isSome
    | none => false
  s.clearAlarms id limited

def put (s : Run) (id : TaskId) (flight : Option Flight) (q : Query) : Run × Flight :=
  match flight with
  | some f => (s, f)
  | none =>
    let (b, f) := s.backend.ask s.now id q
    (s.withBackend b, f)

def replyAlarm (f : Flight) : List (Cause × Nat) :=
  match f.due? with
  | some due => [(.reply, due)]
  | none => []

def await (s : Run) (id : TaskId) (t : Task) (q : Query) (limits : List (Cause × Nat)) :
    Run × Bool :=
  let (s, flight) := s.put id t.flight q
  match s.backend.poll s.now id flight with
  | (b, some reply) => ((s.withBackend b).goOn id t.work (.reply reply), true)
  | (b, none) =>
    let s := s.withBackend b
    match limits.find? (fun l => l.2 ≤ s.now) with
    | some (cause, _) =>
      ({ s with backend := s.backend.drop id }.goOn id t.work (.limit cause), true)
    | none =>
      let s := s.setTask id ⟨t.work, some flight⟩
      (s.setAlarms id (replyAlarm flight ++ limits), false)

def move (s : Run) (id : TaskId) : Run × Bool :=
  match s.tasks[id]? with
  | none => (s, false)
  | some t =>
    match s.wait t.work with
    | .nothing => (s.goOn id t.work .proceed, true)
    | .close link => ((s.close link).goOn id t.work .proceed, true)
    | .reply q limits => s.await id t q limits
    | .clock due =>
      if due ≤ s.now then (s.goOn id t.work .proceed, true)
      else (s.setAlarms id [(.pause, due)], false)
    | .idle | .ended => (s, false)

end ModelRegistry.Simulation.Run
