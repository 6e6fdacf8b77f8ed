import ModelRegistry.Call
import ModelRegistry.Replica

/-!
The watch of one model: a producer asks the registry for changes and puts them into a bounded queue,
a consumer applies them to the replica. The producer asks from its cursor only in the first attempt
after a success; any failure makes it ask for the whole set again.
-/

namespace ModelRegistry

inductive Update
  | batch (b : DiffBatch)
  | gone (reason : Error)

inductive Producer.Stage
  | calling (call : Call Response)
  | sending (update : Update) (next : Cursor)
  | pausing (resumes : Nat)
  | stopped

structure Producer where
  /-- The cursor of the last answer that was queued, empty after a failure. -/
  cursor : Cursor
  /-- The next request of the call under way may use the cursor. -/
  fresh : Bool
  asked : Cursor
  stage : Producer.Stage

structure Subscription where
  replica : Replica
  queue : List Update
  listening : Bool
  producer : Producer

namespace Producer

def start (retry : RetrySettings) : Producer :=
  ⟨.empty, true, .empty, .calling (.start retry none)⟩

def isSending (p : Producer) : Bool :=
  match p.stage with
  | .sending _ _ => true
  | _ => false

def resume (retry : RetrySettings) (p : Producer) : Producer :=
  { p with fresh := true, stage := .calling (.start retry none) }

def ask (p : Producer) : Producer :=
  { p with asked := if p.fresh then p.cursor else .empty, fresh := false }

def begins : Call.Stage Response → Call.Stage Response → Bool
  | .acquiring _, .operating _ => true
  | _, _ => false

def conclude (env : Env) (p : Producer) : Except Error Response → Producer
  | .ok r => { p with stage := .sending (.batch r.batch) r.next }
  | .error e =>
    if e.isNotFound then { p with stage := .sending (.gone e) p.cursor }
    else { p with cursor := .empty, stage := .pausing (env.now + env.registry.watchRetryDelay) }

def follow (env : Env) (p : Producer) (before : Call.Stage Response) (call : Call Response) :
    Producer :=
  let p := if begins before call.stage then p.ask else p
  match call.stage with
  | .finished result => p.conclude env result
  | _ => { p with stage := .calling call }

end Producer

namespace Subscription

def start (retry : RetrySettings) (model : ModelId) : Subscription :=
  ⟨.new model, [], true, .start retry⟩

def hasRoom (capacity : Nat) (s : Subscription) : Bool := s.queue.length < capacity

/-- Queues what the producer holds ready; without a consumer the producer stops. -/
def send (retry : RetrySettings) (s : Subscription) (update : Update) (next : Cursor) :
    Subscription :=
  if s.listening then
    { s with
      queue := s.queue ++ [update]
      producer := match update with
        | .batch _ => { s.producer with cursor := next }.resume retry
        | .gone _ => { s.producer with stage := .stopped } }
  else { s with producer := { s.producer with stage := .stopped } }

def produce (env : Env) (c : Connection) (s : Subscription) (signal : Call.Signal Response) :
    Connection × Subscription :=
  match s.producer.stage, signal with
  | .calling call, _ =>
    let (c, next) := call.step env c signal
    (c, { s with producer := s.producer.follow env call.stage next })
  | .sending update next, .proceed =>
    if s.listening && !s.hasRoom env.registry.watchChannelCapacity then (c, s)
    else (c, s.send env.retry update next)
  | .pausing _, .proceed => (c, { s with producer := s.producer.resume env.retry })
  | _, _ => (c, s)

def consume (s : Subscription) : Option (Update × Subscription) :=
  if s.listening then
    match s.queue with
    | [] => none
    | .batch b :: rest =>
      some (.batch b, { s with replica := s.replica.apply b, queue := rest })
    | .gone e :: rest => some (.gone e, { s with queue := rest, listening := false })
  else none

end Subscription

end ModelRegistry
