import ModelRegistry.Backend
import ModelRegistry.Cache
import ModelRegistry.Simulation.Step
import ModelRegistry.Trial

namespace ModelRegistry.Simulation

abbrev TaskId := Nat

inductive Work
  | step (s : Step)
  | request (cluster : ClusterId) (r : Request) (call : Call Answer)
  | acquire (cluster : ClusterId) (a : Acquisition)
  | trial (cluster : ClusterId) (t : Trial)
  | produce (cluster : ClusterId) (subscription : Nat) (consumer : TaskId)
  | consume (cluster : ClusterId) (subscription : Nat) (producer : TaskId)
  | sleep (wakes : Nat)
  | eventually (cluster : ClusterId) (model : ModelId) (size givesUp next : Nat)
  | join (target : TaskId)
  | dial (address : String)
  | watch (link : Link) (model : ModelId) (cursor : Cursor) (givesUp : Nat)
  | ended (r : Result) (time : Nat)

structure Task where
  work : Work
  flight : Option Flight

inductive Cause
  | reply
  | dial
  | deadline
  | pause
  deriving DecidableEq, Repr

structure Alarm where
  due : Nat
  task : TaskId
  cause : Cause

/-- What a task waits for. The limits of a question end the wait for its reply, the innermost first;
an idle task waits for another task. -/
inductive Wait
  | nothing
  | close (link : Link)
  | reply (q : Query) (limits : List (Cause × Nat))
  | clock (due : Nat)
  | idle
  | ended

inductive Heard
  | proceed
  | reply (r : Reply)
  | limit (cause : Cause)

namespace Wait

def deadline : Option Nat → List (Cause × Nat)
  | some d => [(.deadline, d)]
  | none => []

def ofAcquisition (cluster : ClusterId) (outer : Option Nat) : Acquisition → Wait
  | .entering => nothing
  | .resolving => reply (.resolve cluster) (deadline outer)
  | .dialing address expires => reply (.dial address) ((.dial, expires) :: deadline outer)
  | .finished _ => ended

def ofCall {α : Type} (cluster : ClusterId) (operation : Link → Query) (call : Call α) : Wait :=
  match call.stage with
  | .acquiring a => ofAcquisition cluster call.deadline a
  | .operating link => reply (operation link) (deadline call.deadline)
  | .failed _ _ => nothing
  | .closing link _ => close link
  | .pausing resumes => clock resumes
  | .finished _ => ended

def ofTrial (cluster : ClusterId) (c : Connection) (t : Trial) : Wait :=
  match t.renewal with
  | some ⟨_, .discarding⟩ => nothing
  | some ⟨_, .closing link⟩ => close link
  | some ⟨_, .acquiring a⟩ => ofAcquisition cluster t.call.deadline a
  | none => ofCall cluster (fun link => .trial link (c == .ready link)) t.call

def ofProducer (c : Client) (s : Subscription) : Wait :=
  match s.producer.stage with
  | .calling call =>
    ofCall c.cluster (fun link => .watch link s.replica.model s.producer.asked) call
  | .sending _ _ =>
    if s.listening && !s.hasRoom c.registry.watchChannelCapacity then idle else nothing
  | .pausing resumes => clock resumes
  | .stopped => ended

def ofConsumer (s : Subscription) : Wait :=
  if !s.listening then ended else if s.queue.isEmpty then idle else nothing

end Wait

namespace Heard

def acquisition : Heard → Acquisition.Signal
  | reply (.resolved r) => .resolved r
  | reply (.dialed r) => .dialed r
  | limit _ => .expired
  | _ => .proceed

def signal {α : Type} (answer : Reply → Option (Except Error α)) : Heard → Call.Signal α
  | proceed => .proceed
  | limit .deadline => .cutOff
  | limit _ => .connect .expired
  | reply (.resolved r) => .connect (.resolved r)
  | reply (.dialed r) => .connect (.dialed r)
  | reply r => (answer r).elim .proceed .answered

end Heard

namespace Work

def limit? (cache : Cache) : Work → Option Nat
  | request _ _ call => call.limit
  | trial _ t => t.call.limit
  | produce cluster n _ =>
    match (cache.client cluster).subscriptions[n]? with
    | some s => match s.producer.stage with
      | .calling call => call.limit
      | _ => none
    | none => none
  | watch _ _ _ givesUp => some givesUp
  | _ => none

def wait (cache : Cache) (hasEnded : TaskId → Bool) : Work → Wait
  | step _ => .nothing
  | request cluster r call => .ofCall cluster (fun link => .request link r) call
  | acquire cluster a => .ofAcquisition cluster none a
  | trial cluster t => .ofTrial cluster (cache.client cluster).connection t
  | produce cluster n _ =>
    let client := cache.client cluster
    match client.subscriptions[n]? with
    | some s => .ofProducer client s
    | none => .ended
  | consume cluster n _ =>
    match (cache.client cluster).subscriptions[n]? with
    | some s => .ofConsumer s
    | none => .ended
  | sleep wakes => .clock wakes
  | eventually _ _ _ _ next => .clock next
  | join target => if hasEnded target then .nothing else .idle
  | dial address => .reply (.dial address) []
  | watch link model cursor givesUp => .reply (.watch link model cursor) [(.deadline, givesUp)]
  | ended _ _ => .ended

end Work

end ModelRegistry.Simulation
