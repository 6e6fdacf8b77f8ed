import ModelRegistry.Acquisition
import ModelRegistry.Backoff

/-!
A call: attempts of one operation, each with a link acquired for it, until one succeeds, fails for
good, or leaves no time for another. A link on which the operation found the registry unavailable is
discarded, if it is still the one kept, and closed in a step of its own.
-/

namespace ModelRegistry

inductive Call.Stage (α : Type)
  | acquiring (acquisition : Acquisition)
  | operating (link : Link)
  | failed (used : Option Link) (e : Error)
  | closing (link : Link) (e : Error)
  | pausing (resumes : Nat)
  | finished (result : Except Error α)

structure Call (α : Type) where
  deadline : Option Nat
  backoff : Backoff
  stage : Call.Stage α

namespace Call

variable {α : Type}

inductive Signal (α : Type)
  | proceed
  | connect (signal : Acquisition.Signal)
  | answered (result : Except Error α)
  | cutOff

def start (retry : RetrySettings) (deadline : Option Nat) : Call α :=
  ⟨deadline, .start retry, .acquiring .entering⟩

def timedOut (cluster : ClusterId) : Error :=
  .deadlineExceeded s!"registry call to {cluster} timed out"

def leavesNoTime (deadline : Option Nat) (now pause : Nat) : Bool :=
  match deadline with
  | some d => d - now ≤ pause
  | none => false

/-- After a failed attempt: an error for good is the result, and so is one after which no time is
left; otherwise another attempt follows a pause. -/
def retry (env : Env) (call : Call α) (e : Error) : Call α :=
  if e.isRetryable then
    let pause := call.backoff.pause env.draw
    let backoff := call.backoff.advance
    if leavesNoTime call.deadline env.now pause then
      { call with backoff, stage := .finished (.error e) }
    else { call with backoff, stage := .pausing (env.now + pause) }
  else { call with stage := .finished (.error e) }

def afterAcquisition : Acquisition → Stage α
  | .finished (.ok link) => .operating link
  | .finished (.error e) => .failed none e
  | a => .acquiring a

def acquire (env : Env) (c : Connection) (call : Call α) (a : Acquisition)
    (signal : Acquisition.Signal) : Connection × Call α :=
  let (c, a) := a.step env c signal
  (c, { call with stage := afterAcquisition a })

def brokenLink (used : Option Link) (e : Error) (link : Link) : Bool :=
  e.breaksConnection && used == some link

def step (env : Env) (c : Connection) (call : Call α) (signal : Signal α) : Connection × Call α :=
  match call.stage, signal with
  | .acquiring a, .proceed => call.acquire env c a .proceed
  | .acquiring a, .connect s => call.acquire env c a s
  | .acquiring a, .cutOff =>
    (a.cancel c, { call with stage := .failed none (timedOut env.cluster) })
  | .operating _, .answered (.ok v) => (c, { call with stage := .finished (.ok v) })
  | .operating link, .answered (.error e) => (c, { call with stage := .failed (some link) e })
  | .operating link, .cutOff =>
    (c, { call with stage := .failed (some link) (timedOut env.cluster) })
  | .failed used e, .proceed =>
    match c.discard (brokenLink used e) with
    | (c, some link) => (c, { call with stage := .closing link e })
    | (c, none) => (c, call.retry env e)
  | .closing _ e, .proceed => (c, call.retry env e)
  | .pausing _, .proceed => (c, { call with stage := .acquiring .entering })
  | _, _ => (c, call)

def cancel (c : Connection) (call : Call α) : Connection :=
  match call.stage with
  | .acquiring a => a.cancel c
  | _ => c

def limit (call : Call α) : Option Nat :=
  match call.stage with
  | .acquiring _ | .operating _ => call.deadline
  | _ => none

end Call

end ModelRegistry
