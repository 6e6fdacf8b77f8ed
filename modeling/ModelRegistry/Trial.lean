import ModelRegistry.Call

/-!
A call made to exercise attempts and pauses alone: its operation gives a prepared reply. An
operation that fails with a text that asks for a swap renews the connection before it fails, so that
the call meets a link other than the one that it used.
-/

namespace ModelRegistry

inductive Renewal.Stage
  | discarding
  | closing (link : Link)
  | acquiring (acquisition : Acquisition)

structure Renewal where
  cause : Error
  stage : Renewal.Stage

structure Trial where
  call : Call String
  renewal : Option Renewal

namespace Trial

def start (retry : RetrySettings) (deadline : Option Nat) : Trial := ⟨.start retry deadline, none⟩

def asksForSwap (e : Error) : Bool := e.message.contains "swap"

def conclude (env : Env) (c : Connection) (t : Trial) (e : Error) : Connection × Trial :=
  let (c, call) := t.call.step env c (.answered (.error e))
  (c, ⟨call, none⟩)

def acquire (env : Env) (c : Connection) (t : Trial) (cause : Error) (a : Acquisition)
    (signal : Acquisition.Signal) : Connection × Trial :=
  match a.step env c signal with
  | (c, .finished (.ok _)) => t.conclude env c cause
  | (c, .finished (.error e)) => t.conclude env c e
  | (c, a) => (c, { t with renewal := some ⟨cause, .acquiring a⟩ })

def cancelRenewal (c : Connection) : Option Renewal → Connection
  | some ⟨_, .acquiring a⟩ => a.cancel c
  | _ => c

def renew (env : Env) (c : Connection) (t : Trial) (r : Renewal) (signal : Call.Signal String) :
    Connection × Trial :=
  match r.stage, signal with
  | .discarding, .proceed =>
    match c.discard (fun _ => true) with
    | (c, some link) => (c, { t with renewal := some ⟨r.cause, .closing link⟩ })
    | (c, none) => (c, { t with renewal := some ⟨r.cause, .acquiring .entering⟩ })
  | .closing _, .proceed => (c, { t with renewal := some ⟨r.cause, .acquiring .entering⟩ })
  | .acquiring a, .proceed => t.acquire env c r.cause a .proceed
  | .acquiring a, .connect s => t.acquire env c r.cause a s
  | _, .cutOff =>
    let (c, call) := t.call.step env (cancelRenewal c t.renewal) .cutOff
    (c, ⟨call, none⟩)
  | _, _ => (c, t)

def step (env : Env) (c : Connection) (t : Trial) (signal : Call.Signal String) :
    Connection × Trial :=
  match t.renewal, t.call.stage, signal with
  | some r, _, _ => t.renew env c r signal
  | none, .operating _, .answered (.error e) =>
    if asksForSwap e then (c, { t with renewal := some ⟨e, .discarding⟩ })
    else t.conclude env c e
  | none, _, _ =>
    let (c, call) := t.call.step env c signal
    (c, { t with call })

def cancel (c : Connection) (t : Trial) : Connection :=
  t.call.cancel (cancelRenewal c t.renewal)

end Trial

end ModelRegistry
