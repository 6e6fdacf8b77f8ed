import ModelRegistry.Simulation.Move

namespace ModelRegistry.Simulation.Run

def fuel : Nat := 1000000000

def poll : Nat → Run → TaskId → Run
  | 0, s, id => s.wake id
  | n + 1, s, id =>
    match s.move id with
    | (s, true) => poll n s id
    | (s, false) => s

def drain : Nat → Run → Run
  | 0, s => s
  | n + 1, s =>
    match s.ready with
    | [] => s
    | id :: rest => drain n (poll fuel { s with ready := rest } id)

def pollMain (s : Run) : Run :=
  if s.mainReady then poll fuel { s with mainReady := false } main else s

def awaitMain : Nat → Run → Run
  | 0, s => s
  | n + 1, s =>
    let s := s.pollMain
    if s.hasEnded main then s
    else
      let s := drain fuel s
      if s.mainReady then awaitMain n s
      else match s.jump with
        | some s => awaitMain n s
        | none => s

def resultOf (s : Run) (id : TaskId) : Result :=
  match s.tasks[id]? with
  | some ⟨.ended r _, _⟩ => r
  | _ => .pending

def perform (s : Run) (step : Step) : Run × Result :=
  let s := awaitMain fuel { s.setWork main (.step step) with mainReady := true }
  (drain fuel s, s.resultOf main)

end ModelRegistry.Simulation.Run
