import ModelRegistry.Proofs.Sessions
import ModelRegistry.Proofs.Spawning

namespace ModelRegistry.Simulation.Run

open MemoryRegistry

variable {lax : Prop}

theorem Apt.openClient {s : Run} {running : Option TaskId} {id : TaskId} (h : s.Apt lax running id)
    (cluster : ClusterId) : (s.openClient id cluster).Apt lax running id := by
  unfold Run.openClient
  cases hc : s.client cluster with
  | mk s' c =>
    exact ((h.client hc).1.inert (inert_books id s' s'.alarms _ s'.handles s'.stubs)).finish _

theorem Apt.poison {s : Run} {running : Option TaskId} {id : TaskId} (h : s.Apt lax running id)
    (cluster : ClusterId) (unwanted : Link → Bool) :
    (s.poison id cluster unwanted).Apt lax running id := by
  unfold Run.poison
  cases hc : s.client cluster with
  | mk s' c =>
    obtain ⟨h', rfl, -⟩ := h.client hc
    cases hd : (s'.cache.client cluster).connection.discard unwanted with
    | mk connection discarded =>
      simp only [hd]
      have hput : (s'.putClient { s'.cache.client cluster with connection }).Apt lax running id :=
        h'.putClient rfl rfl
      cases discarded with
      | none => exact hput.finish _
      | some link => exact (hput.close link).finish _

theorem Apt.lookAt {s : Run} {running : Option TaskId} {id : TaskId} (h : s.Apt lax running id)
    (cluster : ClusterId) (model : ModelId) (size givesUp : Nat) :
    (s.lookAt id cluster model size givesUp).Apt lax running id := by
  unfold Run.lookAt
  split
  · exact h.finish _
  · split
    · exact h.finish _
    · exact h.setWork rfl

theorem Apt.resolve {s : Run} {running : Option TaskId} {id : TaskId} (h : s.Apt lax running id)
    (cluster : ClusterId) (model : ModelId) (want : Nat) :
    (s.resolve id cluster model want).Apt lax running id := by
  unfold Run.resolve
  cases hc : s.client cluster with
  | mk s' c =>
    obtain ⟨h', rfl, -⟩ := h.client hc
    cases hl : (s'.cache.client cluster).lookup true model with
    | error e =>
      simp only [hl]
      exact h'.finish _
    | ok found =>
      obtain ⟨after, replica⟩ := found
      simp only [hl]
      refine Apt.finish ?_ _
      rcases Client.lookup_cases hl with rfl | ⟨-, rfl⟩
      · rw [if_neg (Nat.lt_irrefl _)]
        exact h'.putClient rfl rfl
      · have hlt : (s'.cache.client cluster).started <
            ((s'.cache.client cluster).subscribe model).started := Nat.lt_succ_self _
        rw [if_pos hlt]
        exact h'.subscribe cluster model

def Vacant (s : Run) (model : ModelId) : Prop :=
  ∀ r, s.memory? = some r → MemoryRegistry.Clear (Holds s.sub) r model

def Admits (s : Run) : Command → Prop
  | .publish model _ => s.Vacant model.id
  | _ => True

def AdmitsAll (s : Run) : List Command → Prop
  | [] => True
  | c :: cs => s.Admits c ∧ AdmitsAll (s.command c) cs

def AdmitsRequest (s : Run) : Request → Prop
  | .publish model => (∃ r, s.memory? = some r ∧ r.entries.contains model.id) ∨ s.Vacant model.id
  | _ => True

def AdmitsWork (s : Run) : Work → Prop
  | .step (.command c) => s.Admits c
  | .step (.batch cs) => s.AdmitsAll cs
  | .step (.ask _ q) => s.AdmitsRequest q
  | .request _ q call => ∀ link, call.stage = .operating link → s.AdmitsRequest q
  | _ => True

def Lets (lax : Prop) (s : Run) (c : Command) : Prop :=
  ∀ r, s.memory? = some r → MemoryRegistry.Lets lax (Holds s.sub) r c

def LetsAll (lax : Prop) (s : Run) : List Command → Prop
  | [] => True
  | c :: cs => s.Lets lax c ∧ LetsAll lax (s.command c) cs

def LetsRequest (lax : Prop) (s : Run) : Request → Prop
  | .publish model => ∀ r, s.memory? = some r →
    r.entries.contains model.id ∨ Lapsed lax (Holds s.sub) r model.id
  | _ => True

/-- After the move of a task no cursor of an earlier log of the same process is held that lies in
the present log; if `lax` holds such cursors may lie beyond it, otherwise there is none. -/
def LetsWork (lax : Prop) (s : Run) : Work → Prop
  | .step (.command c) => s.Lets lax c
  | .step (.batch cs) => s.LetsAll lax cs
  | .step (.ask _ q) => s.LetsRequest lax q
  | .request _ q call => ∀ link, call.stage = .operating link → s.LetsRequest lax q
  | _ => True

theorem lets_of_admits {s : Run} {c : Command} (h : s.Admits c) : s.Lets False c := by
  intro r hr
  cases c with
  | publish model addresses => exact (h r hr).lapsed
  | addAddress id address => exact False.elim
  | removeAddress id address => exact False.elim
  | _ => exact trivial

theorem letsAll_of_admitsAll {s : Run} {cs : List Command} (h : s.AdmitsAll cs) :
    s.LetsAll False cs := by
  induction cs generalizing s with
  | nil => exact trivial
  | cons c cs ih => exact ⟨lets_of_admits h.1, ih h.2⟩

theorem letsRequest_of_admitsRequest {s : Run} {q : Request} (h : s.AdmitsRequest q) :
    s.LetsRequest False q := by
  cases q with
  | publish model =>
    intro r hr
    rcases h with ⟨r', hr', hc⟩ | hv
    · obtain rfl : r = r' := Option.some.inj (hr.symm.trans hr')
      exact .inl hc
    · exact .inr (hv r hr).lapsed
  | _ => exact trivial

theorem letsWork_of_admitsWork {s : Run} {w : Work} (h : s.AdmitsWork w) :
    s.LetsWork False w := by
  cases w with
  | step step =>
    cases step with
    | command c => exact lets_of_admits h
    | batch cs => exact letsAll_of_admitsAll h
    | ask stub q => exact letsRequest_of_admitsRequest h
    | _ => exact trivial
  | request cluster q call => exact fun link hlink => letsRequest_of_admitsRequest (h link hlink)
  | _ => exact trivial

theorem memory?_of_order {s : Run} {r : MemoryRegistry}
    (hr : s.backend.collaborators = .memory r) : s.memory? = some r := by
  rw [memory?, hr]

theorem lapsed_of_letsRequest {s : Run} {q : Request} (h : s.LetsRequest lax q)
    {r : MemoryRegistry} (hr : s.memory? = some r) (model : Model) (hq : q = .publish model) :
    r.entries.contains model.id ∨ Lapsed lax (Holds s.sub) r model.id := by
  subst hq
  exact h r hr

theorem Apt.command {s : Run} {running : Option TaskId} {id : TaskId} (h : s.Apt lax running id)
    {c : Command} (hc : s.Lets lax c) : (s.command c).Apt lax running id := by
  obtain ⟨r, hr, hd, -⟩ := h.1.order
  have hm := memory?_of_order hr
  have hkeeps : Keeps lax (Holds s.sub) r (r.command c) := keeps_command hd c (hc r hm)
  have h' := h.withMemory hm hkeeps
  unfold Run.command
  rw [hm]
  simp only
  split
  · exact h'.inert (inert_wakeAll id _ _)
  · exact h'

theorem Apt.commands {s : Run} {running : Option TaskId} {id : TaskId} (h : s.Apt lax running id)
    {cs : List Command} (hcs : s.LetsAll lax cs) : (cs.foldl Run.command s).Apt lax running id := by
  induction cs generalizing s with
  | nil => exact h
  | cons c cs ih => exact ih (h.command hcs.1) hcs.2

theorem Apt.cancel {s : Run} {running : Option TaskId} {id : TaskId} (h : s.Apt lax running id)
    (name : String) : (s.cancel id name).Apt lax running id := by
  unfold Run.cancel
  refine Apt.finish ?_ _
  cases hn : s.names[name]? with
  | none => exact h
  | some task => exact h.cancelTask (h.1.named task (.inr ⟨name, hn⟩)).2

theorem Apt.join {s : Run} {running : Option TaskId} {id : TaskId} (h : s.Apt lax running id)
    (name : String) : (s.join id name).Apt lax running id := by
  unfold Run.join
  split
  · split
    · exact h.setWork rfl
    · exact h.finish _
  · exact h.finish _

theorem Apt.prepare {s : Run} {running : Option TaskId} {id : TaskId} (h : s.Apt lax running id)
    (more : Script) : (s.prepare id more).Apt lax running id := by
  obtain ⟨r, hr, -⟩ := h.1.order
  have hnone : s.standIn? = none := by rw [standIn?, hr]
  unfold Run.prepare
  rw [hnone]
  exact h.finish _

theorem Apt.begin {s : Run} {running : Option TaskId} {id : TaskId} (h : s.Apt lax running id)
    {step : Step} (hstep : s.LetsWork lax (.step step)) : (s.begin id step).Apt lax running id := by
  obtain ⟨r, hr, hd, -⟩ := h.1.order
  have hm := memory?_of_order hr
  cases step with
  | openClient cluster => exact h.openClient cluster
  | request cluster q =>
    cases hc : s.client cluster with
    | mk s' c =>
      simp only [Run.begin, Run.request, hc]
      exact (h.client hc).1.setWork rfl
  | resolve cluster model want => exact h.resolve cluster model want
  | acquire cluster => exact (h.inert (inert_client id s cluster)).setWork rfl
  | poison cluster => exact h.poison cluster _
  | poisonIf cluster handle => exact h.poison cluster _
  | trial cluster allowed =>
    cases hc : s.client cluster with
    | mk s' c =>
      simp only [Run.begin, hc]
      exact (h.client hc).1.setWork rfl
  | advance time => exact h.setWork rfl
  | start name step => exact h.startTask name step
  | peek name => exact h.finish _
  | join name => exact h.join name
  | cancel name => exact h.cancel name
  | prepare more => exact h.prepare more
  | command c => exact (h.command hstep).finish _
  | batch cs => exact (h.commands hstep).finish _
  | watches model =>
    simp only [Run.begin, Run.watches, hm]
    exact h.finish _
  | eventually cluster model size => exact (h.inert (inert_client id s cluster)).lookAt _ _ _ _
  | lookUp cluster =>
    simp only [Run.begin, Run.lookUp, hm]
    exact (h.withMemory hm (keeps_resolve r cluster)).finish _
  | dial address => exact h.setWork rfl
  | ask stub q =>
    simp only [Run.begin, Run.ask, hm]
    cases hstub : s.stubs[stub]? with
    | none => exact h.finish _
    | some link =>
      exact (h.withMemory hm (keeps_request (lapsed_of_letsRequest hstep hm))).finish _
  | close stub =>
    simp only [Run.begin]
    cases hstub : s.stubs[stub]? with
    | none => exact h.finish _
    | some link => exact (h.close link).finish _
  | watch stub model cursor timeout =>
    simp only [Run.begin]
    cases hstub : s.stubs[stub]? with
    | none => exact h.finish _
    | some link => exact h.setWork rfl

end ModelRegistry.Simulation.Run
