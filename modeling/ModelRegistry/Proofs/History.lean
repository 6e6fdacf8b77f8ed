import ModelRegistry.Proofs.Convergence
import ModelRegistry.Proofs.Sparing

namespace ModelRegistry.Simulation

inductive Occurrence
  | called (id : TaskId) (q : Request)
  | returned (id : TaskId) (q : Request) (result : Except Error Answer)
  | asked (id : TaskId) (q : Request) (reply : Except Error Answer)
  | operated (c : MemoryRegistry.Command)

abbrev History := List Occurrence

namespace Occurrence

/-- What happens to a table. A call acts where it returns, all at once, and only if it succeeds. -/
def Acts : Occurrence → Catalog → Catalog → Prop
  | called _ _, t, t' => t' = t
  | returned _ q result, t, t' => t.Yields q result t'
  | asked _ q reply, t, t' => t.Yields q (reply.bind q.conclude) t'
  | operated c, t, t' => t' = t.operate c

def caller? : Occurrence → Option TaskId
  | called id _ | returned id _ _ | asked id _ _ => some id
  | operated _ => none

end Occurrence

namespace History

def Leads : History → Catalog → Catalog → Prop
  | [], t, t' => t' = t
  | o :: h, t, t' => ∃ u, o.Acts t u ∧ Leads h u t'

theorem Leads.append {h h' : History} {t u v : Catalog} (hl : h.Leads t u) (hl' : h'.Leads u v) :
    Leads (h ++ h') t v := by
  induction h generalizing t with
  | nil =>
    obtain rfl : u = t := hl
    exact hl'
  | cons o h ih =>
    obtain ⟨w, ho, hw⟩ := hl
    exact ⟨w, ho, ih hw⟩

theorem leads_operated (cs : List MemoryRegistry.Command) (t : Catalog) :
    Leads (cs.map .operated) t (cs.foldl Catalog.operate t) := by
  induction cs generalizing t with
  | nil => rfl
  | cons c cs ih => exact ⟨_, rfl, ih _⟩

def latest (h : History) (id : TaskId) : Option Occurrence :=
  (h.filter (·.caller? == some id)).getLast?

theorem latest_append_of_ne {h h' : History} {id : TaskId}
    (hne : ∀ o ∈ h', o.caller? ≠ some id) : latest (h ++ h') id = h.latest id := by
  have hnil : h'.filter (·.caller? == some id) = [] := by
    rw [List.filter_eq_nil_iff]
    intro o ho
    simpa using hne o ho
  rw [latest, List.filter_append, hnil, List.append_nil, latest]

theorem latest_concat (h : History) {o : Occurrence} {id : TaskId} (ho : o.caller? = some id) :
    latest (h ++ [o]) id = some o := by
  simp [latest, List.filter_append, ho]

def Paired (h : History) : Prop :=
  ∀ (before : History) id q result, before ++ [.returned id q result] <+: h →
    before.latest id = some (.called id q)

theorem paired_nil : Paired [] := by
  intro before id q result hp
  simp at hp

theorem Paired.concat {h : History} (hh : h.Paired) {o : Occurrence}
    (ho : ∀ id q result, o = .returned id q result → h.latest id = some (.called id q)) :
    Paired (h ++ [o]) := by
  intro before id q result hp
  rcases List.prefix_concat_iff.mp hp with he | hp
  · obtain ⟨rfl, ho'⟩ := List.append_inj' he rfl
    exact ho id q result (List.singleton_inj.mp ho').symm
  · exact hh before id q result hp

theorem Paired.append {h h' : History} (hh : h.Paired)
    (hne : ∀ id q result, .returned id q result ∉ h') : Paired (h ++ h') := by
  induction h' generalizing h with
  | nil => rwa [List.append_nil]
  | cons o h' ih =>
    have hconcat : Paired (h ++ [o]) := by
      refine hh.concat fun id q result he => ?_
      exact absurd (he ▸ List.mem_cons_self) (hne id q result)
    rw [List.append_cons]
    exact ih hconcat fun id q result hm => hne id q result (List.mem_cons_of_mem _ hm)

end History

namespace Run

def occurrences (id : TaskId) : Work → Work → History
  | .step (.request _ q), _ => [.called id q]
  | .request _ q _, .ended (.answered result) _ => [.returned id q result]
  | .step (.ask _ q), .ended (.answered result) _ => [.asked id q result]
  | .step (.command c), _ => [.operated c]
  | .step (.batch cs), _ => cs.map .operated
  | _, _ => []

def tells (s : Run) (id : TaskId) : History :=
  match s.tasks[id]?, (s.move id).1.tasks[id]? with
  | some t, some t' => occurrences id t.work t'.work
  | _, _ => []

/-- The runs from `start`, any move admitted, with their histories. -/
inductive Recorded (start : Run) : Option TaskId → Run → History → Prop
  | start : Recorded start none start []
  | wake {s : Run} {h : History} {id : TaskId} : Recorded start none s h → id ∈ s.ready →
      Recorded start (some id) { s with ready := s.ready.erase id } h
  | main {s : Run} {h : History} : Recorded start none s h → s.mainReady →
      Recorded start (some main) { s with mainReady := false } h
  | move {s : Run} {h : History} {id : TaskId} : Recorded start (some id) s h →
      Recorded start (if (s.move id).2 then some id else none) (s.move id).1 (h ++ s.tells id)
  | yield {s : Run} {h : History} {id : TaskId} : Recorded start (some id) s h →
      Recorded start none (s.wake id) h
  | jump {s s' : Run} {h : History} : Recorded start none s h → s.jump = some s' →
      Recorded start none s' h
  | begin {s : Run} {h : History} (step : Step) : Recorded start none s h → s.Rests →
      Recorded start none { s.setWork Run.main (.step step) with mainReady := true } h

variable {start s : Run} {running : Option TaskId} {h : History}

theorem Recorded.reachable (hr : Recorded start running s h) :
    Reachable (fun _ _ => True) start running s := by
  induction hr with
  | start => exact .start
  | wake _ hid ih => exact ih.wake hid
  | main _ hm ih => exact ih.main hm
  | move _ ih => exact ih.move fun _ _ => trivial
  | yield _ ih => exact ih.yield
  | jump _ hj ih => exact ih.jump hj
  | begin step _ hm ih => exact ih.begin step hm

theorem Reachable.recorded (hr : Reachable (fun _ _ => True) start running s) :
    ∃ h, Recorded start running s h := by
  induction hr with
  | start => exact ⟨[], .start⟩
  | wake _ hid ih => exact ih.imp fun _ hh => hh.wake hid
  | main _ hm ih => exact ih.imp fun _ hh => hh.main hm
  | move _ _ ih =>
    obtain ⟨h, hh⟩ := ih
    exact ⟨_, hh.move⟩
  | yield _ ih => exact ih.imp fun _ hh => hh.yield
  | jump _ hj ih => exact ih.imp fun _ hh => hh.jump hj
  | begin step _ hm ih => exact ih.imp fun _ hh => hh.begin step hm

end Run

end ModelRegistry.Simulation
