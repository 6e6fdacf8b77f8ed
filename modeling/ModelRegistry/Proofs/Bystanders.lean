import ModelRegistry.Proofs.Orderliness

namespace ModelRegistry.Simulation.Run

open MemoryRegistry

variable {lax : Prop}

structure Free (s : Run) (id : TaskId) : Prop where
  lt : id < s.nextTask
  task : ∀ t, s.tasks[id]? = some t → t.work.isWatching = false
  parked : ∀ r, s.backend.collaborators = .memory r → ∀ w ∈ r.parked, w.caller ≠ id

structure Inert (id : TaskId) (s s' : Run) : Prop where
  backend : s'.backend = s.backend
  sub : s'.sub = s.sub
  keyed : (∀ cluster, (s.cache.client cluster).cluster = cluster) →
    ∀ cluster, (s'.cache.client cluster).cluster = cluster
  tasks : ∀ j, j ≠ id → s'.tasks[j]? = s.tasks[j]?
  own : s'.tasks[id]? = s.tasks[id]? ∨ ∃ w, s'.tasks[id]? = some ⟨w, none⟩ ∧ w.isWatching = false
  nextTask : s'.nextTask = s.nextTask
  names : s'.names = s.names
  awake : ∀ running j, s.Awake running j → s'.Awake running j

theorem Inert.trans {id : TaskId} {s t u : Run} (h : Inert id s t) (h' : Inert id t u) :
    Inert id s u where
  backend := h'.backend.trans h.backend
  sub := h'.sub.trans h.sub
  keyed := fun hk => h'.keyed (h.keyed hk)
  tasks := fun j hj => (h'.tasks j hj).trans (h.tasks j hj)
  own := by
    rcases h'.own with he | hw
    · rw [he]
      exact h.own
    · exact .inr hw
  nextTask := h'.nextTask.trans h.nextTask
  names := h'.names.trans h.names
  awake := fun running j hj => h'.awake running j (h.awake running j hj)

theorem Orderly.inert {s s' : Run} {running : Option TaskId} {id : TaskId}
    (h : s.Orderly lax running) (hi : Inert id s s') (hf : s.Free id) : s'.Orderly lax running := by
  obtain ⟨r, hr, hd, ho⟩ := h.order
  have hown : ∀ t', s'.tasks[id]? = some t' → t'.work.isWatching = false ∧
      ∀ f, t'.flight = some f → f = .held ∨ f = .parked := by
    intro t' ht'
    rcases hi.own with he | ⟨w, he, hw'⟩
    · rw [he] at ht'
      exact ⟨hf.task t' ht', fun f hfl => ho.flight id t'.work f (by rw [ht', ← hfl])⟩
    · obtain rfl := Option.some.inj (he.symm.trans ht')
      exact ⟨hw', by simp⟩
  constructor
  · refine ⟨r, hi.backend ▸ hr, hd, ?_⟩
    rw [hi.sub]
    exact (ho.awake_mono (hi.awake running)).setTask (hf.parked r hr) hi.tasks hf.task hown
  · exact hi.keyed h.keyed
  · rw [hi.nextTask]
    exact h.fresh_of_eq hf.lt hi.tasks
  · rw [hi.nextTask, hi.names]
    exact h.named_of_eq hi.tasks (fun t' ht' => .inl (hown t' ht').1)

theorem Inert.free {s s' : Run} {id : TaskId} (h : Inert id s s') (hf : s.Free id) :
    s'.Free id where
  lt := by
    rw [h.nextTask]
    exact hf.lt
  task := by
    intro t ht
    rcases h.own with he | ⟨w, he, hw⟩
    · exact hf.task t (he ▸ ht)
    · obtain rfl := Option.some.inj (he.symm.trans ht)
      exact hw
  parked := by
    rw [h.backend]
    exact hf.parked

theorem inert_of_wakes {s s' : Run} (h : Wakes s s') (hb : s'.backend = s.backend) (id : TaskId) :
    Inert id s s' where
  backend := hb
  sub := h.sub
  keyed := by
    rw [h.cache]
    exact fun hk => hk
  tasks := fun j _ => by rw [h.tasks]
  own := .inl (by rw [h.tasks])
  nextTask := h.nextTask
  names := h.names
  awake := fun _ _ => h.awake

theorem inert_books (id : TaskId) (s : Run) (alarms : List Alarm) (opened : List ClusterId)
    (handles stubs : List Link) : Inert id s { s with alarms, opened, handles, stubs } :=
  ⟨rfl, rfl, fun h => h, fun _ _ => rfl, .inl rfl, rfl, rfl, fun _ _ h => h⟩

theorem inert_wakeAll (id : TaskId) (s : Run) (ids : List TaskId) : Inert id s (s.wakeAll ids) :=
  inert_of_wakes (wakes_wakeAll s ids) (backend_wakeAll s ids) id

theorem tasks_setTask (s : Run) (id : TaskId) (t : Task) (j : TaskId) :
    (s.setTask id t).tasks[j]? = if id = j then some t else s.tasks[j]? := by
  simp [setTask, Std.ExtTreeMap.getElem?_insert]

theorem tasks_setWork (s : Run) (id : TaskId) (w : Work) (j : TaskId) :
    (s.setWork id w).tasks[j]? = if id = j then some ⟨w, none⟩ else s.tasks[j]? :=
  tasks_setTask s id _ j

theorem tasks_finish (s : Run) (id : TaskId) (result : Result) (j : TaskId) :
    (s.finish id result).tasks[j]? =
      if id = j then some ⟨.ended result s.now, none⟩ else s.tasks[j]? := by
  rw [finish, (wakes_wakeAll _ _).tasks, tasks_setWork]

theorem inert_setWork (id : TaskId) (s : Run) {w : Work} (hw : w.isWatching = false) :
    Inert id s (s.setWork id w) where
  backend := rfl
  sub := rfl
  keyed := fun hk => hk
  tasks := by
    intro j hj
    rw [setWork, tasks_setTask, if_neg (Ne.symm hj)]
  own := .inr ⟨w, by rw [setWork, tasks_setTask, if_pos rfl], hw⟩
  nextTask := rfl
  names := rfl
  awake := fun _ _ h => h

theorem inert_finish (id : TaskId) (s : Run) (result : Result) : Inert id s (s.finish id result) :=
  (inert_setWork id s rfl).trans (inert_wakeAll id _ _)

theorem keyed_putClient {s : Run} (h : ∀ cluster, (s.cache.client cluster).cluster = cluster)
    (c : Client) (cluster : ClusterId) :
    ((s.putClient c).cache.client cluster).cluster = cluster := by
  simp only [putClient, Cache.client_put]
  split
  · assumption
  · exact h cluster

theorem inert_putClient (id : TaskId) (s : Run) {c : Client}
    (hc : c.subscriptions = (s.cache.client c.cluster).subscriptions) :
    Inert id s (s.putClient c) where
  backend := rfl
  sub := by
    funext cluster n
    simp only [Run.sub, putClient, Cache.client_put]
    split
    · rename_i he
      subst he
      rw [hc]
    · rfl
  keyed := fun hk => keyed_putClient hk c
  tasks := fun _ _ => rfl
  own := .inl rfl
  nextTask := rfl
  names := rfl
  awake := fun _ _ h => h

theorem inert_client (id : TaskId) (s : Run) (cluster : ClusterId) :
    Inert id s (s.client cluster).1 where
  backend := rfl
  sub := by
    funext other n
    simp only [Run.sub, client, (s.cache.getOrCreate_client cluster other).1]
  keyed := by
    intro hk other
    simp only [client, (s.cache.getOrCreate_client cluster other).1]
    exact hk other
  tasks := fun _ _ => rfl
  own := .inl rfl
  nextTask := rfl
  names := rfl
  awake := fun _ _ h => h

def Apt (lax : Prop) (s : Run) (running : Option TaskId) (id : TaskId) : Prop :=
  s.Orderly lax running ∧ s.Free id

theorem Apt.inert {s s' : Run} {running : Option TaskId} {id : TaskId} (h : s.Apt lax running id)
    (hi : Inert id s s') : s'.Apt lax running id :=
  ⟨h.1.inert hi h.2, hi.free h.2⟩

theorem Free.wakes {s s' : Run} {id : TaskId} (h : s.Free id) (hw : Wakes s s')
    {r r' : MemoryRegistry} (hr : s.backend.collaborators = .memory r)
    (hr' : s'.backend.collaborators = .memory r') (hp : r'.parked = r.parked) : s'.Free id where
  lt := by
    rw [hw.nextTask]
    exact h.lt
  task := by
    rw [hw.tasks]
    exact h.task
  parked := by
    intro r₁ hr₁ w hw
    rw [hr'] at hr₁
    cases hr₁
    rw [hp] at hw
    exact h.parked r hr w hw

theorem Apt.withBackend {s : Run} {running : Option TaskId} {id : TaskId} (h : s.Apt lax running id)
    {b : Backend} {r r' : MemoryRegistry} (hr : s.backend.collaborators = .memory r)
    (hr' : b.collaborators = .memory r') (hk : Keeps lax (Holds s.sub) r r') :
    (s.withBackend b).Apt lax running id :=
  ⟨h.1.withBackend hr hr' hk,
    h.2.wakes (wakes_withBackend s b) hr (by rw [backend_withBackend, hr']) hk.parked⟩

theorem Apt.close {s : Run} {running : Option TaskId} {id : TaskId} (h : s.Apt lax running id)
    (link : Link) : (s.close link).Apt lax running id := by
  obtain ⟨r, hr, -⟩ := h.1.order
  exact h.withBackend hr (collaborators_close hr link) (keeps_close r link)

theorem Apt.withMemory {s : Run} {running : Option TaskId} {id : TaskId} (h : s.Apt lax running id)
    {r r' : MemoryRegistry} (hr : s.memory? = some r) (hk : Keeps lax (Holds s.sub) r r') :
    (s.withMemory r').Apt lax running id := by
  have hr' : s.backend.collaborators = .memory r := by
    unfold memory? at hr
    split at hr
    · rename_i he
      rw [he, Option.some.inj hr]
    · cases hr
  exact h.withBackend hr' rfl hk

theorem Apt.putClient {s : Run} {running : Option TaskId} {id : TaskId} (h : s.Apt lax running id)
    {c : Client} {cluster : ClusterId} (hc : c.cluster = (s.cache.client cluster).cluster)
    (hs : c.subscriptions = (s.cache.client cluster).subscriptions) :
    (s.putClient c).Apt lax running id := by
  rw [h.1.keyed cluster] at hc
  subst hc
  exact h.inert (inert_putClient id s hs)

theorem Apt.client {s s' : Run} {running : Option TaskId} {id : TaskId} (h : s.Apt lax running id)
    {cluster : ClusterId} {c : Client} (hc : s.client cluster = (s', c)) :
    s'.Apt lax running id ∧ c = s'.cache.client cluster ∧ s'.backend = s.backend ∧
      s'.sub = s.sub := by
  have hi := inert_client id s cluster
  have hg := s.cache.getOrCreate_client cluster cluster
  obtain ⟨rfl, rfl⟩ : (s.client cluster).1 = s' ∧ (s.client cluster).2 = c := by simp [hc]
  exact ⟨h.inert hi, hg.2.trans hg.1.symm, hi.backend, hi.sub⟩

theorem Apt.setWork {s : Run} {running : Option TaskId} {id : TaskId} (h : s.Apt lax running id)
    {w : Work} (hw : w.isWatching = false) : (s.setWork id w).Apt lax running id :=
  h.inert (inert_setWork id s hw)

theorem Apt.finish {s : Run} {running : Option TaskId} {id : TaskId} (h : s.Apt lax running id)
    (result : Result) : (s.finish id result).Apt lax running id :=
  h.inert (inert_finish id s result)

end ModelRegistry.Simulation.Run
