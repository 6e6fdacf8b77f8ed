import ModelRegistry.Proofs.Coordination

namespace ModelRegistry

namespace Cache

theorem client_put (c : Cache) (x : Client) (cluster : ClusterId) :
    (c.put x).client cluster = if x.cluster = cluster then x else c.client cluster := by
  unfold client put
  rw [Std.ExtTreeMap.getD_insert]
  by_cases h : x.cluster = cluster
  · rw [if_pos h, if_pos (Std.LawfulEqOrd.compare_eq_iff_eq.mpr h)]
  · rw [if_neg h, if_neg (fun he => h (Std.LawfulEqOrd.eq_of_compare he))]

theorem getOrCreate_client (c : Cache) (cluster other : ClusterId) :
    (c.getOrCreate cluster).1.client other = c.client other ∧
      (c.getOrCreate cluster).2 = c.client cluster := by
  unfold getOrCreate
  cases h : c.clients[cluster]? with
  | some x => exact ⟨rfl, by simp [client, Std.ExtTreeMap.getD_eq_getD_getElem?, h]⟩
  | none =>
    have hc : c.client cluster = .new cluster c.registry c.retry := by
      simp [client, Std.ExtTreeMap.getD_eq_getD_getElem?, h]
    refine ⟨?_, hc.symm⟩
    simp only [client_put]
    split
    · rename_i he
      obtain rfl : cluster = other := he
      exact hc.symm
    · rfl

end Cache

namespace Simulation.Run

open MemoryRegistry

variable {lax : Prop}

def sub (s : Run) (cluster : ClusterId) (n : Nat) : Option Subscription :=
  (s.cache.client cluster).subscriptions[n]?

def Awake (s : Run) (running : Option TaskId) (id : TaskId) : Prop :=
  id ∈ s.ready ∨ (id = main ∧ s.mainReady) ∨ running = some id

structure Orderly (lax : Prop) (s : Run) (running : Option TaskId) : Prop where
  order : ∃ r, s.backend.collaborators = .memory r ∧ Distinct r.identities ∧
    InOrder lax r s.sub (s.tasks[·]?) (s.Awake running)
  keyed : ∀ cluster, (s.cache.client cluster).cluster = cluster
  fresh : main < s.nextTask ∧ ∀ id, s.nextTask ≤ id → s.tasks[id]? = none
  named : ∀ id, id = main ∨ (∃ name : String, s.names[name]? = some id) →
    id < s.nextTask ∧ ∀ t, s.tasks[id]? = some t → t.work.isWatching = false

theorem Orderly.inOrder {s : Run} {running : Option TaskId} (h : s.Orderly lax running)
    {r : MemoryRegistry} (hr : s.backend.collaborators = .memory r) :
    Distinct r.identities ∧ InOrder lax r s.sub (s.tasks[·]?) (s.Awake running) := by
  obtain ⟨r', hr', hi⟩ := h.order
  obtain rfl : r' = r := by simpa [hr'] using hr
  exact hi

theorem Orderly.lt_nextTask {s : Run} {running : Option TaskId} (h : s.Orderly lax running)
    {id : TaskId} {t : Task} (ht : s.tasks[id]? = some t) : id < s.nextTask := by
  by_contra hge
  have hnone := h.fresh.2 id (Nat.le_of_not_lt hge)
  simp [ht] at hnone

theorem Orderly.fresh_of_eq {s : Run} {running : Option TaskId} (h : s.Orderly lax running)
    {tasks : Std.ExtTreeMap TaskId Task} {id : TaskId} (hid : id < s.nextTask)
    (ht : ∀ j, j ≠ id → tasks[j]? = s.tasks[j]?) :
    main < s.nextTask ∧ ∀ j, s.nextTask ≤ j → tasks[j]? = none := by
  refine ⟨h.fresh.1, fun j hj => ?_⟩
  have hne : j ≠ id := Nat.ne_of_gt (Nat.lt_of_lt_of_le hid hj)
  rw [ht j hne, h.fresh.2 j hj]

theorem Orderly.named_of_eq {s : Run} {running : Option TaskId} (h : s.Orderly lax running)
    {tasks : Std.ExtTreeMap TaskId Task} {id : TaskId}
    (ht : ∀ j, j ≠ id → tasks[j]? = s.tasks[j]?)
    (hid : ∀ t' : Task, tasks[id]? = some t' → t'.work.isWatching = false ∨
      ∃ t : Task, s.tasks[id]? = some t ∧ t.work = t'.work) (j : TaskId)
    (hj : j = main ∨ ∃ name : String, s.names[name]? = some j) :
    j < s.nextTask ∧ ∀ t : Task, tasks[j]? = some t → t.work.isWatching = false := by
  obtain ⟨hlt, hplain⟩ := h.named j hj
  refine ⟨hlt, fun t' ht' => ?_⟩
  by_cases hne : j = id
  · subst hne
    rcases hid t' ht' with hw | ⟨t, hs, hw⟩
    · exact hw
    · rw [← hw]
      exact hplain t hs
  · exact hplain t' (by rwa [ht j hne] at ht')

structure Wakes (s s' : Run) : Prop where
  now : s'.now = s.now
  cache : s'.cache = s.cache
  draws : s'.draws = s.draws
  tasks : s'.tasks = s.tasks
  nextTask : s'.nextTask = s.nextTask
  names : s'.names = s.names
  ready : ∀ id ∈ s.ready, id ∈ s'.ready
  mainReady : s.mainReady → s'.mainReady

theorem Wakes.refl (s : Run) : Wakes s s :=
  ⟨rfl, rfl, rfl, rfl, rfl, rfl, fun _ h => h, fun h => h⟩

theorem Wakes.trans {s t u : Run} (h : Wakes s t) (h' : Wakes t u) : Wakes s u :=
  ⟨h'.now.trans h.now, h'.cache.trans h.cache, h'.draws.trans h.draws, h'.tasks.trans h.tasks,
    h'.nextTask.trans h.nextTask, h'.names.trans h.names,
    fun id hid => h'.ready id (h.ready id hid), fun hm => h'.mainReady (h.mainReady hm)⟩

theorem Wakes.awake {s s' : Run} (h : Wakes s s') {running : Option TaskId} {id : TaskId}
    (ha : s.Awake running id) : s'.Awake running id :=
  ha.imp (h.ready id) (.imp_left (.imp_right h.mainReady))

theorem wakes_wake (s : Run) (id : TaskId) : Wakes s (s.wake id) := by
  unfold wake
  split
  · exact ⟨rfl, rfl, rfl, rfl, rfl, rfl, fun _ h => h, fun _ => rfl⟩
  · split
    · exact .refl s
    · exact ⟨rfl, rfl, rfl, rfl, rfl, rfl, fun _ h => List.mem_append_left _ h, fun h => h⟩

theorem awake_wake (s : Run) (running : Option TaskId) (id : TaskId) :
    (s.wake id).Awake running id := by
  unfold wake Awake
  split
  · exact .inr (.inl ⟨‹_›, rfl⟩)
  · split
    · exact .inl ‹_›
    · exact .inl (List.mem_append_right _ (List.mem_singleton_self id))

theorem wakes_wakeAll (s : Run) (ids : List TaskId) : Wakes s (s.wakeAll ids) := by
  induction ids generalizing s with
  | nil => exact .refl s
  | cons id ids ih => exact (wakes_wake s id).trans (ih (s.wake id))

theorem awake_wakeAll (s : Run) {ids : List TaskId} {id : TaskId} (h : id ∈ ids)
    (running : Option TaskId) : (s.wakeAll ids).Awake running id := by
  induction ids generalizing s with
  | nil => cases h
  | cons i ids ih =>
    rcases List.mem_cons.mp h with rfl | h
    · exact (wakes_wakeAll (s.wake id) ids).awake (awake_wake s running id)
    · exact ih (s.wake i) h

theorem backend_wake (s : Run) (id : TaskId) : (s.wake id).backend = s.backend := by
  unfold wake
  split
  · rfl
  · split <;> rfl

theorem backend_wakeAll (s : Run) (ids : List TaskId) : (s.wakeAll ids).backend = s.backend := by
  induction ids generalizing s with
  | nil => rfl
  | cons id ids ih => exact (ih (s.wake id)).trans (backend_wake s id)

theorem wakes_backend (s : Run) (b : Backend) : Wakes s { s with backend := b } :=
  ⟨rfl, rfl, rfl, rfl, rfl, rfl, fun _ h => h, fun h => h⟩

theorem wakes_withBackend (s : Run) (b : Backend) : Wakes s (s.withBackend b) := by
  unfold withBackend tellParked
  simp only
  split
  · exact wakes_backend s b
  · exact (wakes_backend s b).trans (wakes_wakeAll _ _)

theorem backend_withBackend (s : Run) (b : Backend) : (s.withBackend b).backend = b := by
  unfold withBackend tellParked
  simp only
  split
  · rfl
  · exact backend_wakeAll _ _

theorem awake_withBackend {s : Run} {b : Backend} {r r' : MemoryRegistry}
    (hr : s.backend.collaborators = .memory r) (hr' : b.collaborators = .memory r')
    (hne : r'.announcements ≠ r.announcements) (running : Option TaskId) :
    ∀ w ∈ r'.parked, (s.withBackend b).Awake running w.caller := by
  intro w hw
  have hannounced : ¬ b.collaborators.announcements = s.backend.collaborators.announcements := by
    simpa [hr, hr', Collaborators.announcements] using hne
  unfold withBackend tellParked
  simp only [hannounced, ↓reduceIte]
  refine awake_wakeAll _ ?_ running
  simp only [hr', Collaborators.parkedCallers]
  exact List.mem_map_of_mem hw

theorem Wakes.sub {s s' : Run} (h : Wakes s s') : s'.sub = s.sub := by
  funext cluster n
  rw [Run.sub, h.cache, Run.sub]

theorem Orderly.of_wakes {s s' : Run} {running running' : Option TaskId} (h : s.Orderly lax running)
    (hw : Wakes s s')
    (ho : ∃ r, s'.backend.collaborators = .memory r ∧ Distinct r.identities ∧
      InOrder lax r s.sub (s.tasks[·]?) (s'.Awake running')) : s'.Orderly lax running' where
  order := by rwa [hw.sub, hw.tasks]
  keyed := by
    rw [hw.cache]
    exact h.keyed
  fresh := by
    rw [hw.nextTask, hw.tasks]
    exact h.fresh
  named := by
    rw [hw.nextTask, hw.tasks, hw.names]
    exact h.named

theorem Orderly.wakes {s s' : Run} {running : Option TaskId} (h : s.Orderly lax running)
    (hw : Wakes s s') (hb : s'.backend = s.backend) : s'.Orderly lax running := by
  obtain ⟨r, hr, hd, ho⟩ := h.order
  exact h.of_wakes hw ⟨r, hb ▸ hr, hd, ho.awake_mono (fun _ => hw.awake)⟩

theorem Orderly.withBackend {s : Run} {running : Option TaskId} (h : s.Orderly lax running)
    {b : Backend} {r r' : MemoryRegistry} (hr : s.backend.collaborators = .memory r)
    (hr' : b.collaborators = .memory r') (hk : Keeps lax (Holds s.sub) r r') :
    (s.withBackend b).Orderly lax running := by
  obtain ⟨hd, ho⟩ := h.inOrder hr
  have hw := wakes_withBackend s b
  refine h.of_wakes hw ⟨r', by rw [backend_withBackend, hr'], by rwa [hk.identities], ?_⟩
  exact ho.keeps hk (fun _ => hw.awake) (fun hne => awake_withBackend hr hr' hne running)

theorem collaborators_close {s : Run} {r : MemoryRegistry}
    (hr : s.backend.collaborators = .memory r) (link : Link) :
    (s.backend.close s.now link).collaborators = .memory (r.close link) := by
  simp [Backend.close, hr, Collaborators.close]

theorem Orderly.close {s : Run} {running : Option TaskId} (h : s.Orderly lax running)
    (link : Link) : (s.close link).Orderly lax running := by
  obtain ⟨r, hr, -⟩ := h.order
  exact h.withBackend hr (collaborators_close hr link) (keeps_close r link)

end Simulation.Run

end ModelRegistry
