import ModelRegistry.Proofs.Enactment
import ModelRegistry.Proofs.Runs

namespace ModelRegistry

namespace Client

/-- The same client but for its connection and its draws. -/
def SameWatches (c c' : Client) : Prop :=
  ∃ connection drawn, c' = { c with connection, drawn }

theorem SameWatches.refl (c : Client) : c.SameWatches c := ⟨_, _, rfl⟩

theorem SameWatches.trans {c c' c'' : Client} (h : c.SameWatches c') (h' : c'.SameWatches c'') :
    c.SameWatches c'' := by
  obtain ⟨connection, drawn, rfl⟩ := h
  obtain ⟨connection', drawn', rfl⟩ := h'
  exact ⟨connection', drawn', rfl⟩

theorem SameWatches.subscription? {c c' : Client} (h : c.SameWatches c') (model : ModelId) :
    c'.subscription? model = c.subscription? model := by
  obtain ⟨connection, drawn, rfl⟩ := h
  rfl

theorem SameWatches.subscribe {c c' : Client} (h : c.SameWatches c') (model : ModelId) :
    (c.subscribe model).SameWatches (c'.subscribe model) := by
  obtain ⟨connection, drawn, rfl⟩ := h
  exact ⟨connection, drawn, rfl⟩

theorem SameWatches.produce {c c' : Client} (h : c.SameWatches c') (now : Nat) (draws : Draws)
    (n : Nat) (signal : Call.Signal Response) : ∃ draws',
      ({ c with connection := c'.connection }.produce now draws' n signal).SameWatches
        (c'.produce now draws n signal) := by
  obtain ⟨connection, drawn, rfl⟩ := h
  refine ⟨fun _ => draws drawn, ?_⟩
  unfold Client.produce
  cases c.subscriptions[n]? with
  | none => exact ⟨connection, drawn, rfl⟩
  | some x => exact ⟨_, drawn + 1, rfl⟩

theorem SameWatches.consume {c c' d' : Client} (h : c.SameWatches c') {n : Nat}
    (hd : c'.consume n = some d') : ∃ d, c.consume n = some d ∧ d.SameWatches d' := by
  obtain ⟨connection, drawn, rfl⟩ := h
  unfold Client.consume at hd ⊢
  simp only [Option.bind_eq_bind, Option.bind_eq_some_iff] at hd ⊢
  obtain ⟨x, hx, ⟨u, x'⟩, hu, hd⟩ := hd
  cases u with
  | batch b =>
    obtain rfl := Option.some.inj hd
    exact ⟨_, ⟨x, hx, (.batch b, x'), hu, rfl⟩, connection, drawn, rfl⟩
  | gone e =>
    obtain rfl := Option.some.inj hd
    refine ⟨_, ⟨x, hx, (.gone e, x'), hu, rfl⟩, connection, drawn, ?_⟩
    simp only
    split <;> rfl

end Client

namespace Simulation.Run

variable {s s' : Run} {id : TaskId} {t : Task} {cluster : ClusterId}

def roleOf? (cluster : ClusterId) : Work → Option (Role × Nat)
  | .produce other n _ => if other = cluster then some (.producer, n) else none
  | .consume other n _ => if other = cluster then some (.consumer, n) else none
  | _ => none

def role? (s : Run) (cluster : ClusterId) (id : TaskId) : Option (Role × Nat) :=
  s.tasks[id]?.bind fun t => roleOf? cluster t.work

theorem roleOf?_eq_none {w : Work} (h : w.isWatching = false) (cluster : ClusterId) :
    roleOf? cluster w = none := by
  cases w with
  | produce | consume => cases h
  | _ => rfl

theorem role?_congr {j : TaskId} (h : s'.tasks[j]? = s.tasks[j]?) (cluster : ClusterId) :
    s'.role? cluster j = s.role? cluster j := by
  unfold role?
  rw [h]

theorem role?_setTask (s : Run) (id : TaskId) (t : Task) (cluster : ClusterId) (j : TaskId) :
    (s.setTask id t).role? cluster j =
      if id = j then roleOf? cluster t.work else s.role? cluster j := by
  rw [role?, tasks_setTask]
  split <;> rfl

/-- The run has the client of the crew, and one task for each of the crew's tasks. -/
structure Mans (s : Run) (cluster : ClusterId) (w : Crew) : Prop where
  client : w.client.SameWatches (s.cache.client cluster)
  tasks : ∃ ids : List TaskId, ids.Nodup ∧ ids.map (s.role? cluster) = w.tasks.map some ∧
    ∀ j, s.role? cluster j ≠ none → j ∈ ids

theorem Mans.mem_tasks {w : Crew} (h : s.Mans cluster w) (id : TaskId) {role : Role × Nat}
    (hrole : s.role? cluster id = some role) : role ∈ w.tasks := by
  obtain ⟨ids, -, hids, hall⟩ := h.tasks
  have hmem : some role ∈ w.tasks.map some := by
    rw [← hids, ← hrole]
    exact List.mem_map_of_mem (hall id (by simp [hrole]))
  simpa using hmem

theorem Mans.of_roles {w w' : Crew} (h : s.Mans cluster w)
    (hclient : w'.client.SameWatches (s'.cache.client cluster)) (htasks : w'.tasks = w.tasks)
    (hroles : ∀ j, s'.role? cluster j = s.role? cluster j) : s'.Mans cluster w' := by
  have hsame : s'.role? cluster = s.role? cluster := funext hroles
  refine ⟨hclient, ?_⟩
  rw [htasks, hsame]
  exact h.tasks

/-- Each cluster's client and its tasks are those of a crew. -/
structure Staffed (s : Run) : Prop where
  keyed : ∀ cluster, (s.cache.client cluster).cluster = cluster
  fresh : ∀ j, s.nextTask ≤ j → s.tasks[j]? = none
  aside : ∀ j, j = main ∨ (∃ name : String, s.names[name]? = some j) →
    j < s.nextTask ∧ ∀ cluster, s.role? cluster j = none
  crews : ∀ cluster, ∃ w : Crew, w.Reachable ∧ s.Mans cluster w

theorem Staffed.role?_fresh (h : s.Staffed) {j : TaskId} (hj : s.nextTask ≤ j)
    (cluster : ClusterId) : s.role? cluster j = none := by
  simp [role?, h.fresh j hj]

theorem Staffed.lt_nextTask (h : s.Staffed) (ht : s.tasks[id]? = some t) : id < s.nextTask := by
  by_contra hle
  simp [h.fresh id (Nat.le_of_not_lt hle)] at ht

theorem Staffed.of_roles (h : s.Staffed)
    (hclients : ∀ cluster, (s.cache.client cluster).SameWatches (s'.cache.client cluster))
    (hroles : ∀ cluster j, s'.role? cluster j = s.role? cluster j)
    (hnext : s.nextTask ≤ s'.nextTask) (hfresh : ∀ j, s'.nextTask ≤ j → s'.tasks[j]? = none)
    (hnames : ∀ (name : String) j, s'.names[name]? = some j → j < s'.nextTask ∧
      (s.nextTask ≤ j ∨ ∃ name : String, s.names[name]? = some j)) : s'.Staffed := by
  constructor
  · intro cluster
    obtain ⟨connection, drawn, hshared⟩ := hclients cluster
    rw [hshared]
    exact h.keyed cluster
  · exact hfresh
  · intro j hj
    have hcases : j < s'.nextTask ∧
        (s.nextTask ≤ j ∨ j = main ∨ ∃ name : String, s.names[name]? = some j) := by
      obtain rfl | ⟨name, hname⟩ := hj
      · exact ⟨Nat.lt_of_lt_of_le (h.aside main (.inl rfl)).1 hnext, .inr (.inl rfl)⟩
      · exact ⟨(hnames name j hname).1, (hnames name j hname).2.imp_right .inr⟩
    refine ⟨hcases.1, fun cluster => ?_⟩
    rw [hroles]
    obtain hnew | hold := hcases.2
    · exact h.role?_fresh hnew cluster
    · exact (h.aside j hold).2 cluster
  · intro cluster
    obtain ⟨w, hw, hmans⟩ := h.crews cluster
    exact ⟨w, hw, hmans.of_roles (hmans.client.trans (hclients cluster)) rfl (hroles cluster)⟩

theorem Staffed.keep (h : s.Staffed)
    (hclients : ∀ cluster, (s.cache.client cluster).SameWatches (s'.cache.client cluster))
    (hroles : ∀ cluster j, s'.role? cluster j = s.role? cluster j)
    (hfresh : ∀ j, s.nextTask ≤ j → s'.tasks[j]? = none) (hnext : s'.nextTask = s.nextTask)
    (hnames : s'.names = s.names) : s'.Staffed := by
  refine h.of_roles hclients hroles (Nat.le_of_eq hnext.symm) ?_ ?_
  · rw [hnext]
    exact hfresh
  · rw [hnames, hnext]
    exact fun name j hj => ⟨(h.aside j (.inr ⟨name, hj⟩)).1, .inr ⟨name, hj⟩⟩

theorem Staffed.of_eq (h : s.Staffed) (hcache : s'.cache = s.cache)
    (hroles : ∀ cluster j, s'.role? cluster j = s.role? cluster j)
    (hfresh : ∀ j, s.nextTask ≤ j → s'.tasks[j]? = none) (hnext : s'.nextTask = s.nextTask)
    (hnames : s'.names = s.names) : s'.Staffed :=
  h.keep (fun _ => hcache ▸ .refl _) hroles hfresh hnext hnames

def Works (s : Run) (id : TaskId) : Prop :=
  s.Staffed ∧ id < s.nextTask ∧ ∀ cluster, s.role? cluster id = none

theorem Works.keep (h : s.Works id)
    (hclients : ∀ cluster, (s.cache.client cluster).SameWatches (s'.cache.client cluster))
    (htasks : s'.tasks = s.tasks) (hnext : s'.nextTask = s.nextTask)
    (hnames : s'.names = s.names) : s'.Works id := by
  obtain ⟨hs, hid, hrole⟩ := h
  have hroles : ∀ cluster j, s'.role? cluster j = s.role? cluster j :=
    fun cluster j => role?_congr (by rw [htasks]) cluster
  refine ⟨hs.keep hclients hroles (htasks ▸ hs.fresh) hnext hnames, hnext ▸ hid, ?_⟩
  intro cluster
  rw [hroles]
  exact hrole cluster

theorem Works.of_eq (h : s.Works id) (hcache : s'.cache = s.cache) (htasks : s'.tasks = s.tasks)
    (hnext : s'.nextTask = s.nextTask) (hnames : s'.names = s.names) : s'.Works id :=
  h.keep (fun _ => hcache ▸ .refl _) htasks hnext hnames

theorem Works.wakes (h : s.Works id) (hw : Wakes s s') : s'.Works id :=
  h.of_eq hw.cache hw.tasks hw.nextTask hw.names

theorem Works.books (h : s.Works id) (alarms : List Alarm) (opened : List ClusterId)
    (handles stubs : List Link) : Works { s with alarms, opened, handles, stubs } id :=
  h.of_eq rfl rfl rfl rfl

theorem Works.client (h : s.Works id) (cluster : ClusterId) : (s.client cluster).1.Works id := by
  refine h.keep (fun other => ?_) rfl rfl rfl
  change (s.cache.client other).SameWatches ((s.cache.getOrCreate cluster).1.client other)
  rw [(s.cache.getOrCreate_client cluster other).1]
  exact .refl _

theorem client_eq (s : Run) (cluster : ClusterId) :
    (s.client cluster).2 = (s.client cluster).1.cache.client cluster := by
  have h := s.cache.getOrCreate_client cluster cluster
  exact h.2.trans h.1.symm

theorem Works.putClient (h : s.Works id) {c : Client}
    (hc : (s.cache.client cluster).SameWatches c) : (s.putClient c).Works id := by
  refine h.keep (fun other => ?_) rfl rfl rfl
  rw [Run.putClient, Cache.client_put]
  split
  next hother =>
    obtain ⟨connection, drawn, rfl⟩ := hc
    obtain rfl : cluster = other := (h.1.keyed cluster).symm.trans hother
    exact ⟨connection, drawn, rfl⟩
  next => exact .refl _

theorem Works.stepped (h : s.Works id) (cluster : ClusterId) (connection : Connection) :
    (s.putClient ((s.cache.client cluster).stepped connection)).Works id :=
  h.putClient ⟨connection, _, rfl⟩

theorem Works.opened (h : s.Works id) (cluster : ClusterId) (connection : Connection) :
    ((s.client cluster).1.putClient { (s.client cluster).2 with connection }).Works id := by
  rw [s.client_eq cluster]
  exact (h.client cluster).putClient ⟨connection, _, rfl⟩

theorem Works.setTask (h : s.Works id) (ht : t.work.isWatching = false) :
    (s.setTask id t).Works id := by
  obtain ⟨hs, hid, hrole⟩ := h
  have hroles : ∀ cluster j, (s.setTask id t).role? cluster j = s.role? cluster j := by
    intro cluster j
    rw [role?_setTask, roleOf?_eq_none ht]
    split
    next hj => rw [← hj, hrole]
    next => rfl
  refine ⟨hs.of_eq rfl hroles ?_ rfl rfl, hid, ?_⟩
  · intro j hj
    rw [tasks_setTask, if_neg (Nat.ne_of_lt (Nat.lt_of_lt_of_le hid hj))]
    exact hs.fresh j hj
  · intro cluster
    rw [hroles]
    exact hrole cluster

theorem Works.setWork (h : s.Works id) {w : Work} (hw : w.isWatching = false) :
    (s.setWork id w).Works id := h.setTask hw

theorem Works.finish (h : s.Works id) (r : Result) : (s.finish id r).Works id := by
  have hset : (s.setWork id (.ended r s.now)).Works id := h.setWork rfl
  exact hset.wakes (wakes_wakeAll _ _)

theorem Works.withBackend (h : s.Works id) (b : Backend) : (s.withBackend b).Works id :=
  h.wakes (wakes_withBackend s b)

theorem Works.openClient (h : s.Works id) (cluster : ClusterId) :
    (s.openClient id cluster).Works id :=
  ((h.client cluster).books _ _ _ _).finish _

theorem Works.poison (h : s.Works id) (cluster : ClusterId) (unwanted : Link → Bool) :
    (s.poison id cluster unwanted).Works id := by
  unfold Run.poison
  refine Works.finish ?_ _
  split
  · exact (h.opened cluster _).withBackend _
  · exact h.opened cluster _

theorem Works.startTask (h : s.Works id) (name : String) (step : Step) :
    (s.startTask id name step).Works id := by
  refine Works.finish ?_ _
  obtain ⟨hs, hid, hrole⟩ := h
  have hwakes := wakes_spawn { s with names := s.names.insert name s.nextTask } (.step step)
  have htasks := tasks_spawn { s with names := s.names.insert name s.nextTask } (.step step)
  generalize { s with names := s.names.insert name s.nextTask }.spawn (.step step) = s'
    at hwakes htasks ⊢
  have hnext : s'.nextTask = s.nextTask + 1 := hwakes.nextTask
  have hnames : s'.names = s.names.insert name s.nextTask := hwakes.names
  have hcache : s'.cache = s.cache := hwakes.cache
  have hroles : ∀ cluster j, s'.role? cluster j = s.role? cluster j := by
    intro cluster j
    by_cases hj : s.nextTask = j
    · subst hj
      rw [hs.role?_fresh (Nat.le_refl _), role?, htasks, if_pos rfl]
      rfl
    · exact role?_congr ((htasks j).trans (if_neg hj)) cluster
  refine ⟨hs.of_roles (fun _ => hcache ▸ .refl _) hroles (hnext ▸ Nat.le_succ _) ?_ ?_,
    hnext ▸ Nat.lt_succ_of_lt hid, ?_⟩
  · intro j hj
    rw [hnext] at hj
    rw [htasks, if_neg (Nat.ne_of_lt hj)]
    exact hs.fresh j (Nat.le_of_succ_le hj)
  · intro other j hj
    rw [hnames, Std.ExtTreeMap.getElem?_insert] at hj
    rw [hnext]
    split at hj
    · obtain rfl := Option.some.inj hj
      exact ⟨Nat.lt_succ_self _, .inl (Nat.le_refl _)⟩
    · exact ⟨Nat.lt_succ_of_lt (hs.aside j (.inr ⟨other, hj⟩)).1, .inr ⟨other, hj⟩⟩
  · intro cluster
    rw [hroles]
    exact hrole cluster

theorem Works.release (h : s.Works id) (w : Work) : (s.release w).Works id := by
  cases w with
  | request cluster q call => exact h.opened cluster _
  | acquire cluster a => exact h.opened cluster _
  | trial cluster t => exact h.opened cluster _
  | _ => exact h

theorem Works.cancelTask (h : s.Works id) {task : TaskId}
    (haside : ∀ cluster, s.role? cluster task = none) : (s.cancelTask task).Works id := by
  unfold Run.cancelTask
  split
  · exact h
  · exact h
  next t _ _ =>
    have htasks := tasks_release s t.work
    obtain ⟨hs, hid, hrole⟩ := h.release t.work
    generalize s.release t.work = s₁ at hs hid hrole htasks ⊢
    have herase (j : TaskId) :
        (s₁.tasks.erase task)[j]? = if task = j then none else s₁.tasks[j]? := by
      simp [Std.ExtTreeMap.getElem?_erase]
    let s' : Run := { s₁.clearAlarms task false with
      tasks := s₁.tasks.erase task
      ready := s₁.ready.erase task
      backend := s₁.backend.drop task }
    have hroles : ∀ cluster j, s'.role? cluster j = s₁.role? cluster j := by
      intro cluster j
      by_cases hj : task = j
      · subst hj
        have hnone : s₁.role? cluster task = none := (role?_congr (by rw [htasks]) cluster).trans
          (haside cluster)
        rw [hnone, role?, herase, if_pos rfl]
        rfl
      · exact role?_congr ((herase j).trans (if_neg hj)) cluster
    refine ⟨hs.of_eq rfl hroles ?_ rfl rfl, hid, ?_⟩
    · intro j hj
      refine (herase j).trans ?_
      split
      · rfl
      · exact hs.fresh j hj
    · intro cluster
      exact (hroles cluster id).trans (hrole cluster)

theorem Works.cancel (h : s.Works id) (name : String) : (s.cancel id name).Works id := by
  unfold Run.cancel
  refine Works.finish ?_ _
  cases hname : s.names[name]? with
  | none => exact h
  | some task => exact h.cancelTask (h.1.aside task (.inr ⟨name, hname⟩)).2

theorem Works.join (h : s.Works id) (name : String) : (s.join id name).Works id := by
  unfold Run.join
  split
  · split
    · exact h.setWork rfl
    · exact h.finish _
  · exact h.finish _

theorem Works.prepare (h : s.Works id) (more : Script) : (s.prepare id more).Works id := by
  unfold Run.prepare
  refine Works.finish ?_ _
  split
  · exact h.withBackend _
  · exact h

theorem Works.command (h : s.Works id) (c : MemoryRegistry.Command) : (s.command c).Works id := by
  unfold Run.command
  split
  · simp only
    split
    · exact (h.withBackend _).wakes (wakes_wakeAll _ _)
    · exact h.withBackend _
  · exact h

theorem Works.commands (h : s.Works id) (cs : List MemoryRegistry.Command) :
    (cs.foldl Run.command s).Works id := by
  induction cs generalizing s with
  | nil => exact h
  | cons c cs ih => exact ih (h.command c)

theorem Works.lookAt (h : s.Works id) (cluster : ClusterId) (model : ModelId)
    (size givesUp : Nat) : (s.lookAt id cluster model size givesUp).Works id := by
  unfold Run.lookAt
  split
  · exact h.finish _
  · split
    · exact h.finish _
    · exact h.setWork rfl

theorem role?_spawnWatch (s : Run) (cluster : ClusterId) (n : Nat) (other : ClusterId)
    (j : TaskId) : (s.spawnWatch cluster n).role? other j =
      if s.nextTask + 1 = j then if cluster = other then some (.consumer, n) else none
      else if s.nextTask = j then if cluster = other then some (.producer, n) else none
      else s.role? other j := by
  obtain ⟨-, -, -, -, -, htasks⟩ := spawnWatch_eq s cluster n
  rw [role?, htasks]
  by_cases hconsumer : s.nextTask + 1 = j
  · simp [hconsumer, roleOf?]
  · by_cases hproducer : s.nextTask = j
    · simp [hproducer, roleOf?]
    · simp only [hconsumer, hproducer, if_false]
      rfl

theorem Mans.subscribe {w : Crew} (h : s.Mans cluster w) (hs : s.Staffed) {model : ModelId}
    (hclient : (w.client.subscribe model).SameWatches (s'.cache.client cluster))
    (hroles : ∀ j, s'.role? cluster j =
      if s.nextTask + 1 = j then some (.consumer, w.client.subscriptions.size)
      else if s.nextTask = j then some (.producer, w.client.subscriptions.size)
      else s.role? cluster j) :
    s'.Mans cluster (w.lookedUp (w.client.subscribe model)) := by
  obtain ⟨ids, hnodup, hids, hall⟩ := h.tasks
  have hlt (j : TaskId) (hj : j ∈ ids) : j < s.nextTask := by
    by_contra hle
    have hmem : s.role? cluster j ∈ w.tasks.map some := hids ▸ List.mem_map_of_mem hj
    simp [hs.role?_fresh (Nat.le_of_not_lt hle)] at hmem
  have hold (j : TaskId) (hj : j < s.nextTask) : s'.role? cluster j = s.role? cluster j := by
    rw [hroles, if_neg (Nat.ne_of_gt (Nat.lt_succ_of_lt hj)), if_neg (Nat.ne_of_gt hj)]
  refine ⟨hclient, ids ++ [s.nextTask, s.nextTask + 1], ?_, ?_, ?_⟩
  · refine hnodup.append (by simp) ?_
    intro j hj hnew
    have hold := hlt j hj
    obtain rfl | rfl : j = s.nextTask ∨ j = s.nextTask + 1 := by simpa using hnew
    · exact absurd hold (Nat.lt_irrefl _)
    · exact absurd hold (Nat.not_lt_of_gt (Nat.lt_succ_self _))
  · rw [Crew.tasks_lookedUp_subscribe, List.map_append, List.map_append, ← hids,
      List.map_congr_left fun j hj => hold j (hlt j hj)]
    simp [hroles]
  · intro j hj
    rw [hroles] at hj
    split at hj
    next hnew => exact List.mem_append_right _ (by simp [← hnew])
    next =>
      split at hj
      next hnew => exact List.mem_append_right _ (by simp [← hnew])
      next => exact List.mem_append_left _ (hall j hj)

theorem Staffed.crews_subscribe (hs : s.Staffed) {model : ModelId}
    (hnone : (s.cache.client cluster).subscription? model = none)
    (hclients : ∀ other, s'.cache.client other =
      if cluster = other then (s.cache.client cluster).subscribe model else s.cache.client other)
    (hroles : ∀ other j, s'.role? other j =
      if s.nextTask + 1 = j then
        if cluster = other then some (.consumer, (s.cache.client cluster).subscriptions.size)
        else none
      else if s.nextTask = j then
        if cluster = other then some (.producer, (s.cache.client cluster).subscriptions.size)
        else none
      else s.role? other j)
    (other : ClusterId) : ∃ w : Crew, w.Reachable ∧ s'.Mans other w := by
  obtain ⟨w, hw, hmans⟩ := hs.crews other
  by_cases hother : cluster = other
  · subst hother
    have hnone' := (hmans.client.subscription? model).symm.trans hnone
    have hfound : w.client.lookup true model = .ok (w.client.subscribe model, .new model) := by
      simp [Client.lookup, hnone']
    have hsize : (s.cache.client cluster).subscriptions.size = w.client.subscriptions.size := by
      obtain ⟨connection, drawn, hsame⟩ := hmans.client
      rw [hsame]
    refine ⟨_, hw.lookup true model hfound, hmans.subscribe hs ?_ fun j => ?_⟩
    · rw [hclients, if_pos rfl]
      exact hmans.client.subscribe model
    · rw [hroles, hsize]
      simp only [if_true]
  · refine ⟨w, hw, hmans.of_roles ?_ rfl fun j => ?_⟩
    · rw [hclients, if_neg hother]
      exact hmans.client
    · rw [hroles]
      by_cases hj : j < s.nextTask
      · rw [if_neg (Nat.ne_of_gt (Nat.lt_succ_of_lt hj)), if_neg (Nat.ne_of_gt hj)]
      · simp [hother, hs.role?_fresh (Nat.le_of_not_lt hj)]

theorem Works.subscribe (h : s.Works id) {model : ModelId}
    (hnone : (s.cache.client cluster).subscription? model = none) :
    ((s.putClient ((s.cache.client cluster).subscribe model)).spawnWatch cluster
      (s.cache.client cluster).subscriptions.size).Works id := by
  obtain ⟨hs, hid, hrole⟩ := h
  let n := (s.cache.client cluster).subscriptions.size
  have heq := spawnWatch_eq (s.putClient ((s.cache.client cluster).subscribe model)) cluster n
  have hroles := role?_spawnWatch (s.putClient ((s.cache.client cluster).subscribe model)) cluster n
  generalize (s.putClient ((s.cache.client cluster).subscribe model)).spawnWatch cluster n = s'
    at heq hroles ⊢
  obtain ⟨hcache, -, hnames, hnext, -, htasks⟩ := heq
  change ∀ other j, _ = if s.nextTask + 1 = j then _ else if s.nextTask = j then _ else
    s.role? other j at hroles
  change ∀ j : TaskId, _ = if s.nextTask + 1 = j then _ else if s.nextTask = j then _ else
    s.tasks[j]? at htasks
  have hclients (other : ClusterId) : s'.cache.client other =
      if cluster = other then (s.cache.client cluster).subscribe model
      else s.cache.client other := by
    rw [hcache, Run.putClient, Cache.client_put]
    simp only [Client.subscribe, hs.keyed cluster]
  have hold (other : ClusterId) (j : TaskId) (hj : j < s.nextTask) :
      s'.role? other j = s.role? other j := by
    rw [hroles, if_neg (Nat.ne_of_gt (Nat.lt_succ_of_lt hj)), if_neg (Nat.ne_of_gt hj)]
  have hlater (j : TaskId) (hj : j < s.nextTask) : j < s'.nextTask :=
    hnext ▸ Nat.lt_succ_of_lt (Nat.lt_succ_of_lt hj)
  refine ⟨⟨?_, ?_, ?_, ?_⟩, hlater id hid, ?_⟩
  · intro other
    rw [hclients]
    split
    next hother => exact (hs.keyed cluster).trans hother
    next => exact hs.keyed other
  · intro j hj
    have hj' : s.nextTask + 2 ≤ j := hnext ▸ hj
    rw [htasks, if_neg (Nat.ne_of_lt hj'), if_neg (Nat.ne_of_lt (Nat.lt_of_succ_lt hj'))]
    exact hs.fresh j (Nat.le_of_succ_le (Nat.le_of_succ_le hj'))
  · intro j hj
    rw [hnames] at hj
    have haside := hs.aside j hj
    refine ⟨hlater j haside.1, fun other => ?_⟩
    rw [hold other j haside.1]
    exact haside.2 other
  · exact hs.crews_subscribe hnone hclients hroles
  · intro other
    rw [hold other id hid]
    exact hrole other

theorem Works.resolve (h : s.Works id) (cluster : ClusterId) (model : ModelId) (want : Nat) :
    (s.resolve id cluster model want).Works id := by
  have hopened := h.client cluster
  have hc := s.client_eq cluster
  unfold Run.resolve
  simp only
  generalize s.client cluster = opened at hopened hc
  obtain ⟨s₁, c⟩ := opened
  obtain rfl : c = s₁.cache.client cluster := hc
  split
  · exact hopened.finish _
  next c' r hl =>
    refine Works.finish ?_ _
    obtain rfl | ⟨hnone, rfl⟩ := Client.lookup_cases hl
    · rw [if_neg (Nat.lt_irrefl _)]
      exact hopened.putClient (.refl _)
    · have hstarted : (s₁.cache.client cluster).started <
          ((s₁.cache.client cluster).subscribe model).started := Nat.lt_succ_self _
      rw [if_pos hstarted]
      exact hopened.subscribe hnone

theorem Works.begin (h : s.Works id) (step : Step) : (s.begin id step).Works id := by
  cases step with
  | openClient cluster => exact h.openClient cluster
  | request cluster q => exact (h.client cluster).setWork rfl
  | resolve cluster model want => exact h.resolve cluster model want
  | acquire cluster => exact (h.client cluster).setWork rfl
  | poison cluster => exact h.poison cluster _
  | poisonIf cluster handle => exact h.poison cluster _
  | trial cluster allowed => exact (h.client cluster).setWork rfl
  | advance time => exact h.setWork rfl
  | start name step => exact h.startTask name step
  | peek name => exact h.finish _
  | join name => exact h.join name
  | cancel name => exact h.cancel name
  | prepare more => exact h.prepare more
  | command c => exact (h.command c).finish _
  | batch cs => exact (h.commands cs).finish _
  | watches model =>
    simp only [Run.begin, Run.watches]
    split <;> exact h.finish _
  | eventually cluster model size => exact (h.client cluster).lookAt _ _ _ _
  | lookUp cluster =>
    simp only [Run.begin, Run.lookUp]
    split
    · exact (h.withBackend _).finish _
    · exact h.finish _
  | dial address => exact h.setWork rfl
  | ask stub q =>
    simp only [Run.begin, Run.ask]
    split
    · exact (h.withBackend _).finish _
    · exact h.finish _
  | close stub =>
    simp only [Run.begin]
    split
    · exact (h.withBackend _).finish _
    · exact h.finish _
  | watch stub model cursor timeout =>
    simp only [Run.begin]
    split
    · exact h.setWork rfl
    · exact h.finish _

theorem Works.hearRequest (h : s.Works id) (cluster : ClusterId) (q : Request) (call : Call Answer)
    (heard : Heard) : (s.hearRequest id cluster q call heard).Works id := by
  unfold Run.hearRequest
  simp only [Client.call]
  split
  · exact (h.stepped cluster _).finish _
  · exact (h.stepped cluster _).setWork rfl

theorem Works.hearAcquire (h : s.Works id) (cluster : ClusterId) (a : Acquisition)
    (heard : Heard) : (s.hearAcquire id cluster a heard).Works id := by
  unfold Run.hearAcquire
  simp only [Client.acquire]
  split
  · exact ((h.stepped cluster _).books _ _ _ _).finish _
  · exact (h.stepped cluster _).finish _
  · exact (h.stepped cluster _).setWork rfl

theorem Works.hearTrial (h : s.Works id) (cluster : ClusterId) (t : Trial) (heard : Heard) :
    (s.hearTrial id cluster t heard).Works id := by
  unfold Run.hearTrial
  simp only
  split
  · exact (h.stepped cluster _).finish _
  · exact (h.stepped cluster _).setWork rfl

theorem Works.hear (h : s.Works id) {w : Work} (hw : w.isWatching = false) (heard : Heard) :
    (s.hear id w heard).Works id := by
  cases w with
  | produce | consume => cases hw
  | step step => exact h.begin step
  | request cluster q call => exact h.hearRequest cluster q call heard
  | acquire cluster a => exact h.hearAcquire cluster a heard
  | trial cluster t => exact h.hearTrial cluster t heard
  | sleep wakes => exact h.finish _
  | eventually cluster model size givesUp next => exact h.lookAt cluster model size givesUp
  | join target => exact h.finish _
  | dial address =>
    simp only [Run.hear]
    unfold Run.hearDial
    split
    · exact (h.books _ _ _ _).finish _
    · exact h.finish _
    · exact h.setWork rfl
  | watch link model cursor givesUp =>
    simp only [Run.hear]
    unfold Run.hearWatch
    split <;> exact h.finish _
  | ended r time => exact h

theorem Staffed.works (h : s.Staffed) (ht : s.tasks[id]? = some t)
    (hw : t.work.isWatching = false) : s.Works id := by
  refine ⟨h, h.lt_nextTask ht, fun cluster => ?_⟩
  rw [role?, ht]
  exact roleOf?_eq_none hw cluster

theorem Staffed.wakes (h : s.Staffed) (hw : Wakes s s') : s'.Staffed :=
  h.of_eq hw.cache (fun cluster j => role?_congr (by rw [hw.tasks]) cluster)
    (hw.tasks ▸ h.fresh) hw.nextTask hw.names

theorem Staffed.put (h : s.Staffed) {c : Client} (hc : c.cluster = cluster)
    (hcache : s'.cache = s.cache.put c)
    (hroles : ∀ other j, s'.role? other j = s.role? other j)
    (hfresh : ∀ j, s.nextTask ≤ j → s'.tasks[j]? = none) (hnext : s'.nextTask = s.nextTask)
    (hnames : s'.names = s.names)
    (hcrew : ∀ w : Crew, w.Reachable → s.Mans cluster w → ∃ w' : Crew, w'.Reachable ∧
      w'.client.SameWatches c ∧ w'.tasks = w.tasks) : s'.Staffed := by
  have hclients (other : ClusterId) :
      s'.cache.client other = if cluster = other then c else s.cache.client other := by
    rw [hcache, Cache.client_put, hc]
  constructor
  · intro other
    rw [hclients]
    split
    next hother => exact hc.trans hother
    next => exact h.keyed other
  · rw [hnext]
    exact hfresh
  · intro j hj
    rw [hnames] at hj
    have haside := h.aside j hj
    refine ⟨hnext ▸ haside.1, fun other => ?_⟩
    rw [hroles]
    exact haside.2 other
  · intro other
    obtain ⟨w, hw, hmans⟩ := h.crews other
    by_cases hother : cluster = other
    · subst hother
      obtain ⟨w', hw', hclient, htasks⟩ := hcrew w hw hmans
      refine ⟨w', hw', hmans.of_roles ?_ htasks (hroles cluster)⟩
      rw [hclients, if_pos rfl]
      exact hclient
    · refine ⟨w, hw, hmans.of_roles ?_ rfl (hroles other)⟩
      rw [hclients, if_neg hother]
      exact hmans.client

theorem Staffed.signal_ne_cutOff (h : s.Staffed) {n : Nat} {consumer : TaskId}
    {reply : Option Reply} {s₁ : Run} {heard : Heard}
    (hears : s.Hears id (.produce cluster n consumer) reply s₁ heard) :
    heard.signal response? ≠ .cutOff := by
  cases heard with
  | proceed => simp [Heard.signal]
  | reply r => exact signal_reply_ne_cutOff _ r
  | limit cause =>
    obtain ⟨q, limits, due, hwait, hmem⟩ := hears.limited cause rfl
    apply signal_limit_ne_cutOff
    rintro rfl
    obtain ⟨w, hw, hmans⟩ := h.crews cluster
    obtain ⟨connection, drawn, hsame⟩ := hmans.client
    simp only [wait, Work.wait, hsame] at hwait
    split at hwait
    next x hx =>
      obtain ⟨call, hcall, hwait⟩ := ofProducer_reply hwait
      have hongoing := (hw.session.watch n x hx).proper call hcall
      exact (ofCall_reply hwait).2 hongoing.1 due hmem
    next => cases hwait

theorem Staffed.hearProduce (h : s.Staffed) {n : Nat} {consumer : TaskId} {flight : Option Flight}
    (ht : s.tasks[id]? = some ⟨.produce cluster n consumer, flight⟩) {heard : Heard}
    (hsignal : heard.signal response? ≠ .cutOff) :
    (s.hearProduce id cluster n consumer heard).Staffed := by
  have htasks := tasks_hearProduce s id cluster n consumer heard
  have hkept : (s.hearProduce id cluster n consumer heard).nextTask = s.nextTask ∧
      (s.hearProduce id cluster n consumer heard).names = s.names := by
    unfold Run.hearProduce
    simp only
    split
    · exact ⟨(wakes_wake _ _).nextTask, (wakes_wake _ _).names⟩
    · exact ⟨rfl, rfl⟩
  refine h.put ((Client.cluster_produce ..).trans (h.keyed cluster)) (cache_hearProduce ..) ?_ ?_
    hkept.1 hkept.2 ?_
  · intro other j
    rw [role?, htasks]
    split
    next hj => rw [← hj, role?, ht]; rfl
    next => rfl
  · intro j hj
    rw [htasks, if_neg (Nat.ne_of_lt (Nat.lt_of_lt_of_le (h.lt_nextTask ht) hj))]
    exact h.fresh j hj
  · intro w hw hmans
    have hmem : (.producer, n) ∈ w.tasks := by
      refine hmans.mem_tasks id ?_
      simp [role?, ht, roleOf?]
    obtain ⟨draws, hsame⟩ := hmans.client.produce s.now (s.draws cluster) n (heard.signal response?)
    have hshared := hw.share (s.cache.client cluster).connection
    exact ⟨_, hshared.produce s.now draws _ hmem hsignal, hsame, rfl⟩

theorem Staffed.hearConsume (h : s.Staffed) {n : Nat} {producer : TaskId} {flight : Option Flight}
    (ht : s.tasks[id]? = some ⟨.consume cluster n producer, flight⟩) :
    (s.hearConsume cluster n producer).Staffed := by
  cases hc : (s.cache.client cluster).consume n with
  | none =>
    have hsame : s.hearConsume cluster n producer = s := by simp [Run.hearConsume, hc]
    rw [hsame]
    exact h
  | some c =>
    have htasks := tasks_hearConsume s cluster n producer
    have hkept : (s.hearConsume cluster n producer).nextTask = s.nextTask ∧
        (s.hearConsume cluster n producer).names = s.names := by
      unfold Run.hearConsume
      simp only [hc]
      split
      · exact ⟨(wakes_wake _ _).nextTask, (wakes_wake _ _).names⟩
      · exact ⟨rfl, rfl⟩
    obtain ⟨-, -, -, -, -, ⟨hcluster, -⟩, -, -⟩ := Client.consume_cases hc
    refine h.put (hcluster.trans (h.keyed cluster)) (cache_hearConsume hc _) ?_ ?_ hkept.1
      hkept.2 ?_
    · exact fun other j => role?_congr (by rw [htasks]) other
    · rw [htasks]
      exact h.fresh
    · intro w hw hmans
      have hmem : (.consumer, n) ∈ w.tasks := by
        refine hmans.mem_tasks id ?_
        simp [role?, ht, roleOf?]
      obtain ⟨d, hd, hsame⟩ := hmans.client.consume hc
      obtain ⟨x, x', u, hx, hu, -, -, -⟩ := Client.consume_cases hd
      exact ⟨_, hw.consume hmem hx hu hd, hsame, rfl⟩

theorem Staffed.goOn (h : s.Staffed) {s₁ : Run} {reply : Option Reply} {heard : Heard}
    (ht : s.tasks[id]? = some t) (hears : s.Hears id t.work reply s₁ heard) :
    (s₁.goOn id t.work heard).Staffed := by
  have h₁ := h.wakes hears.wakes
  have ht₁ : s₁.tasks[id]? = some t := by rw [hears.wakes.tasks, ht]
  obtain ⟨work, flight⟩ := t
  have hhears : (s₁.hear id work heard).Staffed := by
    cases work with
    | produce cluster n consumer => exact h₁.hearProduce ht₁ (h.signal_ne_cutOff hears)
    | consume cluster n producer => exact h₁.hearConsume ht₁
    | _ => exact ((h₁.works ht₁ rfl).hear rfl heard).1
  exact hhears.of_eq rfl (fun _ _ => rfl) hhears.fresh rfl rfl

theorem rests_of_move (ht : s.tasks[id]? = some t) (hrests : (s.move id).2 = false) :
    ∃ s₁ flight, Wakes s s₁ ∧ (s.move id).1.cache = s₁.cache ∧
      (s.move id).1.nextTask = s₁.nextTask ∧ (s.move id).1.names = s₁.names ∧
      ∀ j, (s.move id).1.tasks[j]? = if id = j then some ⟨t.work, flight⟩ else s₁.tasks[j]? := by
  have hsame (j : TaskId) :
      s.tasks[j]? = if id = j then some ⟨t.work, t.flight⟩ else s.tasks[j]? := by
    split
    next hj => exact hj ▸ ht
    next => rfl
  cases hwait : s.wait t.work with
  | nothing => simp [move, ht, hwait] at hrests
  | close link => simp [move, ht, hwait] at hrests
  | reply q limits =>
    have hmove : s.move id = s.await id t q limits := by simp [move, ht, hwait]
    rw [hmove] at hrests ⊢
    have hput := wakes_put s id t.flight q
    unfold await at hrests ⊢
    generalize s.put id t.flight q = asked at hput hrests ⊢
    obtain ⟨s₁, flight⟩ := asked
    simp only at hput hrests ⊢
    generalize s₁.backend.poll s₁.now id flight = polled at hrests ⊢
    obtain ⟨b, _ | reply⟩ := polled
    · simp only at hrests ⊢
      split at hrests
      · cases hrests
      · exact ⟨s₁.withBackend b, some flight, hput.trans (wakes_withBackend _ _), rfl, rfl, rfl,
          tasks_setTask _ _ _⟩
    · cases hrests
  | clock due =>
    have hmove : (s.move id).1 = s.setAlarms id [(.pause, due)] := by
      by_cases hdue : due ≤ s.now
      · simp [move, ht, hwait, hdue] at hrests
      · simp [move, ht, hwait, hdue]
    rw [hmove]
    exact ⟨s, t.flight, .refl s, rfl, rfl, rfl, hsame⟩
  | idle =>
    have hmove : (s.move id).1 = s := by simp [move, ht, hwait]
    rw [hmove]
    exact ⟨s, t.flight, .refl s, rfl, rfl, rfl, hsame⟩
  | ended =>
    have hmove : (s.move id).1 = s := by simp [move, ht, hwait]
    rw [hmove]
    exact ⟨s, t.flight, .refl s, rfl, rfl, rfl, hsame⟩

theorem Staffed.move (h : s.Staffed) (id : TaskId) : (s.move id).1.Staffed := by
  cases ht : s.tasks[id]? with
  | none =>
    have hsame : s.move id = (s, false) := by simp [Run.move, ht]
    rw [hsame]
    exact h
  | some t =>
    cases hmoves : (s.move id).2 with
    | true =>
      obtain ⟨reply, s₁, heard, hears⟩ := hears_of_move ht hmoves
      rw [hears.moved]
      exact h.goOn ht hears
    | false =>
      obtain ⟨s₁, flight, hwakes, hcache, hnext, hnames, htasks⟩ := rests_of_move ht hmoves
      have h₁ := h.wakes hwakes
      have ht₁ : s₁.tasks[id]? = some t := by rw [hwakes.tasks, ht]
      refine h₁.of_eq hcache ?_ ?_ hnext hnames
      · intro cluster j
        rw [role?, htasks]
        split
        next hj => rw [← hj, role?, ht₁]; rfl
        next => rfl
      · intro j hj
        rw [htasks, if_neg (Nat.ne_of_lt (Nat.lt_of_lt_of_le (h₁.lt_nextTask ht₁) hj))]
        exact h₁.fresh j hj

theorem staffed_new (registry : RegistrySettings) (retry : RetrySettings) (backend : Backend)
    (draws : ClusterId → Draws) : (Run.new (.new registry retry) backend draws).Staffed := by
  have htask (j : TaskId) : (Run.new (.new registry retry) backend draws).tasks[j]? = none := by
    simp [Run.new]
  have hrole (cluster : ClusterId) (j : TaskId) :
      (Run.new (.new registry retry) backend draws).role? cluster j = none := by simp [role?, htask]
  have hclient (cluster : ClusterId) :
      (Run.new (.new registry retry) backend draws).cache.client cluster =
        .new cluster registry retry := by simp [Run.new, Cache.client, Cache.new]
  constructor
  · intro cluster
    rw [hclient]
    rfl
  · exact fun j _ => htask j
  · rintro j (rfl | ⟨name, hname⟩)
    · exact ⟨Nat.zero_lt_one, fun cluster => hrole cluster main⟩
    · simp [Run.new] at hname
  · intro cluster
    refine ⟨_, .start cluster registry retry, ?_, [], .nil, rfl, ?_⟩
    · rw [hclient]
      exact .refl _
    · intro j hj
      exact absurd (hrole cluster j) hj

/-- In every run, whatever it may do, the client of each cluster is in a state that a crew can
reach, and the run has one task for each of the crew's. -/
theorem Reachable.staffed {admits : Run → Work → Prop} {start : Run} {running : Option TaskId}
    (hstart : start.Staffed) (h : Reachable admits start running s) : s.Staffed := by
  induction h with
  | start => exact hstart
  | wake _ _ ih => exact ih.of_eq rfl (fun _ _ => rfl) ih.fresh rfl rfl
  | main _ _ ih => exact ih.of_eq rfl (fun _ _ => rfl) ih.fresh rfl rfl
  | move _ _ ih => exact ih.move _
  | yield _ ih => exact ih.wakes (wakes_wake _ _)
  | @jump s s' _ hjump ih =>
    unfold Run.jump at hjump
    split at hjump
    next due _ =>
      obtain rfl := Option.some.inj hjump
      refine Staffed.wakes ?_ (wakes_wakeAll _ _)
      exact ih.of_eq rfl (fun _ _ => rfl) ih.fresh rfl rfl
    next => cases hjump
  | @begin s step _ _ ih =>
    have hworks : s.Works Run.main := ⟨ih, ih.aside Run.main (.inl rfl)⟩
    have hset := (hworks.setWork (w := .step step) rfl).1
    exact hset.of_eq rfl (fun _ _ => rfl) hset.fresh rfl rfl

end Simulation.Run

end ModelRegistry
