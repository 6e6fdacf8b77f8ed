import ModelRegistry.Proofs.Bystanders

namespace ModelRegistry.Simulation.Run

open MemoryRegistry

variable {lax : Prop}

theorem wakes_spawn (s : Run) (w : Work) :
    Wakes { s.setWork s.nextTask w with nextTask := s.nextTask + 1 } (s.spawn w) :=
  wakes_wake _ _

theorem backend_spawn (s : Run) (w : Work) : (s.spawn w).backend = s.backend :=
  backend_wake _ _

theorem tasks_spawn (s : Run) (w : Work) (j : TaskId) :
    (s.spawn w).tasks[j]? = if s.nextTask = j then some ⟨w, none⟩ else s.tasks[j]? := by
  rw [(wakes_spawn s w).tasks]
  exact tasks_setTask s s.nextTask ⟨w, none⟩ j

theorem awake_spawn {s : Run} {running : Option TaskId} {id : TaskId} (h : s.Awake running id)
    (w : Work) : (s.spawn w).Awake running id :=
  (wakes_spawn s w).awake h

theorem Apt.spawn {s : Run} {running : Option TaskId} {id : TaskId} (h : s.Apt lax running id)
    {w : Work} (hw : w.isWatching = false) {names : Std.ExtTreeMap String TaskId}
    (hn : ∀ (name : String) j, names[name]? = some j →
      j = s.nextTask ∨ ∃ name : String, s.names[name]? = some j) :
    ({ s with names }.spawn w).Apt lax running id := by
  obtain ⟨ho, hf⟩ := h
  obtain ⟨r, hr, hd, hi⟩ := ho.order
  have hs := wakes_spawn { s with names } w
  have hb : ({ s with names }.spawn w).backend = s.backend := backend_spawn _ _
  have hnew : s.tasks[s.nextTask]? = none := ho.fresh.2 _ (Nat.le_refl _)
  have htask : ∀ j, ({ s with names }.spawn w).tasks[j]? =
      if s.nextTask = j then some ⟨w, none⟩ else s.tasks[j]? := tasks_spawn { s with names } w
  have hother : ∀ j, j ≠ s.nextTask → ({ s with names }.spawn w).tasks[j]? = s.tasks[j]? :=
    fun j hj => by rw [htask, if_neg (Ne.symm hj)]
  have hself : ({ s with names }.spawn w).tasks[s.nextTask]? = some ⟨w, none⟩ := by
    rw [htask, if_pos rfl]
  refine ⟨⟨⟨r, by rw [hb, hr], hd, ?_⟩, ?_, ?_, ?_⟩, ⟨?_, ?_, ?_⟩⟩
  · rw [hs.sub]
    have ha : ∀ j, s.Awake running j → ({ s with names }.spawn w).Awake running j :=
      fun j hj => awake_spawn (s := { s with names }) hj w
    exact (hi.awake_mono ha).spawn hother hnew hself hw
  · rw [hs.cache]
    exact ho.keyed
  · rw [hs.nextTask]
    refine ⟨Nat.lt_succ_of_lt ho.fresh.1, fun j hj => ?_⟩
    have hlt : s.nextTask < j := hj
    rw [hother j (Nat.ne_of_gt hlt), ho.fresh.2 j (Nat.le_of_lt hlt)]
  · rw [hs.nextTask, hs.names]
    intro j hj
    have hcases : j = s.nextTask ∨ j = main ∨ ∃ name : String, s.names[name]? = some j := by
      rcases hj with hj | ⟨name, hj⟩
      · exact .inr (.inl hj)
      · exact (hn name j hj).imp_right .inr
    rcases hcases with rfl | hj
    · refine ⟨Nat.lt_succ_self _, fun t ht => ?_⟩
      obtain rfl := Option.some.inj (hself.symm.trans ht)
      exact hw
    · obtain ⟨hlt, hplain⟩ := ho.named j hj
      refine ⟨Nat.lt_succ_of_lt hlt, fun t ht => hplain t ?_⟩
      rwa [hother j (Nat.ne_of_lt hlt)] at ht
  · rw [hs.nextTask]
    exact Nat.lt_succ_of_lt hf.lt
  · rw [hother id (Nat.ne_of_lt hf.lt)]
    exact hf.task
  · rw [hb]
    exact hf.parked

theorem Apt.startTask {s : Run} {running : Option TaskId} {id : TaskId} (h : s.Apt lax running id)
    (name : String) (step : Step) : (s.startTask id name step).Apt lax running id := by
  refine Apt.finish (h.spawn rfl ?_) _
  intro other j hj
  rw [Std.ExtTreeMap.getElem?_insert] at hj
  split at hj
  · exact .inl (Option.some.inj hj).symm
  · exact .inr ⟨other, hj⟩

theorem spawnWatch_eq (s : Run) (cluster : ClusterId) (n : Nat) :
    (s.spawnWatch cluster n).cache = s.cache ∧ (s.spawnWatch cluster n).backend = s.backend ∧
      (s.spawnWatch cluster n).names = s.names ∧
      (s.spawnWatch cluster n).nextTask = s.nextTask + 2 ∧
      (∀ running id, s.Awake running id → (s.spawnWatch cluster n).Awake running id) ∧
      ∀ j, (s.spawnWatch cluster n).tasks[j]? =
        if s.nextTask + 1 = j then some ⟨.consume cluster n s.nextTask, none⟩
        else if s.nextTask = j then some ⟨.produce cluster n (s.nextTask + 1), none⟩
        else s.tasks[j]? := by
  have h₁ := wakes_spawn s (.produce cluster n (s.nextTask + 1))
  have h₂ := wakes_spawn (s.spawn (.produce cluster n (s.nextTask + 1)))
    (.consume cluster n s.nextTask)
  have hnext : (s.spawn (.produce cluster n (s.nextTask + 1))).nextTask = s.nextTask + 1 :=
    h₁.nextTask
  refine ⟨h₂.cache.trans h₁.cache, (backend_spawn _ _).trans (backend_spawn _ _),
    h₂.names.trans h₁.names, ?_, ?_, ?_⟩
  · rw [spawnWatch, h₂.nextTask]
    exact congrArg (· + 1) hnext
  · exact fun running id ha => awake_spawn (awake_spawn ha _) _
  · intro j
    rw [spawnWatch, tasks_spawn, tasks_spawn, hnext]

theorem sub_subscribe {s : Run} (hk : ∀ cluster, (s.cache.client cluster).cluster = cluster)
    (cluster : ClusterId) (model : ModelId) {n : Nat}
    (hn : (s.cache.client cluster).subscriptions.size = n) :
    s.sub cluster n = none ∧
      (s.putClient ((s.cache.client cluster).subscribe model)).sub cluster n =
        some (.start (s.cache.client cluster).retry model) ∧
      ∀ other m, (other, m) ≠ (cluster, n) →
        (s.putClient ((s.cache.client cluster).subscribe model)).sub other m = s.sub other m := by
  have hclient : ∀ other,
      (s.putClient ((s.cache.client cluster).subscribe model)).cache.client other =
        if cluster = other then (s.cache.client cluster).subscribe model
        else s.cache.client other := by
    intro other
    rw [Run.putClient, Cache.client_put]
    simp only [Client.subscribe, hk cluster]
  subst hn
  refine ⟨Array.getElem?_size, ?_, ?_⟩
  · rw [Run.sub, hclient, if_pos rfl]
    exact Array.getElem?_push_size
  · intro other m hom
    rw [Run.sub, hclient]
    split
    · rename_i he
      subst he
      have hm : m ≠ (s.cache.client cluster).subscriptions.size := fun hm => hom (by rw [hm])
      rw [Run.sub, Client.subscribe, Array.getElem?_push, if_neg hm]
    · rfl

theorem Apt.subscribe {s : Run} {running : Option TaskId} {id : TaskId} (h : s.Apt lax running id)
    (cluster : ClusterId) (model : ModelId) :
    ((s.putClient ((s.cache.client cluster).subscribe model)).spawnWatch cluster
      (s.cache.client cluster).subscriptions.size).Apt lax running id := by
  obtain ⟨ho, hf⟩ := h
  obtain ⟨r, hr, hd, hi⟩ := ho.order
  obtain ⟨hcache, hbackend, hnames, hnext, hawake, htasks⟩ :=
    spawnWatch_eq (s.putClient ((s.cache.client cluster).subscribe model)) cluster
      (s.cache.client cluster).subscriptions.size
  generalize hn : (s.cache.client cluster).subscriptions.size = n at *
  obtain ⟨hnone, hstart, hsame⟩ := sub_subscribe ho.keyed cluster model hn
  have hkeyed := keyed_putClient ho.keyed ((s.cache.client cluster).subscribe model)
  generalize (s.putClient ((s.cache.client cluster).subscribe model)).spawnWatch cluster n = s' at *
  replace hnext : s'.nextTask = s.nextTask + 2 := hnext
  replace hnames : s'.names = s.names := hnames
  replace htasks : ∀ j, s'.tasks[j]? =
      if s.nextTask + 1 = j then some ⟨.consume cluster n s.nextTask, none⟩
      else if s.nextTask = j then some ⟨.produce cluster n (s.nextTask + 1), none⟩
      else s.tasks[j]? := htasks
  have hsub : s'.sub = (s.putClient ((s.cache.client cluster).subscribe model)).sub := by
    funext other m
    rw [Run.sub, hcache, Run.sub]
  have hne : s.nextTask ≠ s.nextTask + 1 := Nat.ne_of_lt (Nat.lt_succ_self _)
  have hself : s'.tasks[s.nextTask]? = some ⟨.produce cluster n (s.nextTask + 1), none⟩ := by
    rw [htasks, if_neg hne.symm, if_pos rfl]
  have hself' : s'.tasks[s.nextTask + 1]? = some ⟨.consume cluster n s.nextTask, none⟩ := by
    rw [htasks, if_pos rfl]
  have hother : ∀ j, j ≠ s.nextTask → j ≠ s.nextTask + 1 → s'.tasks[j]? = s.tasks[j]? := by
    intro j h₁ h₂
    rw [htasks, if_neg h₂.symm, if_neg h₁.symm]
  have hold : ∀ j, j < s.nextTask → s'.tasks[j]? = s.tasks[j]? := by
    intro j hj
    exact hother j (Nat.ne_of_lt hj) (Nat.ne_of_lt (Nat.lt_succ_of_lt hj))
  refine ⟨⟨⟨r, hbackend.trans rfl ▸ hr, hd, ?_⟩, ?_, ?_, ?_⟩, ⟨?_, ?_, ?_⟩⟩
  · rw [hsub]
    exact (hi.awake_mono fun j hj => hawake running j hj).subscribe hd hnone hstart hsame
      (ho.fresh.2 _ (Nat.le_refl _)) (ho.fresh.2 _ (Nat.le_succ _)) hne hself hself' hother
  · rw [hcache]
    exact hkeyed
  · rw [hnext]
    refine ⟨Nat.lt_of_lt_of_le ho.fresh.1 (Nat.le_add_right _ _), fun j hj => ?_⟩
    have h₁ : s.nextTask + 1 < j := hj
    have h₂ : s.nextTask < j := Nat.lt_of_succ_lt h₁
    rw [hother j (Nat.ne_of_gt h₂) (Nat.ne_of_gt h₁), ho.fresh.2 j (Nat.le_of_lt h₂)]
  · rw [hnext, hnames]
    intro j hj
    obtain ⟨hlt, hplain⟩ := ho.named j hj
    exact ⟨Nat.lt_of_lt_of_le hlt (Nat.le_add_right _ _),
      fun t ht => hplain t (by rwa [hold j hlt] at ht)⟩
  · rw [hnext]
    exact Nat.lt_of_lt_of_le hf.lt (Nat.le_add_right _ _)
  · rw [hold id hf.lt]
    exact hf.task
  · rw [hbackend]
    exact hf.parked

theorem Apt.release {s : Run} {running : Option TaskId} {id : TaskId} (h : s.Apt lax running id)
    (w : Work) : (s.release w).Apt lax running id := by
  cases w with
  | request cluster r call =>
    cases hc : s.client cluster with
    | mk s' c =>
      obtain ⟨h', rfl, -⟩ := h.client hc
      simp only [Run.release, hc]
      exact h'.putClient rfl rfl
  | acquire cluster a =>
    cases hc : s.client cluster with
    | mk s' c =>
      obtain ⟨h', rfl, -⟩ := h.client hc
      simp only [Run.release, hc]
      exact h'.putClient rfl rfl
  | trial cluster t =>
    cases hc : s.client cluster with
    | mk s' c =>
      obtain ⟨h', rfl, -⟩ := h.client hc
      simp only [Run.release, hc]
      exact h'.putClient rfl rfl
  | _ => exact h

theorem tasks_release (s : Run) (w : Work) : (s.release w).tasks = s.tasks := by
  cases w <;> rfl

theorem Apt.cancelTask {s : Run} {running : Option TaskId} {id : TaskId} (h : s.Apt lax running id)
    {task : TaskId} (hplain : ∀ t, s.tasks[task]? = some t → t.work.isWatching = false) :
    (s.cancelTask task).Apt lax running id := by
  unfold Run.cancelTask
  split
  · exact h
  · exact h
  rename_i t _ _
  have hplain' : ∀ t', (s.release t.work).tasks[task]? = some t' → t'.work.isWatching = false := by
    rw [tasks_release]
    exact hplain
  obtain ⟨ho, hf⟩ := h.release t.work
  generalize s.release t.work = s₁ at *
  obtain ⟨r, hr, hd, hi⟩ := ho.order
  have herase : ∀ j : TaskId, j ≠ task → (s₁.tasks.erase task)[j]? = s₁.tasks[j]? := by
    intro j hj
    simp [Std.ExtTreeMap.getElem?_erase, Ne.symm hj]
  have hsome : ∀ (j : TaskId) t', (s₁.tasks.erase task)[j]? = some t' → s₁.tasks[j]? = some t' := by
    intro j t' hj
    by_cases hne : j = task
    · subst hne
      simp at hj
    · rwa [herase j hne] at hj
  have hmem : ∀ w ∈ (r.unpark task).parked, w.caller ≠ task :=
    fun w hw => caller_ne_of_mem_unpark hw
  constructor
  · constructor
    · refine ⟨r.unpark task, by simp [Backend.drop, hr, Collaborators.drop], hd, ?_⟩
      refine (InOrder.sleep (hi.unpark task) ?_ (fun w hw he => absurd he (hmem w hw)) ?_).setTask
        hmem herase hplain' ?_
      · intro j hj ha
        exact ha.imp_left fun hj' => (List.mem_erase_of_ne hj).mpr hj'
      · intro i cluster n f sub hi' _
        obtain ⟨_, _, ⟨g, hg⟩, _⟩ := hi.producer i cluster n task f hi'
        have hwatch := hplain' _ hg
        cases hwatch
      · intro t' ht'
        simp at ht'
    · exact ho.keyed
    · exact ⟨ho.fresh.1, fun j hj => by
        by_contra hne
        obtain ⟨t', ht'⟩ := Option.ne_none_iff_exists'.mp hne
        have hj' := ho.fresh.2 j hj
        rw [hsome j t' ht'] at hj'
        cases hj'⟩
    · intro j hj
      exact ⟨(ho.named j hj).1, fun t' ht' => (ho.named j hj).2 t' (hsome j t' ht')⟩
  · refine ⟨hf.lt, fun t' ht' => hf.task t' (hsome id t' ht'), ?_⟩
    intro r' hr' w hw
    have he : r.unpark task = r' := by
      simpa [Backend.drop, hr, Collaborators.drop, clearAlarms] using hr'
    subst he
    exact hf.parked r hr w (List.mem_filter.mp hw).1

end ModelRegistry.Simulation.Run
