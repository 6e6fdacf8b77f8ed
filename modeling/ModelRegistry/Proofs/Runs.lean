import ModelRegistry.Proofs.Moves

namespace ModelRegistry.Simulation.Run

open MemoryRegistry

variable {lax : Prop}

def Rests (s : Run) : Prop :=
  ∀ t, s.tasks[main]? = some t → ∃ result time, t.work = .ended result time

/-- From `start` the tasks that are ready move in any order; time passes and steps of the run begin
while no task moves. Every move is one that `admits` lets pass. -/
inductive Reachable (admits : Run → Work → Prop) (start : Run) : Option TaskId → Run → Prop
  | start : Reachable admits start none start
  | wake {s : Run} {id : TaskId} : Reachable admits start none s → id ∈ s.ready →
      Reachable admits start (some id) { s with ready := s.ready.erase id }
  | main {s : Run} : Reachable admits start none s → s.mainReady →
      Reachable admits start (some main) { s with mainReady := false }
  | move {s : Run} {id : TaskId} : Reachable admits start (some id) s →
      (∀ t, s.tasks[id]? = some t → admits s t.work) →
      Reachable admits start (if (s.move id).2 then some id else none) (s.move id).1
  | yield {s : Run} {id : TaskId} : Reachable admits start (some id) s →
      Reachable admits start none (s.wake id)
  | jump {s s' : Run} : Reachable admits start none s → s.jump = some s' →
      Reachable admits start none s'
  | begin {s : Run} (step : Step) : Reachable admits start none s → s.Rests →
      Reachable admits start none { s.setWork Run.main (.step step) with mainReady := true }

def fresh (cache : RegistrySettings × RetrySettings) (table : Option AddressTable)
    (identities : Nat → String) (draws : ClusterId → Draws) : Run :=
  .new (.new cache.1 cache.2) ⟨table, .memory (.new identities)⟩ draws

theorem client_fresh (settings : RegistrySettings × RetrySettings) (table : Option AddressTable)
    (identities : Nat → String) (draws : ClusterId → Draws) (cluster : ClusterId) :
    (fresh settings table identities draws).cache.client cluster =
      .new cluster settings.1 settings.2 := by
  simp [fresh, Run.new, Cache.client, Cache.new]

theorem sub_fresh (settings : RegistrySettings × RetrySettings) (table : Option AddressTable)
    (identities : Nat → String) (draws : ClusterId → Draws) (cluster : ClusterId) (n : Nat) :
    (fresh settings table identities draws).sub cluster n = none := by
  simp [Run.sub, client_fresh, Client.new]

theorem orderly_fresh (settings : RegistrySettings × RetrySettings) (table : Option AddressTable)
    {identities : Nat → String} (h : Distinct identities) (draws : ClusterId → Draws) :
    (fresh settings table identities draws).Orderly lax none := by
  have htask : ∀ id : TaskId, (fresh settings table identities draws).tasks[id]? = none := by
    intro id
    simp [fresh, Run.new]
  constructor
  · refine ⟨.new identities, rfl, h, ?_⟩
    constructor
    · intro cluster n s hs
      simp [sub_fresh] at hs
    · intro id cluster n j f hid
      simp [htask] at hid
    · intro id id' cluster n j j' f f' hid
      simp [htask] at hid
    · intro id w f hid
      simp [htask] at hid
    · intro w hw
      cases hw
    · intro w hw
      cases hw
  · intro cluster
    rw [client_fresh]
    rfl
  · exact ⟨Nat.zero_lt_one, fun id _ => htask id⟩
  · rintro id (rfl | ⟨name, hname⟩)
    · refine ⟨Nat.zero_lt_one, fun t ht => ?_⟩
      simp [htask] at ht
    · simp [fresh, Run.new] at hname

theorem Orderly.wakeUp {s s' : Run} {running running' : Option TaskId} (h : s.Orderly lax running)
    (hs : s'.backend = s.backend ∧ s'.cache = s.cache ∧ s'.tasks = s.tasks ∧
      s'.nextTask = s.nextTask ∧ s'.names = s.names)
    (ha : ∀ id, s.Awake running id → s'.Awake running' id) : s'.Orderly lax running' := by
  obtain ⟨r, hr, hd, hi⟩ := h.order
  obtain ⟨hb, hc, ht, hn, hm⟩ := hs
  have hsub : s'.sub = s.sub := by
    funext cluster n
    rw [Run.sub, hc, Run.sub]
  refine ⟨⟨r, hb ▸ hr, hd, ?_⟩, ?_, ?_, ?_⟩
  · rw [hsub, ht]
    exact hi.awake_mono ha
  · rw [hc]
    exact h.keyed
  · rw [hn, ht]
    exact h.fresh
  · rw [hn, hm, ht]
    exact h.named

theorem Orderly.jump {s s' : Run} (h : s.Orderly lax none) (hj : s.jump = some s') :
    s'.Orderly lax none := by
  unfold Run.jump at hj
  split at hj
  · rename_i due _
    simp only [Option.some.injEq] at hj
    subst hj
    refine Orderly.wakes ?_ (wakes_wakeAll _ _) (backend_wakeAll _ _)
    exact h.wakeUp ⟨rfl, rfl, rfl, rfl, rfl⟩ (fun _ ha => ha)
  · cases hj

theorem Orderly.begin {s : Run} (h : s.Orderly lax none) (hm : s.Rests) (step : Step) :
    Orderly lax { s.setWork main (.step step) with mainReady := true } none := by
  have hfree : s.Free main := by
    refine ⟨h.fresh.1, (h.named main (.inl rfl)).2, h.unparked ?_⟩
    intro t ht q limits hq
    obtain ⟨result, time, hw⟩ := hm t ht
    rw [hw] at hq
    cases hq
  have hset := h.inert (inert_setWork main s (w := .step step) rfl) hfree
  refine hset.wakeUp ⟨rfl, rfl, rfl, rfl, rfl⟩ ?_
  rintro id (ha | ⟨rfl, -⟩ | ha)
  · exact .inl ha
  · exact .inr (.inl ⟨rfl, rfl⟩)
  · cases ha

theorem Reachable.inOrder {start s : Run} {running : Option TaskId}
    (h : Reachable (LetsWork lax) start running s) (h₀ : start.Orderly lax none) :
    s.Orderly lax running := by
  induction h with
  | start => exact h₀
  | @wake s id _ _ ih =>
    refine ih.wakeUp ⟨rfl, rfl, rfl, rfl, rfl⟩ ?_
    rintro i (hi | hi | hi)
    · by_cases hne : i = id
      · exact .inr (.inr (by rw [hne]))
      · exact .inl ((List.mem_erase_of_ne hne).mpr hi)
    · exact .inr (.inl hi)
    · cases hi
  | main _ _ ih =>
    refine ih.wakeUp ⟨rfl, rfl, rfl, rfl, rfl⟩ ?_
    rintro i (hi | ⟨rfl, -⟩ | hi)
    · exact .inl hi
    · exact .inr (.inr rfl)
    · cases hi
  | move _ hw ih => exact ih.move hw
  | @yield s id _ ih =>
    refine Orderly.wakeUp (ih.wakes (wakes_wake s id) (backend_wake s id))
      ⟨rfl, rfl, rfl, rfl, rfl⟩ ?_
    intro i hi
    by_cases hne : i = id
    · rw [hne]
      exact awake_wake s none id
    · exact awake_stop hi hne
  | jump _ hj ih => exact ih.jump hj
  | begin step _ hm ih => exact ih.begin hm step

variable {admits : Run → Work → Prop} {start s : Run}

theorem Reachable.mono {admits' : Run → Work → Prop} {running : Option TaskId}
    (ha : ∀ s w, admits s w → admits' s w) (h : Reachable admits start running s) :
    Reachable admits' start running s := by
  induction h with
  | start => exact .start
  | wake _ hid ih => exact ih.wake hid
  | main _ hm ih => exact ih.main hm
  | move _ hw ih => exact ih.move fun t ht => ha _ _ (hw t ht)
  | yield _ ih => exact ih.yield
  | jump _ hj ih => exact ih.jump hj
  | begin step _ hm ih => exact ih.begin step hm

theorem Reachable.orderly {running : Option TaskId} (h : Reachable AdmitsWork start running s)
    (h₀ : start.Orderly False none) : s.Orderly False running :=
  (h.mono fun _ _ => letsWork_of_admitsWork).inOrder h₀

def AdmitsMoves (admits : Run → Work → Prop) : Nat → Run → TaskId → Prop
  | 0, _, _ => True
  | n + 1, s, id => (∀ t, s.tasks[id]? = some t → admits s t.work) ∧
      ((s.move id).2 → AdmitsMoves admits n (s.move id).1 id)

theorem admitsMoves_of_forall (h : ∀ s w, admits s w) (n : Nat) (s : Run) (id : TaskId) :
    AdmitsMoves admits n s id := by
  induction n generalizing s with
  | zero => exact trivial
  | succ n ih => exact ⟨fun t _ => h s t.work, fun _ => ih _⟩

theorem Reachable.poll {id : TaskId} {n : Nat} (h : Reachable admits start (some id) s)
    (hn : AdmitsMoves admits n s id) : Reachable admits start none (poll n s id) := by
  induction n generalizing s with
  | zero => exact h.yield
  | succ n ih =>
    have hmove := h.move hn.1
    rw [Run.poll]
    split
    · rename_i s' he
      rw [he] at hmove
      exact ih hmove (by simpa [he] using hn.2)
    · rename_i s' he
      rwa [he] at hmove

theorem Reachable.drain (ha : ∀ s w, admits s w) (h : Reachable admits start none s) (n : Nat) :
    Reachable admits start none (drain n s) := by
  induction n generalizing s with
  | zero => exact h
  | succ n ih =>
    rw [Run.drain]
    split
    · exact h
    · rename_i id rest hready
      have hwake := h.wake (hready ▸ List.mem_cons_self)
      rw [hready, List.erase_cons_head] at hwake
      exact ih (hwake.poll (admitsMoves_of_forall ha _ _ id))

theorem Reachable.awaitMain (ha : ∀ s w, admits s w) (h : Reachable admits start none s) (n : Nat) :
    Reachable admits start none (awaitMain n s) := by
  induction n generalizing s with
  | zero => exact h
  | succ n ih =>
    have hmain : Reachable admits start none s.pollMain := by
      unfold pollMain
      split
      · rename_i hready
        exact (h.main hready).poll (admitsMoves_of_forall ha _ _ _)
      · exact h
    rw [Run.awaitMain]
    simp only
    split
    · exact hmain
    · have hdrain := hmain.drain ha fuel
      split
      · exact ih hdrain
      · split
        · rename_i hjump
          exact ih (hdrain.jump hjump)
        · exact hdrain

theorem Reachable.perform (ha : ∀ s w, admits s w) (h : Reachable admits start none s)
    (hm : s.Rests) (step : Step) : Reachable admits start none (s.perform step).1 :=
  ((h.begin step hm).awaitMain ha fuel).drain ha fuel

end ModelRegistry.Simulation.Run
