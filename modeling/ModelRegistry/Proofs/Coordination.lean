import ModelRegistry.Proofs.Following
import ModelRegistry.Simulation.Schedule

/-!
What holds between a registry in memory, the subscriptions that follow it and the tasks that move
them: every watch that is parked is the present request of a producer, and whoever has something to
do is awake.
-/

namespace ModelRegistry.Simulation

open MemoryRegistry

namespace Work

def isWatching : Work → Bool
  | produce .. | consume .. => true
  | _ => false

end Work

def Awaits (sub : ClusterId → Nat → Option Subscription) (w : ParkedWatch) : Work → Prop
  | .produce cluster n _ => ∃ s k, sub cluster n = some s ∧ s.producer.stage = .calling k ∧
      k.stage = .operating w.link ∧ w.model = s.replica.model ∧ w.cursor = s.producer.asked
  | .watch link model cursor _ => w.link = link ∧ w.model = model ∧ w.cursor = cursor
  | _ => False

def Holds (sub : ClusterId → Nat → Option Subscription) (model : ModelId) (c : Cursor) : Prop :=
  ∃ cluster n s, sub cluster n = some s ∧ s.replica.model = model ∧ s.producer.held = some c

structure InOrder (lax : Prop) (r : MemoryRegistry) (sub : ClusterId → Nat → Option Subscription)
    (task : TaskId → Option Task) (awake : TaskId → Prop) : Prop where
  follows : ∀ cluster n s, sub cluster n = some s → s.Follows lax r
  producer : ∀ id cluster n j f, task id = some ⟨.produce cluster n j, f⟩ →
    ∃ s, sub cluster n = some s ∧ (∃ g, task j = some ⟨.consume cluster n id, g⟩) ∧
      (awake j ∨ s.queue = [] ∨ s.listening = false)
  unique : ∀ id id' cluster n j j' f f', task id = some ⟨.produce cluster n j, f⟩ →
    task id' = some ⟨.produce cluster n j', f'⟩ → id = id'
  flight : ∀ id w f, task id = some ⟨w, some f⟩ → f = .held ∨ f = .parked
  parked : ∀ w ∈ r.parked, ∃ work, task w.caller = some ⟨work, some .parked⟩ ∧ Awaits sub w work
  told : ∀ w ∈ r.parked, awake w.caller ∨ r.look w.link w.model w.cursor = .ok none

namespace InOrder

variable {lax : Prop} {r r' : MemoryRegistry} {sub : ClusterId → Nat → Option Subscription}
  {task : TaskId → Option Task} {awake awake' : TaskId → Prop}

theorem keeps (h : InOrder lax r sub task awake) (hk : Keeps lax (Holds sub) r r')
    (ha : ∀ id, awake id → awake' id)
    (ht : r'.announcements ≠ r.announcements → ∀ w ∈ r'.parked, awake' w.caller) :
    InOrder lax r' sub task awake' where
  follows := by
    intro cluster n s hs
    exact (h.follows cluster n s hs).keeps hk (fun c hc => ⟨cluster, n, s, hs, rfl, hc⟩)
  producer := by
    intro id cluster n j f hid
    obtain ⟨s, hs, hj, hq⟩ := h.producer id cluster n j f hid
    exact ⟨s, hs, hj, hq.imp_left (ha j)⟩
  unique := h.unique
  flight := h.flight
  parked := by
    rw [hk.parked]
    exact h.parked
  told := by
    intro w hw
    by_cases hsame : r'.announcements = r.announcements
    · rw [hk.parked] at hw
      exact (h.told w hw).imp (ha _) (hk.look hsame _ _ _)
    · exact .inl (ht hsame w hw)

theorem awake_mono (h : InOrder lax r sub task awake) (ha : ∀ id, awake id → awake' id) :
    InOrder lax r sub task awake' :=
  h.keeps (.refl _ r) ha (fun hne => absurd rfl hne)

theorem sleep (h : InOrder lax r sub task awake) {id : TaskId}
    (ha : ∀ i, i ≠ id → awake i → awake' i)
    (hp : ∀ w ∈ r.parked, w.caller = id → r.look w.link w.model w.cursor = .ok none)
    (hc : ∀ i cluster n f s, task i = some ⟨.produce cluster n id, f⟩ → sub cluster n = some s →
      s.queue = [] ∨ s.listening = false) : InOrder lax r sub task awake' where
  follows := h.follows
  producer := by
    intro i cluster n j f hi
    obtain ⟨s, hs, hj, hq⟩ := h.producer i cluster n j f hi
    refine ⟨s, hs, hj, ?_⟩
    by_cases hne : j = id
    · subst hne
      exact .inr (hc i cluster n f s hi hs)
    · exact hq.imp_left (ha j hne)
  unique := h.unique
  flight := h.flight
  parked := h.parked
  told := by
    intro w hw
    by_cases hne : w.caller = id
    · exact .inr (hp w hw hne)
    · exact (h.told w hw).imp_left (ha _ hne)

theorem unpark (h : InOrder lax r sub task awake) (caller : TaskId) :
    InOrder lax (r.unpark caller) sub task awake where
  follows := fun cluster n s hs => Subscription.follows_unpark_iff.mpr (h.follows cluster n s hs)
  producer := h.producer
  unique := h.unique
  flight := h.flight
  parked := fun w hw => h.parked w (List.mem_filter.mp hw).1
  told := fun w hw => h.told w (List.mem_filter.mp hw).1

theorem of_unpark {caller : TaskId} (h : InOrder lax (r.unpark caller) sub task awake)
    (hw : ∀ w ∈ r.parked, w.caller = caller →
      (∃ work, task w.caller = some ⟨work, some .parked⟩ ∧ Awaits sub w work) ∧
        r.look w.link w.model w.cursor = .ok none) : InOrder lax r sub task awake where
  follows := fun cluster n s hs => Subscription.follows_unpark_iff.mp (h.follows cluster n s hs)
  producer := h.producer
  unique := h.unique
  flight := h.flight
  parked := by
    intro w hp
    by_cases hc : w.caller = caller
    · exact (hw w hp hc).1
    · exact h.parked w (mem_unpark hp hc)
  told := by
    intro w hp
    by_cases hc : w.caller = caller
    · exact .inr (hw w hp hc).2
    · exact h.told w (mem_unpark hp hc)

theorem retask (h : InOrder lax r sub task awake) {task' : TaskId → Option Task}
    (hsame : ∀ j w, w.isWatching = true →
      ((∃ f, task' j = some ⟨w, f⟩) ↔ ∃ f, task j = some ⟨w, f⟩))
    (hflight : ∀ j w f, task' j = some ⟨w, some f⟩ → f = .held ∨ f = .parked)
    (hparked : ∀ w ∈ r.parked, task' w.caller = task w.caller) : InOrder lax r sub task' awake where
  follows := h.follows
  producer := by
    intro id cluster n j f hid
    obtain ⟨f', hid'⟩ := (hsame id (.produce cluster n j) rfl).mp ⟨f, hid⟩
    obtain ⟨s, hs, hj, hq⟩ := h.producer id cluster n j f' hid'
    exact ⟨s, hs, (hsame j (.consume cluster n id) rfl).mpr hj, hq⟩
  unique := by
    intro id id' cluster n j j' f f' hid hid'
    obtain ⟨g, hg⟩ := (hsame id (.produce cluster n j) rfl).mp ⟨f, hid⟩
    obtain ⟨g', hg'⟩ := (hsame id' (.produce cluster n j') rfl).mp ⟨f', hid'⟩
    exact h.unique id id' cluster n j j' g g' hg hg'
  flight := hflight
  parked := by
    intro w hw
    rw [hparked w hw]
    exact h.parked w hw
  told := h.told

theorem setTask (h : InOrder lax r sub task awake) {task' : TaskId → Option Task} {id : TaskId}
    (hid : ∀ w ∈ r.parked, w.caller ≠ id) (ht : ∀ j, j ≠ id → task' j = task j)
    (hold : ∀ t, task id = some t → t.work.isWatching = false)
    (hnew : ∀ t, task' id = some t → t.work.isWatching = false ∧
      ∀ f, t.flight = some f → f = .held ∨ f = .parked) :
    InOrder lax r sub task' awake := by
  refine h.retask ?_ ?_ (fun w hw => ht _ (hid w hw))
  · intro j w hw
    by_cases hne : j = id
    · subst hne
      constructor
      · rintro ⟨f, hf⟩
        simp [(hnew _ hf).1] at hw
      · rintro ⟨f, hf⟩
        simp [hold _ hf] at hw
    · rw [ht j hne]
  · intro j w f hj
    by_cases hne : j = id
    · subst hne
      exact (hnew _ hj).2 f rfl
    · exact h.flight j w f (by rwa [ht j hne] at hj)

theorem setFlight (h : InOrder lax r sub task awake) {task' : TaskId → Option Task} {id : TaskId}
    {work : Work} {f f' : Option Flight} (hid : ∀ w ∈ r.parked, w.caller ≠ id)
    (ht : ∀ j, j ≠ id → task' j = task j) (hold : task id = some ⟨work, f⟩)
    (hnew : task' id = some ⟨work, f'⟩) (hf : ∀ g, f' = some g → g = .held ∨ g = .parked) :
    InOrder lax r sub task' awake := by
  refine h.retask ?_ ?_ (fun w hw => ht _ (hid w hw))
  · intro j w _
    by_cases hne : j = id
    · subst hne
      simp [hold, hnew]
    · rw [ht j hne]
  · intro j w g hj
    by_cases hne : j = id
    · subst hne
      obtain ⟨rfl, hg⟩ : work = w ∧ f' = some g := by simpa [hnew] using hj
      exact hf g hg
    · exact h.flight j w g (by rwa [ht j hne] at hj)

theorem spawn (h : InOrder lax r sub task awake) {task' : TaskId → Option Task} {id : TaskId}
    {work : Work} (ht : ∀ j, j ≠ id → task' j = task j) (hold : task id = none)
    (hnew : task' id = some ⟨work, none⟩) (hw : work.isWatching = false) :
    InOrder lax r sub task' awake := by
  refine h.setTask ?_ ht (by simp [hold]) ?_
  · rintro w hw rfl
    obtain ⟨_, hc, _⟩ := h.parked w hw
    simp [hold] at hc
  · intro t ht'
    obtain rfl : ⟨work, none⟩ = t := by simpa [hnew] using ht'
    exact ⟨hw, by simp⟩

theorem awaits_of_ne (h : InOrder lax r sub task awake)
    {sub' : ClusterId → Nat → Option Subscription} {id : TaskId} {cluster : ClusterId} {n : Nat}
    {j : TaskId} {f : Option Flight}
    (hid : task id = some ⟨.produce cluster n j, f⟩)
    (hsub : ∀ c m, (c, m) ≠ (cluster, n) → sub' c m = sub c m) {w : ParkedWatch} {work : Work}
    {g : Option Flight} (hw : task w.caller = some ⟨work, g⟩) (hne : w.caller ≠ id)
    (ha : Awaits sub w work) : Awaits sub' w work := by
  cases work with
  | produce c m i =>
    obtain ⟨s, k, hs, hk⟩ := ha
    have hcm : (c, m) ≠ (cluster, n) := by
      intro he
      obtain ⟨rfl, rfl⟩ := Prod.mk.inj he
      exact hne (h.unique _ _ _ _ _ _ _ _ hw hid)
    exact ⟨s, k, by rw [hsub c m hcm, hs], hk⟩
  | watch link model cursor givesUp => exact ha
  | _ => exact ha.elim

theorem produce (h : InOrder lax r sub task awake) {task' : TaskId → Option Task}
    {sub' : ClusterId → Nat → Option Subscription} {id : TaskId} {cluster : ClusterId} {n : Nat}
    {j : TaskId} {f : Option Flight} {s s' : Subscription}
    (hid : ∀ w ∈ r.parked, w.caller ≠ id) (hwork : task id = some ⟨.produce cluster n j, f⟩)
    (ht : ∀ i, i ≠ id → task' i = task i) (hwork' : task' id = some ⟨.produce cluster n j, none⟩)
    (hs : sub cluster n = some s) (hs' : sub' cluster n = some s')
    (hsub : ∀ c m, (c, m) ≠ (cluster, n) → sub' c m = sub c m) (hf : s'.Follows lax r)
    (ha : ∀ i, awake i → awake' i)
    (hq : (s'.queue = s.queue ∧ s'.listening = s.listening) ∨ awake' j) :
    InOrder lax r sub' task' awake' := by
  have h' := (h.awake_mono ha).setFlight hid ht hwork hwork' (by simp)
  constructor
  · intro c m t hm
    by_cases he : (c, m) = (cluster, n)
    · obtain ⟨rfl, rfl⟩ := Prod.mk.inj he
      obtain rfl : s' = t := Option.some.inj (hs'.symm.trans hm)
      exact hf
    · exact h'.follows c m t (hsub c m he ▸ hm)
  · intro i c m k g hi
    obtain ⟨t, htsub, hk, hqueue⟩ := h'.producer i c m k g hi
    by_cases he : (c, m) = (cluster, n)
    · obtain ⟨rfl, rfl⟩ := Prod.mk.inj he
      obtain rfl := h'.unique _ _ _ _ _ _ _ _ hi hwork'
      obtain ⟨rfl, -⟩ : j = k ∧ _ := by simpa [hwork'] using hi
      obtain rfl : s = t := Option.some.inj (hs.symm.trans htsub)
      refine ⟨s', hs', hk, ?_⟩
      rcases hq with ⟨hq, hl⟩ | hq
      · rwa [hq, hl]
      · exact .inl hq
    · exact ⟨t, by rw [hsub c m he, htsub], hk, hqueue⟩
  · exact h'.unique
  · exact h'.flight
  · intro w hw
    obtain ⟨work, hc, hwait⟩ := h'.parked w hw
    exact ⟨work, hc, h'.awaits_of_ne hwork' hsub hc (hid w hw) hwait⟩
  · exact h'.told

theorem consume (h : InOrder lax r sub task awake) {sub' : ClusterId → Nat → Option Subscription}
    {cluster : ClusterId} {n : Nat} {s s' : Subscription} {u : Update}
    (hs : sub cluster n = some s) (hc : s.consume = some (u, s'))
    (hs' : sub' cluster n = some s') (hsub : ∀ c m, (c, m) ≠ (cluster, n) → sub' c m = sub c m) :
    InOrder lax r sub' task awake where
  follows := by
    intro c m t hm
    by_cases he : (c, m) = (cluster, n)
    · obtain ⟨rfl, rfl⟩ := Prod.mk.inj he
      obtain rfl : s' = t := Option.some.inj (hs'.symm.trans hm)
      exact (h.follows c m s hs).consume hc
    · exact h.follows c m t (hsub c m he ▸ hm)
  producer := by
    intro id c m k f hid
    obtain ⟨t, htsub, hk, hqueue⟩ := h.producer id c m k f hid
    by_cases he : (c, m) = (cluster, n)
    · obtain ⟨rfl, rfl⟩ := Prod.mk.inj he
      obtain rfl : s = t := Option.some.inj (hs.symm.trans htsub)
      refine ⟨s', hs', hk, .inl ?_⟩
      obtain ⟨hl, ⟨b, rest, -, hq, -⟩ | ⟨e, rest, -, hq, -⟩⟩ := Subscription.consume_cases hc
      · simpa [hl, hq] using hqueue
      · simpa [hl, hq] using hqueue
    · exact ⟨t, by rw [hsub c m he, htsub], hk, hqueue⟩
  unique := h.unique
  flight := h.flight
  parked := by
    intro w hw
    obtain ⟨work, ht, ha⟩ := h.parked w hw
    refine ⟨work, ht, ?_⟩
    cases work with
    | produce c m i =>
      obtain ⟨t, k, htsub, hk⟩ := ha
      by_cases he : (c, m) = (cluster, n)
      · obtain ⟨rfl, rfl⟩ := Prod.mk.inj he
        obtain rfl : s = t := Option.some.inj (hs.symm.trans htsub)
        obtain ⟨hp, hm⟩ := Subscription.consume_producer hc
        exact ⟨s', k, hs', by rwa [hp, hm]⟩
      · exact ⟨t, k, by rw [hsub c m he, htsub], hk⟩
    | watch link model cursor givesUp => exact ha
    | _ => exact ha.elim
  told := h.told

theorem subscribe (h : InOrder lax r sub task awake) (hr : Distinct r.identities)
    {sub' : ClusterId → Nat → Option Subscription} {task' : TaskId → Option Task}
    {cluster : ClusterId} {n : Nat} {id j : TaskId} {retry : RetrySettings} {model : ModelId}
    (hsub : sub cluster n = none) (hsub' : sub' cluster n = some (.start retry model))
    (hsame : ∀ c m, (c, m) ≠ (cluster, n) → sub' c m = sub c m)
    (hid : task id = none) (hj : task j = none) (hne : id ≠ j)
    (hid' : task' id = some ⟨.produce cluster n j, none⟩)
    (hj' : task' j = some ⟨.consume cluster n id, none⟩)
    (ht : ∀ i, i ≠ id → i ≠ j → task' i = task i) : InOrder lax r sub' task' awake := by
  have hold : ∀ i t, task i = some t → task' i = some t := by
    intro i t hi
    rw [ht i (by rintro rfl; simp [hid] at hi) (by rintro rfl; simp [hj] at hi), hi]
  have hnew : ∀ i w f, task' i = some ⟨w, f⟩ →
      (i = id ∧ w = .produce cluster n j ∧ f = none) ∨
        (i = j ∧ w = .consume cluster n id ∧ f = none) ∨ task i = some ⟨w, f⟩ := by
    intro i w f hi
    by_cases h₁ : i = id
    · subst h₁
      obtain ⟨rfl, rfl⟩ : Work.produce cluster n j = w ∧ none = f := by simpa [hid'] using hi
      exact .inl ⟨rfl, rfl, rfl⟩
    · by_cases h₂ : i = j
      · subst h₂
        obtain ⟨rfl, rfl⟩ : Work.consume cluster n id = w ∧ none = f := by simpa [hj'] using hi
        exact .inr (.inl ⟨rfl, rfl, rfl⟩)
      · exact .inr (.inr (by rwa [ht i h₁ h₂] at hi))
  have hkeep : ∀ c m s, sub c m = some s → sub' c m = some s := by
    intro c m s hs
    rw [hsame c m (by rintro he; obtain ⟨rfl, rfl⟩ := Prod.mk.inj he; simp [hsub] at hs), hs]
  constructor
  · intro c m s hs
    by_cases he : (c, m) = (cluster, n)
    · obtain ⟨rfl, rfl⟩ := Prod.mk.inj he
      obtain rfl := Option.some.inj (hsub'.symm.trans hs)
      exact Subscription.follows_start hr retry model
    · exact h.follows c m s (hsame c m he ▸ hs)
  · intro i c m k f hi
    rcases hnew i _ f hi with ⟨rfl, he, rfl⟩ | ⟨rfl, he, -⟩ | hi
    · cases he
      exact ⟨_, hsub', ⟨none, hj'⟩, .inr (.inl rfl)⟩
    · cases he
    · obtain ⟨s, hs, ⟨g, hg⟩, hq⟩ := h.producer i c m k f hi
      exact ⟨s, hkeep c m s hs, ⟨g, hold k _ hg⟩, hq⟩
  · have hnone : ∀ i k f, task i = some ⟨.produce cluster n k, f⟩ → False := by
      intro i k f hi
      obtain ⟨s, hs, -⟩ := h.producer i cluster n k f hi
      simp [hsub] at hs
    intro i i' c m k k' f f' hi hi'
    rcases hnew i _ f hi with ⟨rfl, he, -⟩ | ⟨rfl, he, -⟩ | hi
    · cases he
      rcases hnew i' _ f' hi' with ⟨rfl, he, -⟩ | ⟨rfl, he, -⟩ | hi'
      · rfl
      · cases he
      · exact (hnone _ _ _ hi').elim
    · cases he
    · rcases hnew i' _ f' hi' with ⟨rfl, he, -⟩ | ⟨rfl, he, -⟩ | hi'
      · cases he
        exact (hnone _ _ _ hi).elim
      · cases he
      · exact h.unique i i' c m k k' f f' hi hi'
  · intro i w f hi
    rcases hnew i w _ hi with ⟨-, -, hf⟩ | ⟨-, -, hf⟩ | hi
    · cases hf
    · cases hf
    · exact h.flight i w f hi
  · intro w hw
    obtain ⟨work, hc, ha⟩ := h.parked w hw
    refine ⟨work, hold _ _ hc, ?_⟩
    cases work with
    | produce c m i =>
      obtain ⟨s, k, hs, hk⟩ := ha
      exact ⟨s, k, hkeep c m s hs, hk⟩
    | watch link model cursor givesUp => exact ha
    | _ => exact ha.elim
  · exact h.told

end InOrder

end ModelRegistry.Simulation
