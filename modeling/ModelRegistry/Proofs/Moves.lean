import ModelRegistry.Proofs.Asking

namespace ModelRegistry.Simulation.Run

open MemoryRegistry

variable {lax : Prop}

theorem step_ne_of_wait {s : Run} {work : Work} {q : Query} {limits : List (Cause × Nat)}
    (h : s.wait work = .reply q limits) (step : Step) : work ≠ .step step := by
  rintro rfl
  cases h

theorem consume_ne_of_wait {s : Run} {work : Work} {q : Query} {limits : List (Cause × Nat)}
    (h : s.wait work = .reply q limits) (cluster : ClusterId) (n : Nat) (producer : TaskId) :
    work ≠ .consume cluster n producer := by
  rintro rfl
  simp only [wait, Work.wait, Wait.ofConsumer] at h
  split at h
  · split at h
    · cases h
    · split at h <;> cases h
  · cases h

theorem signal_reply_ne_cutOff {α : Type} (answer : Reply → Option (Except Error α))
    (reply : Reply) : (Heard.reply reply).signal answer ≠ .cutOff := by
  have helim : ∀ o : Option (Except Error α), o.elim .proceed .answered ≠ Call.Signal.cutOff := by
    intro o
    cases o <;> simp
  cases reply with
  | resolved r => simp [Heard.signal]
  | dialed r => simp [Heard.signal]
  | _ => exact helim _

theorem signal_limit_ne_cutOff {α : Type} (answer : Reply → Option (Except Error α))
    {cause : Cause} (h : cause ≠ .deadline) : (Heard.limit cause).signal answer ≠ .cutOff := by
  cases cause with
  | deadline => exact absurd rfl h
  | _ => simp [Heard.signal]

theorem Asks.memory {s : Run} {id : TaskId} {t : Task} {f : Flight} (h : s.Asks lax id t f) :
    ∃ r, s.backend.collaborators = .memory r := by
  obtain ⟨r, hr, -⟩ := h.orderly.order
  cases hc : s.backend.collaborators with
  | memory r => exact ⟨r, rfl⟩
  | standIn t => simp [Run.without, Backend.drop, Collaborators.drop, hc] at hr

theorem Asks.reply {s : Run} {id : TaskId} {t : Task} {f : Flight} (h : s.Asks lax id t f)
    {b : Backend} {reply : Reply} (hb : s.backend.poll s.now id f = (b, some reply)) :
    ((s.withBackend b).goOn id t.work (.reply reply)).Orderly lax (some id) := by
  obtain ⟨r, hr⟩ := h.memory
  obtain ⟨q, limits, hq⟩ := h.asking
  obtain ⟨r₁, hr₁, hk, ha, ⟨heard, he, hfree, hanswer⟩ | ⟨he, -⟩⟩ := h.poll hr hb
  · obtain rfl : reply = heard := by simpa using he
    have hr₁' : (s.withBackend b).backend.collaborators = .memory r₁ := by
      rw [backend_withBackend, hr₁]
    have hmem : ∀ r₂, (s.withBackend b).backend.collaborators = .memory r₂ → r₁ = r₂ := by
      simp [hr₁']
    have hun : (s.withBackend b).Unparked id := fun r₂ hr₂ => hmem r₂ hr₂ ▸ hfree
    have ho := h.withBackend hr hr₁ hk ha
    rw [without_eq_self hr₁' hun] at ho
    have ht : (s.withBackend b).tasks[id]? = some t := by rw [tasks_withBackend, h.task]
    refine ho.goOn ht hun (fun step hs => absurd hs (step_ne_of_wait hq step))
      (fun _ _ _ _ => signal_reply_ne_cutOff _ reply) ?_
    intro response hreply
    obtain ⟨w, hw, hans⟩ := hanswer response (by simpa using hreply)
    exact ⟨w, by rwa [sub_withBackend], fun r₂ hr₂ => hmem r₂ hr₂ ▸ hans⟩
  · cases he

theorem Asks.limit {s : Run} {id : TaskId} {t : Task} {f : Flight} (h : s.Asks lax id t f)
    {b : Backend} (hb : s.backend.poll s.now id f = (b, none)) {cause : Cause}
    (hc : ∀ cluster n j, t.work = .produce cluster n j → cause ≠ .deadline) :
    (((s.withBackend b).without id).goOn id t.work (.limit cause)).Orderly lax (some id) := by
  obtain ⟨r, hr⟩ := h.memory
  obtain ⟨q, limits, hq⟩ := h.asking
  obtain ⟨r₁, hr₁, hk, ha, -⟩ := h.poll hr hb
  have ht : ((s.withBackend b).without id).tasks[id]? = some t :=
    (congrArg (·[id]?) (tasks_withBackend s b)).trans h.task
  apply (h.withBackend hr hr₁ hk ha).goOn ht (unparked_without _ id)
  · exact fun step hs => absurd hs (step_ne_of_wait hq step)
  · exact fun cluster n j hw => signal_limit_ne_cutOff _ (hc cluster n j hw)
  · intro response he
    cases he

theorem awake_stop {s : Run} {id i : TaskId} (h : s.Awake (some id) i) (hi : i ≠ id) :
    s.Awake none i := by
  rcases h with h | h | h
  · exact .inl h
  · exact .inr (.inl h)
  · exact absurd (Option.some.inj h).symm hi

theorem Asks.stop {s : Run} {id : TaskId} {t : Task} {f : Flight} (h : s.Asks lax id t f)
    {b : Backend} (hb : s.backend.poll s.now id f = (b, none)) (wanted : List (Cause × Nat)) :
    (((s.withBackend b).setTask id ⟨t.work, some f⟩).setAlarms id wanted).Orderly lax none := by
  obtain ⟨r, hr⟩ := h.memory
  obtain ⟨q, limits, hq⟩ := h.asking
  obtain ⟨r₁, hr₁, hk, ha, ⟨_, he, -⟩ | ⟨-, hf, hown⟩⟩ := h.poll hr hb
  · cases he
  have ho := h.withBackend hr hr₁ hk ha
  have hr₁' : (s.withBackend b).backend.collaborators = .memory r₁ := by
    rw [backend_withBackend, hr₁]
  have ht : (s.withBackend b).tasks[id]? = some t := by rw [tasks_withBackend, h.task]
  rw [← sub_withBackend s b] at hown
  generalize s.withBackend b = s₁ at *
  obtain ⟨hd, hi⟩ := ho.inOrder (collaborators_without hr₁' id)
  have htask : ∀ j, (s₁.setTask id ⟨t.work, some f⟩).tasks[j]? =
      if id = j then some ⟨t.work, some f⟩ else s₁.tasks[j]? := tasks_setTask s₁ id _
  have hother : ∀ j, j ≠ id → (s₁.setTask id ⟨t.work, some f⟩).tasks[j]? = s₁.tasks[j]? :=
    fun j hj => (htask j).trans (if_neg (Ne.symm hj))
  have hself : (s₁.setTask id ⟨t.work, some f⟩).tasks[id]? = some ⟨t.work, some f⟩ :=
    (htask id).trans (if_pos rfl)
  refine ⟨⟨r₁, hr₁', hd, ?_⟩, ho.keyed, ?_, ?_⟩
  · have hflight := hi.setFlight (fun w hw => caller_ne_of_mem_unpark hw) hother ht hself
      (fun g hg => Option.some.inj hg ▸ hf)
    have hparked := hflight.of_unpark fun w hw hwid => by
      obtain ⟨rfl, hawaits, hnone⟩ := hown w hw hwid
      exact ⟨⟨t.work, hwid ▸ hself, hawaits⟩, hnone⟩
    apply hparked.sleep (fun i hne hawake => awake_stop hawake hne)
    · exact fun w hw hwid => (hown w hw hwid).2.2
    · intro i cluster n g x hx _
      obtain ⟨_, -, ⟨g', hg'⟩, -⟩ := hflight.producer i cluster n id g hx
      obtain ⟨hwork, -⟩ : t.work = .consume cluster n i ∧ _ := by simpa [hself] using hg'
      exact absurd hwork (consume_ne_of_wait hq cluster n i)
  · exact ho.fresh_of_eq (ho.lt_nextTask ht) hother
  · refine ho.named_of_eq hother fun t' ht' => .inr ⟨t, ht, ?_⟩
    rw [← Option.some.inj (hself.symm.trans ht')]

theorem Orderly.await {s : Run} {id : TaskId} {t : Task} {q : Query} {limits : List (Cause × Nat)}
    (h : s.Orderly lax (some id)) (ht : s.tasks[id]? = some t)
    (hq : s.wait t.work = .reply q limits)
    (hw : s.LetsWork lax t.work) :
    (s.await id t q limits).1.Orderly lax
      (if (s.await id t q limits).2 then some id else none) := by
  unfold Run.await
  cases hput : s.put id t.flight q with
  | mk s₁ f =>
    have hasks := h.put ht hq hw hput
    cases hpoll : s₁.backend.poll s₁.now id f with
    | mk b reply =>
      cases reply with
      | some reply =>
        simp only [hpoll]
        exact hasks.reply hpoll
      | none =>
        simp only [hpoll]
        split
        · rename_i cause due hfind
          apply hasks.limit hpoll
          rintro cluster n j hwork rfl
          rw [hwork] at hq
          exact h.no_deadline hq due (List.mem_of_find?_eq_some hfind)
        · exact hasks.stop hpoll _

theorem Orderly.unparked {s : Run} {running : Option TaskId} (h : s.Orderly lax running)
    {id : TaskId} (ht : ∀ t, s.tasks[id]? = some t → ∀ q limits, s.wait t.work ≠ .reply q limits) :
    s.Unparked id := by
  rintro r hr w hw rfl
  obtain ⟨work, hwork, ha⟩ := (h.inOrder hr).2.parked w hw
  obtain ⟨limits, hq⟩ := wait_of_awaits ha
  exact ht _ hwork _ limits hq

theorem Orderly.stop {s : Run} {id : TaskId} (h : s.Orderly lax (some id)) (hid : s.Unparked id)
    (hc : ∀ cluster n producer f x, s.tasks[id]? = some ⟨.consume cluster n producer, f⟩ →
      s.sub cluster n = some x → x.queue = [] ∨ x.listening = false) : s.Orderly lax none := by
  obtain ⟨r, hr, hd, hi⟩ := h.order
  refine ⟨⟨r, hr, hd, ?_⟩, h.keyed, h.fresh, h.named⟩
  apply hi.sleep (fun i hne hawake => awake_stop hawake hne)
  · exact fun w hw hwid => absurd hwid (hid r hr w hw)
  · intro i cluster n f x hx hsub
    obtain ⟨_, -, ⟨g, hg⟩, -⟩ := hi.producer i cluster n id f hx
    exact hc cluster n i g x hg hsub

theorem consumed_of_wait {s : Run} {cluster : ClusterId} {n : Nat} {producer : TaskId}
    (h : s.wait (.consume cluster n producer) ≠ .nothing) {x : Subscription}
    (hx : s.sub cluster n = some x) : x.queue = [] ∨ x.listening = false := by
  have hx' : (s.cache.client cluster).subscriptions[n]? = some x := hx
  by_contra hne
  rw [not_or] at hne
  apply h
  simp [wait, Work.wait, hx', Wait.ofConsumer, hne.1, hne.2]

theorem Orderly.proceed {s : Run} {id : TaskId} {t : Task} (h : s.Orderly lax (some id))
    (ht : s.tasks[id]? = some t) (hwait : ∀ q limits, s.wait t.work ≠ .reply q limits)
    (hw : ∀ step, t.work = .step step → s.LetsWork lax t.work) :
    (s.goOn id t.work .proceed).Orderly lax (some id) := by
  have hid : s.Unparked id := by
    refine h.unparked fun t' ht' => ?_
    obtain rfl := Option.some.inj (ht.symm.trans ht')
    exact hwait
  apply h.goOn ht hid hw
  · intro cluster n j _ he
    cases he
  · intro response he
    cases he

theorem Orderly.move {s : Run} {id : TaskId} (h : s.Orderly lax (some id))
    (hw : ∀ t, s.tasks[id]? = some t → s.LetsWork lax t.work) :
    (s.move id).1.Orderly lax (if (s.move id).2 then some id else none) := by
  unfold Run.move
  cases ht : s.tasks[id]? with
  | none =>
    apply h.stop (h.unparked ?_)
    · simp [ht]
    · simp [ht]
  | some t =>
    have hadmits := hw t ht
    have hidle : s.wait t.work ≠ .nothing → (∀ q limits, s.wait t.work ≠ .reply q limits) →
        s.Orderly lax none := by
      intro hne hq
      refine h.stop (h.unparked ?_) ?_
      · intro t' ht'
        obtain rfl := Option.some.inj (ht.symm.trans ht')
        exact hq
      · intro cluster n producer f x ht' hx
        obtain rfl := Option.some.inj (ht.symm.trans ht')
        exact consumed_of_wait hne hx
    cases hwait : s.wait t.work with
    | nothing =>
      simp only [hwait]
      exact h.proceed ht (by simp [hwait]) (fun _ _ => hadmits)
    | close link =>
      simp only [hwait]
      have ht' : (s.close link).tasks[id]? = some t :=
        (congrArg (·[id]?) (tasks_withBackend s _)).trans ht
      have hwait' : (s.close link).wait t.work = .close link := by
        rw [Run.close, wait_withBackend, hwait]
      apply (h.close link).proceed ht' (by simp [hwait'])
      intro step hstep
      rw [hstep] at hwait
      cases hwait
    | reply q limits =>
      simp only [hwait]
      exact h.await ht hwait hadmits
    | clock due =>
      simp only [hwait]
      split
      · refine h.proceed ht (by simp [hwait]) (fun _ _ => hadmits)
      · exact (hidle (by simp [hwait]) (by simp [hwait])).books _ _ _ _
    | idle =>
      simp only [hwait]
      exact hidle (by simp [hwait]) (by simp [hwait])
    | ended =>
      simp only [hwait]
      exact hidle (by simp [hwait]) (by simp [hwait])

end ModelRegistry.Simulation.Run
