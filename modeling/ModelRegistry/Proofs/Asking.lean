import ModelRegistry.Proofs.Hearing

namespace ModelRegistry.Simulation.Run

open MemoryRegistry

variable {lax : Prop}

theorem ofAcquisition_reply {cluster : ClusterId} {outer : Option Nat} {a : Acquisition} {q : Query}
    {limits : List (Cause × Nat)} (h : Wait.ofAcquisition cluster outer a = .reply q limits) :
    (q = .resolve cluster ∨ ∃ address, q = .dial address) ∧
      (outer = none → ∀ due, (Cause.deadline, due) ∉ limits) := by
  cases a with
  | entering => cases h
  | finished result => cases h
  | resolving =>
    cases h
    exact ⟨.inl rfl, by rintro rfl due hd; cases hd⟩
  | dialing address expires =>
    cases h
    refine ⟨.inr ⟨address, rfl⟩, ?_⟩
    rintro rfl due hd
    simp [Wait.deadline] at hd

theorem ofCall_reply {α : Type} {cluster : ClusterId} {operation : Link → Query} {call : Call α}
    {q : Query} {limits : List (Cause × Nat)}
    (h : Wait.ofCall cluster operation call = .reply q limits) :
    ((∃ link, call.stage = .operating link ∧ q = operation link) ∨ q = .resolve cluster ∨
        ∃ address, q = .dial address) ∧
      (call.deadline = none → ∀ due, (Cause.deadline, due) ∉ limits) := by
  unfold Wait.ofCall at h
  split at h
  · exact (ofAcquisition_reply h).imp_left .inr
  · rename_i link hk
    cases h
    refine ⟨.inl ⟨link, hk, rfl⟩, ?_⟩
    intro hd due hm
    simp [hd, Wait.deadline] at hm
  · cases h
  · cases h
  · cases h
  · cases h

theorem ofProducer_reply {c : Client} {x : Subscription} {q : Query} {limits : List (Cause × Nat)}
    (h : Wait.ofProducer c x = .reply q limits) : ∃ call, x.producer.stage = .calling call ∧
      Wait.ofCall c.cluster (fun link => .watch link x.replica.model x.producer.asked) call =
        .reply q limits := by
  unfold Wait.ofProducer at h
  split at h
  · rename_i call hcall
    exact ⟨call, hcall, h⟩
  · split at h <;> cases h
  · cases h
  · cases h

theorem ofTrial_reply {cluster : ClusterId} {c : Connection} {t : Trial} {q : Query}
    {limits : List (Cause × Nat)} (h : Wait.ofTrial cluster c t = .reply q limits) :
    (∃ link cached, q = .trial link cached) ∨ q = .resolve cluster ∨
      ∃ address, q = .dial address := by
  unfold Wait.ofTrial at h
  split at h
  · cases h
  · cases h
  · exact .inr (ofAcquisition_reply h).1
  · obtain ⟨⟨link, -, hq⟩ | hq, -⟩ := ofCall_reply h
    · exact .inl ⟨link, _, hq⟩
    · exact .inr hq

theorem wait_cases {s : Run} {work : Work} {q : Query} {limits : List (Cause × Nat)}
    (h : s.wait work = .reply q limits) :
    (∃ link cached, q = .trial link cached) ∨ (∃ cluster, q = .resolve cluster) ∨
      (∃ address, q = .dial address) ∨
      (∃ cluster r call link, work = .request cluster r call ∧ call.stage = .operating link ∧
        q = .request link r) ∨
      ∃ link model c, q = .watch link model c ∧ ∀ id, Awaits s.sub ⟨id, link, model, c⟩ work := by
  cases work with
  | request cluster r call =>
    obtain ⟨⟨link, hk, hq⟩ | hq | hq, -⟩ := ofCall_reply h
    · exact .inr (.inr (.inr (.inl ⟨cluster, r, call, link, rfl, hk, hq⟩)))
    · exact .inr (.inl ⟨cluster, hq⟩)
    · exact .inr (.inr (.inl hq))
  | acquire cluster a =>
    obtain ⟨hq | hq, -⟩ := ofAcquisition_reply h
    · exact .inr (.inl ⟨cluster, hq⟩)
    · exact .inr (.inr (.inl hq))
  | trial cluster t =>
    obtain hq | hq | hq := ofTrial_reply h
    · exact .inl hq
    · exact .inr (.inl ⟨cluster, hq⟩)
    · exact .inr (.inr (.inl hq))
  | produce cluster n j =>
    simp only [wait, Work.wait] at h
    split at h
    · rename_i x hx
      obtain ⟨call, hcall, h⟩ := ofProducer_reply h
      obtain ⟨⟨link, hk, hq⟩ | hq | hq, -⟩ := ofCall_reply h
      · refine .inr (.inr (.inr (.inr ⟨link, _, _, hq, fun id => ?_⟩)))
        exact ⟨x, call, hx, hcall, hk, rfl, rfl⟩
      · exact .inr (.inl ⟨_, hq⟩)
      · exact .inr (.inr (.inl hq))
    · cases h
  | consume cluster n j =>
    simp only [wait, Work.wait, Wait.ofConsumer] at h
    split at h
    · split at h
      · cases h
      · split at h <;> cases h
    · cases h
  | dial address =>
    cases h
    exact .inr (.inr (.inl ⟨address, rfl⟩))
  | watch link model c givesUp =>
    cases h
    exact .inr (.inr (.inr (.inr ⟨link, model, c, rfl, fun _ => ⟨rfl, rfl, rfl⟩⟩)))
  | join target =>
    simp only [wait, Work.wait] at h
    split at h <;> cases h
  | _ => cases h

theorem wait_of_awaits {s : Run} {work : Work} {w : ParkedWatch} (h : Awaits s.sub w work) :
    ∃ limits, s.wait work = .reply (.watch w.link w.model w.cursor) limits := by
  cases work with
  | produce cluster n j =>
    obtain ⟨x, call, hx, hcall, hk, hm, hc⟩ := h
    refine ⟨Wait.deadline call.deadline, ?_⟩
    have hx' : (s.cache.client cluster).subscriptions[n]? = some x := hx
    simp only [wait, Work.wait, hx', Wait.ofProducer, hcall, Wait.ofCall, hk, hm, hc]
  | watch link model c givesUp =>
    obtain ⟨rfl, rfl, rfl⟩ := h
    exact ⟨_, rfl⟩
  | _ => exact h.elim

theorem Orderly.no_deadline {s : Run} {running : Option TaskId} (h : s.Orderly lax running)
    {cluster : ClusterId} {n : Nat} {j : TaskId} {q : Query} {limits : List (Cause × Nat)}
    (hq : s.wait (.produce cluster n j) = .reply q limits) (due : Nat) :
    (Cause.deadline, due) ∉ limits := by
  obtain ⟨r, -, -, hi⟩ := h.order
  simp only [wait, Work.wait] at hq
  split at hq
  · rename_i x hx
    obtain ⟨call, hcall, hq⟩ := ofProducer_reply hq
    exact (ofCall_reply hq).2 ((hi.follows cluster n x hx).proper call hcall).1 due
  · cases hq

def without (s : Run) (id : TaskId) : Run := { s with backend := s.backend.drop id }

theorem collaborators_without {s : Run} {r : MemoryRegistry}
    (hr : s.backend.collaborators = .memory r) (id : TaskId) :
    (s.without id).backend.collaborators = .memory (r.unpark id) := by
  simp [without, Backend.drop, Collaborators.drop, hr]

theorem unparked_without (s : Run) (id : TaskId) : (s.without id).Unparked id := by
  intro r hr w hw
  cases hc : s.backend.collaborators with
  | standIn t => simp [without, Backend.drop, Collaborators.drop, hc] at hr
  | memory r₀ =>
    rw [collaborators_without hc] at hr
    cases hr
    exact caller_ne_of_mem_unpark hw

theorem without_eq_self {s : Run} {id : TaskId} {r : MemoryRegistry}
    (hr : s.backend.collaborators = .memory r) (h : s.Unparked id) : s.without id = s := by
  have hu : r.unpark id = r := unpark_eq_self (h r hr)
  have hb : s.backend.drop id = s.backend := by
    rw [Backend.drop, hr, Collaborators.drop, hu, ← hr]
  rw [without, hb]

theorem Orderly.without {s : Run} {running : Option TaskId} (h : s.Orderly lax running)
    (id : TaskId) : (s.without id).Orderly lax running := by
  obtain ⟨r, hr, hd, hi⟩ := h.order
  exact ⟨⟨r.unpark id, collaborators_without hr id, hd, hi.unpark id⟩, h.keyed, h.fresh, h.named⟩

structure Asks (lax : Prop) (s : Run) (id : TaskId) (t : Task) (f : Flight) : Prop where
  orderly : (s.without id).Orderly lax (some id)
  task : s.tasks[id]? = some t
  asking : ∃ q limits, s.wait t.work = .reply q limits
  own : ∀ r, s.backend.collaborators = .memory r → ∀ w ∈ r.parked, w.caller = id →
    f = .parked ∧ Awaits s.sub w t.work
  flight : f = .held ∨ f = .parked ∨ ∃ reply, f = .timed (some s.now) reply ∧
    ∀ response, reply = .changed (.ok response) → ∃ w, Awaits s.sub w t.work ∧
      ∀ r, s.backend.collaborators = .memory r → r.answer w.model w.cursor = .ok (some response)

theorem Orderly.asks_again {s : Run} {id : TaskId} {t : Task} {f : Flight}
    (h : s.Orderly lax (some id)) (ht : s.tasks[id]? = some t) (hf : t.flight = some f)
    (hw : ∃ q limits, s.wait t.work = .reply q limits) : s.Asks lax id t f := by
  obtain ⟨r, -, -, hi⟩ := h.order
  obtain ⟨work, g⟩ := t
  obtain rfl : g = some f := hf
  refine ⟨h.without id, ht, hw, ?_, (hi.flight id work f ht).imp_right .inl⟩
  rintro r' hr' w hw rfl
  obtain ⟨work', hwork, ha⟩ := (h.inOrder hr').2.parked w hw
  obtain ⟨rfl, rfl⟩ : work = work' ∧ f = .parked := by simpa [ht] using hwork
  exact ⟨rfl, ha⟩

theorem Orderly.ask {s : Run} {id : TaskId} (h : s.Orderly lax (some id)) {b : Backend}
    {r r' r₁ : MemoryRegistry} (hr : s.backend.collaborators = .memory r)
    (hb : b.collaborators = .memory r₁) (hk : Keeps lax (Holds s.sub) r r')
    (hu : r₁.unpark id = r'.unpark id) (ha : r₁.announcements = r'.announcements)
    (hp : ∀ w ∈ r'.parked, w ∈ r₁.parked) :
    ((s.withBackend b).without id).Orderly lax (some id) := by
  obtain ⟨hd, hi⟩ := h.inOrder hr
  have hw := wakes_withBackend s b
  have hc : (s.withBackend b).backend.collaborators = .memory r₁ := by rw [backend_withBackend, hb]
  refine h.of_wakes (hw.trans (wakes_backend _ _)) ⟨r'.unpark id, ?_, ?_, ?_⟩
  · rw [← hu]
    exact collaborators_without hc id
  · exact hk.identities ▸ hd
  · refine InOrder.unpark ?_ id
    apply hi.keeps hk (fun j => (hw.trans (wakes_backend _ _)).awake)
    intro hne w hw
    exact awake_withBackend hr hb (by rwa [ha]) (some id) w (hp w hw)

theorem sub_withBackend (s : Run) (b : Backend) : (s.withBackend b).sub = s.sub :=
  (wakes_withBackend s b).sub

theorem tasks_withBackend (s : Run) (b : Backend) : (s.withBackend b).tasks = s.tasks :=
  (wakes_withBackend s b).tasks

theorem now_withBackend (s : Run) (b : Backend) : (s.withBackend b).now = s.now :=
  (wakes_withBackend s b).now

theorem wait_withBackend (s : Run) (b : Backend) (w : Work) :
    (s.withBackend b).wait w = s.wait w := by
  have hw := wakes_withBackend s b
  simp only [wait, hw.cache]
  congr 1
  funext id
  simp only [hasEnded, hw.tasks]

theorem awaits_of_wait {s : Run} {work : Work} {link : Link} {model : ModelId} {c : Cursor}
    {limits : List (Cause × Nat)} (h : s.wait work = .reply (.watch link model c) limits)
    (id : TaskId) : Awaits s.sub ⟨id, link, model, c⟩ work := by
  obtain ⟨_, _, he⟩ | ⟨_, he⟩ | ⟨_, he⟩ | ⟨_, _, _, _, -, -, he⟩ | ⟨_, _, _, he, ha⟩ := wait_cases h
  all_goals cases he
  exact ha id

theorem letsRequest_of_wait {s : Run} {work : Work} {link : Link} {q : Request}
    {limits : List (Cause × Nat)} (h : s.wait work = .reply (.request link q) limits)
    (hw : s.LetsWork lax work) : s.LetsRequest lax q := by
  obtain ⟨_, _, he⟩ | ⟨_, he⟩ | ⟨_, he⟩ | ⟨_, _, _, _, rfl, hk, he⟩ | ⟨_, _, _, he, -⟩ :=
    wait_cases h
  all_goals cases he
  exact hw _ hk

theorem ask_cases {s : Run} {r : MemoryRegistry} (hr : s.backend.collaborators = .memory r)
    (id : TaskId) {work : Work} {q : Query} {limits : List (Cause × Nat)}
    (hq : s.wait work = .reply q limits) (hw : s.LetsWork lax work) {b : Backend} {f : Flight}
    (hb : s.backend.ask s.now id q = (b, f)) :
    ∃ r', Keeps lax (Holds s.sub) r r' ∧
      ((b.collaborators = .memory r' ∧ (f = .held ∨ ∃ reply, f = .timed (some s.now) reply ∧
          ∀ response, reply = .changed (.ok response) → ∃ w, Awaits s.sub w work ∧
            r'.answer w.model w.cursor = .ok (some response))) ∨
        ∃ w, w.caller = id ∧ b.collaborators = .memory (r'.park w) ∧ f = .parked ∧
          Awaits s.sub w work) := by
  have hrequest : ∀ link model, q = .request link (.publish model) →
      r.entries.contains model.id ∨ Lapsed lax (Holds s.sub) r model.id := by
    rintro link model rfl
    exact lapsed_of_letsRequest (letsRequest_of_wait hq hw) (memory?_of_order hr) model rfl
  unfold Backend.ask at hb
  split at hb
  · cases hb
    exact ⟨r, .refl _ r, .inl ⟨hr, .inr ⟨_, rfl, by simp⟩⟩⟩
  · obtain ⟨r', hk, hcases⟩ := MemoryRegistry.ask_cases r s.now id hrequest
    simp only [hr, Collaborators.ask] at hb
    refine ⟨r', hk, ?_⟩
    rcases hcases with he | ⟨reply, he, ha⟩ | ⟨link, model, c, rfl, he, -⟩
    · rw [he] at hb
      cases hb
      exact .inl ⟨rfl, .inl rfl⟩
    · rw [he] at hb
      cases hb
      refine .inl ⟨rfl, .inr ⟨reply, rfl, fun response hreply => ?_⟩⟩
      obtain ⟨link, model, c, rfl, hanswer⟩ := ha response hreply
      exact ⟨_, awaits_of_wait hq id, hanswer⟩
    · rw [he] at hb
      cases hb
      exact .inr ⟨_, rfl, rfl, rfl, awaits_of_wait hq id⟩

theorem Orderly.asks_anew {s : Run} {id : TaskId} {t : Task} {q : Query}
    {limits : List (Cause × Nat)} (h : s.Orderly lax (some id)) (ht : s.tasks[id]? = some t)
    (hid : s.Unparked id) (hq : s.wait t.work = .reply q limits) (hw : s.LetsWork lax t.work)
    {b : Backend} {f : Flight} (hb : s.backend.ask s.now id q = (b, f)) :
    (s.withBackend b).Asks lax id t f := by
  obtain ⟨r, hr, hd, hi⟩ := h.order
  obtain ⟨r', hk, hcases⟩ := ask_cases hr id hq hw hb
  have htask : (s.withBackend b).tasks[id]? = some t := by rw [tasks_withBackend, ht]
  have hasking : ∃ q limits, (s.withBackend b).wait t.work = .reply q limits :=
    ⟨q, limits, by rw [wait_withBackend, hq]⟩
  have hother : ∀ w ∈ r'.parked, w.caller ≠ id := by
    rw [hk.parked]
    exact hid r hr
  rcases hcases with ⟨hr', hf⟩ | ⟨v, hv, hr', rfl, hawaits⟩
  · have hmem : ∀ r₂, (s.withBackend b).backend.collaborators = .memory r₂ → r' = r₂ := by
      simp [backend_withBackend, hr']
    refine ⟨h.ask hr hr' hk rfl rfl (fun w hw => hw), htask, hasking, ?_, ?_⟩
    · intro r₂ hr₂ w hw hwid
      obtain rfl := hmem r₂ hr₂
      exact absurd hwid (hother w hw)
    · rw [sub_withBackend, now_withBackend]
      rcases hf with hf | ⟨reply, hf, ha⟩
      · exact .inl hf
      · refine .inr (.inr ⟨reply, hf, fun response he => ?_⟩)
        obtain ⟨w, hw, hanswer⟩ := ha response he
        exact ⟨w, hw, fun r₂ hr₂ => hmem r₂ hr₂ ▸ hanswer⟩
  · have hu : (r'.park v).unpark id = r'.unpark id := hv ▸ unpark_park r' v
    have hold : ∀ w ∈ r'.parked, w ∈ (r'.park v).parked := fun w => List.mem_append_left [v]
    refine ⟨h.ask hr hr' hk hu rfl hold, htask, hasking, ?_, .inr (.inl rfl)⟩
    intro r₂ hr₂ w hw hwid
    obtain rfl : r'.park v = r₂ := by simpa [backend_withBackend, hr'] using hr₂
    rw [sub_withBackend]
    rcases List.mem_append.mp hw with hw | hw
    · exact absurd hwid (hother w hw)
    · obtain rfl := List.mem_singleton.mp hw
      exact ⟨rfl, hawaits⟩

theorem Orderly.put {s : Run} {id : TaskId} {t : Task} {q : Query} {limits : List (Cause × Nat)}
    (h : s.Orderly lax (some id)) (ht : s.tasks[id]? = some t)
    (hq : s.wait t.work = .reply q limits)
    (hw : s.LetsWork lax t.work) {s' : Run} {f : Flight} (hput : s.put id t.flight q = (s', f)) :
    s'.Asks lax id t f := by
  unfold Run.put at hput
  split at hput
  · rename_i g hg
    cases hput
    exact h.asks_again ht hg ⟨q, limits, hq⟩
  · rename_i hg
    cases hput
    refine h.asks_anew ht ?_ hq hw rfl
    rintro r hr w hw rfl
    obtain ⟨work, hwork, -⟩ := (h.inOrder hr).2.parked w hw
    rw [ht] at hwork
    cases hwork
    cases hg

theorem unpark_unpark (r : MemoryRegistry) (id : TaskId) :
    (r.unpark id).unpark id = r.unpark id :=
  unpark_eq_self (fun _ hw => caller_ne_of_mem_unpark hw)

theorem Asks.poll {s : Run} {id : TaskId} {t : Task} {f : Flight} (h : s.Asks lax id t f)
    {r : MemoryRegistry} (hr : s.backend.collaborators = .memory r) {b : Backend}
    {reply : Option Reply} (hb : s.backend.poll s.now id f = (b, reply)) :
    ∃ r₁, b.collaborators = .memory r₁ ∧ Keeps lax (Holds s.sub) (r.unpark id) (r₁.unpark id) ∧
      r₁.announcements = r.announcements ∧
      ((∃ heard, reply = some heard ∧ (∀ w ∈ r₁.parked, w.caller ≠ id) ∧
          ∀ response, heard = .changed (.ok response) → ∃ w, Awaits s.sub w t.work ∧
            r₁.answer w.model w.cursor = .ok (some response)) ∨
        (reply = none ∧ (f = .held ∨ f = .parked) ∧ ∀ w ∈ r₁.parked, w.caller = id →
          f = .parked ∧ Awaits s.sub w t.work ∧ r₁.look w.link w.model w.cursor = .ok none)) := by
  have hother : f ≠ .parked → ∀ w ∈ r.parked, w.caller ≠ id :=
    fun hne w hw hwid => hne (h.own r hr w hw hwid).1
  simp only [Backend.poll, hr, Collaborators.poll] at hb
  rcases h.flight with rfl | rfl | ⟨heard, rfl, ha⟩
  · have hfree := hother (by simp)
    simp only [MemoryRegistry.poll] at hb
    split at hb
    · cases hb
      refine ⟨r, rfl, .refl _ _, rfl, .inr ⟨rfl, .inl rfl, ?_⟩⟩
      exact fun w hw hwid => absurd hwid (hfree w hw)
    · cases hb
      have hk : Keeps lax (Holds s.sub) r r.connect.1 := keeps_connect r
      have hfree' : ∀ w ∈ r.connect.1.parked, w.caller ≠ id := hk.parked ▸ hfree
      refine ⟨r.connect.1, rfl, ?_, ?_, .inl ⟨_, rfl, hfree', by simp⟩⟩
      · rwa [unpark_eq_self hfree, unpark_eq_self hfree']
      · unfold connect
        split <;> rfl
  · simp only [MemoryRegistry.poll] at hb
    obtain ⟨hlook, hfree⟩ | ⟨v, hv, hvid, ⟨result, hlook, hanswer⟩ | ⟨hlook, hnone⟩⟩ :=
      lookAgain_cases r id
    · rw [hlook] at hb
      cases hb
      refine ⟨r, rfl, .refl _ _, rfl, .inr ⟨rfl, .inr rfl, ?_⟩⟩
      exact fun w hw hwid => absurd hwid (hfree w hw)
    · rw [hlook] at hb
      cases hb
      refine ⟨r.unpark id, rfl, ?_, rfl, .inl ⟨_, rfl, fun w hw => caller_ne_of_mem_unpark hw, ?_⟩⟩
      · rw [unpark_unpark]
        exact .refl _ _
      · intro response he
        obtain rfl : result = .ok response := by simpa using he
        exact ⟨v, (h.own r hr v hv hvid).2, hanswer response rfl⟩
    · rw [hlook] at hb
      cases hb
      refine ⟨(r.unpark id).park v, rfl, ?_, rfl, .inr ⟨rfl, .inr rfl, ?_⟩⟩
      · rw [← hvid, unpark_park, unpark_unpark]
        exact .refl _ _
      · intro w hw hwid
        rcases List.mem_append.mp hw with hw | hw
        · exact absurd hwid (caller_ne_of_mem_unpark hw)
        · obtain rfl := List.mem_singleton.mp hw
          exact ⟨rfl, (h.own r hr w hv hvid).2, hnone⟩
  · have hfree := hother (by simp)
    simp only [MemoryRegistry.poll, Flight.arrived, Nat.le_refl, decide_true, if_true] at hb
    cases hb
    refine ⟨r, rfl, .refl _ _, rfl, .inl ⟨_, rfl, hfree, fun response he => ?_⟩⟩
    obtain ⟨w, hw, hanswer⟩ := ha response he
    exact ⟨w, hw, hanswer r hr⟩

theorem wakes_of_without (s : Run) (id : TaskId) : Wakes (s.without id) s :=
  wakes_backend (s.without id) s.backend

theorem Asks.withBackend {s : Run} {id : TaskId} {t : Task} {f : Flight} (h : s.Asks lax id t f)
    {r r₁ : MemoryRegistry} (hr : s.backend.collaborators = .memory r) {b : Backend}
    (hb : b.collaborators = .memory r₁)
    (hk : Keeps lax (Holds s.sub) (r.unpark id) (r₁.unpark id))
    (ha : r₁.announcements = r.announcements) :
    ((s.withBackend b).without id).Orderly lax (some id) := by
  obtain ⟨hd, hi⟩ := h.orderly.inOrder (collaborators_without hr id)
  have hw := (wakes_of_without s id).trans ((wakes_withBackend s b).trans
    (wakes_backend (s.withBackend b) ((s.withBackend b).backend.drop id)))
  have hc : (s.withBackend b).backend.collaborators = .memory r₁ := by rw [backend_withBackend, hb]
  refine h.orderly.of_wakes hw ⟨r₁.unpark id, collaborators_without hc id, hk.identities ▸ hd, ?_⟩
  exact hi.keeps hk (fun _ => hw.awake) (fun hne => absurd ha hne)

end ModelRegistry.Simulation.Run
