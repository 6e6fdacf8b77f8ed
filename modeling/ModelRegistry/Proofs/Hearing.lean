import ModelRegistry.Proofs.Beginning

namespace ModelRegistry.Simulation.Run

open MemoryRegistry

variable {lax : Prop}

theorem Apt.hearRequest {s : Run} {running : Option TaskId} {id : TaskId} (h : s.Apt lax running id)
    (cluster : ClusterId) (q : Request) (call : Call Answer) (heard : Heard) :
    (s.hearRequest id cluster q call heard).Apt lax running id := by
  have hput : (s.putClient ((s.cache.client cluster).call s.now (s.draws cluster) call
      (heard.signal answer?)).1).Apt lax running id := h.putClient rfl rfl
  unfold Run.hearRequest
  generalize (s.cache.client cluster).call _ _ call (heard.signal answer?) = next at hput ⊢
  obtain ⟨c, call'⟩ := next
  simp only
  split
  · exact hput.finish _
  · exact hput.setWork rfl

theorem Apt.hearAcquire {s : Run} {running : Option TaskId} {id : TaskId} (h : s.Apt lax running id)
    (cluster : ClusterId) (a : Acquisition) (heard : Heard) :
    (s.hearAcquire id cluster a heard).Apt lax running id := by
  have hput : (s.putClient ((s.cache.client cluster).acquire s.now (s.draws cluster) a
      heard.acquisition).1).Apt lax running id := h.putClient rfl rfl
  unfold Run.hearAcquire
  generalize (s.cache.client cluster).acquire _ _ a heard.acquisition = next at hput ⊢
  obtain ⟨c, a'⟩ := next
  simp only at hput ⊢
  split
  · exact (hput.inert (inert_books id _ _ _ _ _)).finish _
  · exact hput.finish _
  · exact hput.setWork rfl

theorem Apt.hearTrial {s : Run} {running : Option TaskId} {id : TaskId} (h : s.Apt lax running id)
    (cluster : ClusterId) (t : Trial) (heard : Heard) :
    (s.hearTrial id cluster t heard).Apt lax running id := by
  have hput : ∀ connection,
      (s.putClient ((s.cache.client cluster).stepped connection)).Apt lax running id :=
    fun connection => h.putClient rfl rfl
  unfold Run.hearTrial
  simp only
  split
  · exact (hput _).finish _
  · apply (hput _).setWork
    rfl

theorem Apt.hear {s : Run} {running : Option TaskId} {id : TaskId} (h : s.Apt lax running id)
    {w : Work} (hw : ∀ step, w = .step step → s.LetsWork lax w) (hplain : w.isWatching = false)
    (heard : Heard) : (s.hear id w heard).Apt lax running id := by
  cases w with
  | step step => exact h.begin (hw step rfl)
  | request cluster q call => exact h.hearRequest cluster q call heard
  | acquire cluster a => exact h.hearAcquire cluster a heard
  | trial cluster t => exact h.hearTrial cluster t heard
  | produce => cases hplain
  | consume => cases hplain
  | sleep wakes => exact h.finish _
  | eventually cluster model size givesUp next => exact h.lookAt cluster model size givesUp
  | join target => exact h.finish _
  | dial address =>
    simp only [Run.hear]
    unfold Run.hearDial
    split
    · exact (h.inert (inert_books id _ _ _ _ _)).finish _
    · exact h.finish _
    · exact h.setWork rfl
  | watch link model cursor givesUp =>
    simp only [Run.hear]
    unfold Run.hearWatch
    split <;> exact h.finish _
  | ended result time => exact h

theorem goOn_eq (s : Run) (id : TaskId) (w : Work) (heard : Heard) :
    ∃ alarms, s.goOn id w heard = { s.hear id w heard with alarms } :=
  ⟨_, rfl⟩

theorem Apt.goOn {s : Run} {running : Option TaskId} {id : TaskId} (h : s.Apt lax running id)
    {w : Work} (hw : ∀ step, w = .step step → s.LetsWork lax w) (hplain : w.isWatching = false)
    (heard : Heard) : (s.goOn id w heard).Orderly lax running := by
  obtain ⟨alarms, he⟩ := s.goOn_eq id w heard
  rw [he]
  exact ((h.hear hw hplain heard).inert (inert_books id _ alarms _ _ _)).1

theorem wake_if (s : Run) (id : TaskId) (p : Prop) [Decidable p] (running : Option TaskId) :
    Wakes s (if p then s.wake id else s) ∧ (if p then s.wake id else s).backend = s.backend ∧
      (p → (if p then s.wake id else s).Awake running id) := by
  split
  · exact ⟨wakes_wake s id, backend_wake s id, fun _ => awake_wake s running id⟩
  · exact ⟨.refl s, rfl, fun hp => absurd hp ‹_›⟩

theorem sub_putClient {s : Run} {c : Client} {n : Nat} {x x' : Subscription}
    (hx : s.sub c.cluster n = some x)
    (hc : c.subscriptions = (s.cache.client c.cluster).subscriptions.setIfInBounds n x') :
    (s.putClient c).sub c.cluster n = some x' ∧
      ∀ k m, (k, m) ≠ (c.cluster, n) → (s.putClient c).sub k m = s.sub k m := by
  have hlt := (Array.getElem?_eq_some_iff.mp hx).1
  simp only [Run.sub, putClient, Cache.client_put]
  constructor
  · rw [if_true, hc, Array.getElem?_setIfInBounds_self_of_lt hlt]
  · intro k m hkm
    split
    · rename_i he
      subst he
      have hm : n ≠ m := fun hm => hkm (by rw [hm])
      rw [hc, Array.getElem?_setIfInBounds_ne hm]
    · rfl

def Unparked (s : Run) (id : TaskId) : Prop :=
  ∀ r, s.backend.collaborators = .memory r → ∀ w ∈ r.parked, w.caller ≠ id

theorem Orderly.hearProduce {s : Run} {running : Option TaskId} (h : s.Orderly lax running)
    {id : TaskId} {cluster : ClusterId} {n : Nat} {j : TaskId} {f : Option Flight}
    (ht : s.tasks[id]? = some ⟨.produce cluster n j, f⟩) (hid : s.Unparked id) {heard : Heard}
    (hsig : heard.signal response? ≠ .cutOff)
    (hans : ∀ response, heard.signal response? = .answered (.ok response) →
      ∀ r x, s.backend.collaborators = .memory r → s.sub cluster n = some x →
        r.answer x.replica.model x.producer.asked = .ok (some response)) :
    (s.hearProduce id cluster n j heard).Orderly lax running := by
  obtain ⟨r, hr, hd, hi⟩ := h.order
  obtain ⟨x, hx, hj, -⟩ := hi.producer id cluster n j f ht
  let c := s.cache.client cluster
  let env := c.env s.now (s.draws cluster)
  let x' := (x.produce env c.connection (heard.signal response?)).2
  let c' := c.produce s.now (s.draws cluster) n (heard.signal response?)
  have hmoved : x.Moved (x.note env c.connection (heard.signal response?)) x' :=
    Subscription.produce_moved env c.connection (hi.follows cluster n x hx).proper hsig
  have hfollows : x'.Follows lax r := by
    apply (hi.follows cluster n x hx).produce hd hmoved
    intro response hn
    exact hans response (Subscription.signal_of_note_answered hn) r x hr hx
  have hcluster : c'.cluster = cluster :=
    (Client.cluster_produce _ _ _ _ _).trans (h.keyed cluster)
  have hsubs : c'.subscriptions =
      (s.cache.client c'.cluster).subscriptions.setIfInBounds n x' := by
    rw [hcluster]
    exact Client.subscriptions_produce hx s.now (s.draws cluster) (heard.signal response?)
  obtain ⟨hself, hother⟩ := sub_putClient (hcluster ▸ hx) hsubs
  rw [hcluster] at hself hother
  have hgrown : (x'.queue = x.queue ∧ x'.listening = x.listening) ∨ queued c n < queued c' n := by
    rcases hmoved.queue_cases with hq | ⟨u, hq⟩
    · exact .inl ⟨hq, (x.produce_frame _ _ _).2⟩
    · refine .inr ?_
      have hx' : c'.subscriptions[n]? = some x' := by
        have hput := hself
        simp only [Run.sub, putClient, Cache.client_put, hcluster, if_true] at hput
        exact hput
      have hc : c.subscriptions[n]? = some x := hx
      simp [queued, hx', hc, hq]
  obtain ⟨hw, hb, hwoken⟩ := wake_if ((s.putClient c').setWork id (.produce cluster n j)) j
    (queued c n < queued c' n) running
  change Orderly lax (if queued c n < queued c' n then
    ((s.putClient c').setWork id (.produce cluster n j)).wake j
    else (s.putClient c').setWork id (.produce cluster n j)) running
  generalize (if queued c n < queued c' n then
    ((s.putClient c').setWork id (.produce cluster n j)).wake j
    else (s.putClient c').setWork id (.produce cluster n j)) = s₂ at *
  have htask : ∀ i, i ≠ id → s₂.tasks[i]? = s.tasks[i]? := by
    intro i hne
    rw [hw.tasks]
    exact (tasks_setTask _ _ _ _).trans (if_neg (Ne.symm hne))
  have htask' : s₂.tasks[id]? = some ⟨.produce cluster n j, none⟩ := by
    rw [hw.tasks]
    exact (tasks_setTask _ _ _ _).trans (if_pos rfl)
  have hsub : s₂.sub = (s.putClient c').sub := hw.sub
  constructor
  · refine ⟨r, hb ▸ hr, hd, ?_⟩
    rw [hsub]
    exact hi.produce (hid r hr) ht htask htask' hx hself
      (fun k m hkm => hother k m hkm) hfollows (fun i ha => hw.awake ha)
      (hgrown.imp_right hwoken)
  · rw [hw.cache]
    exact keyed_putClient h.keyed c'
  · rw [hw.nextTask]
    exact h.fresh_of_eq (h.lt_nextTask ht) htask
  · rw [hw.nextTask, hw.names]
    refine h.named_of_eq htask fun t' ht' => .inr ⟨_, ht, ?_⟩
    rw [← Option.some.inj (htask'.symm.trans ht')]

theorem Orderly.hearConsume {s : Run} {running : Option TaskId} (h : s.Orderly lax running)
    (cluster : ClusterId) (n : Nat) (producer : TaskId) :
    (s.hearConsume cluster n producer).Orderly lax running := by
  unfold Run.hearConsume
  cases hc : (s.cache.client cluster).consume n with
  | none => exact h
  | some c =>
    obtain ⟨r, hr, hd, hi⟩ := h.order
    obtain ⟨x, x', u, hx, hcons, ⟨hcluster, -⟩, hsubs, -⟩ := Client.consume_cases hc
    rw [h.keyed cluster] at hcluster
    subst hcluster
    obtain ⟨hself, hother⟩ := sub_putClient hx hsubs
    obtain ⟨hw, hb, -⟩ := wake_if (s.putClient c) producer (isSending c n) running
    simp only
    generalize (if isSending c n = true then (s.putClient c).wake producer
      else s.putClient c) = s₂ at *
    constructor
    · refine ⟨r, hb ▸ hr, hd, ?_⟩
      rw [hw.sub, hw.tasks]
      exact (hi.consume hx hcons hself hother).awake_mono (fun i ha => hw.awake ha)
    · rw [hw.cache]
      exact keyed_putClient h.keyed c
    · rw [hw.nextTask, hw.tasks]
      exact h.fresh
    · rw [hw.nextTask, hw.tasks, hw.names]
      exact h.named

theorem Orderly.books {s : Run} {running : Option TaskId} (h : s.Orderly lax running)
    (alarms : List Alarm) (opened : List ClusterId) (handles stubs : List Link) :
    Orderly lax { s with alarms, opened, handles, stubs } running :=
  ⟨h.order, h.keyed, h.fresh, h.named⟩

theorem Orderly.goOn_produce {s : Run} {running : Option TaskId} (h : s.Orderly lax running)
    {id : TaskId} {cluster : ClusterId} {n : Nat} {j : TaskId} {f : Option Flight}
    (ht : s.tasks[id]? = some ⟨.produce cluster n j, f⟩) (hid : s.Unparked id) {heard : Heard}
    (hsig : heard.signal response? ≠ .cutOff)
    (hans : ∀ response, heard.signal response? = .answered (.ok response) →
      ∀ r x, s.backend.collaborators = .memory r → s.sub cluster n = some x →
        r.answer x.replica.model x.producer.asked = .ok (some response)) :
    (s.goOn id (.produce cluster n j) heard).Orderly lax running := by
  obtain ⟨alarms, he⟩ := s.goOn_eq id (.produce cluster n j) heard
  rw [he]
  exact (h.hearProduce ht hid hsig hans).books alarms _ _ _

theorem Orderly.goOn_consume {s : Run} {running : Option TaskId} (h : s.Orderly lax running)
    (id : TaskId) (cluster : ClusterId) (n : Nat) (producer : TaskId) (heard : Heard) :
    (s.goOn id (.consume cluster n producer) heard).Orderly lax running := by
  obtain ⟨alarms, he⟩ := s.goOn_eq id (.consume cluster n producer) heard
  rw [he]
  exact (h.hearConsume cluster n producer).books alarms _ _ _

theorem signal_eq_answered {heard : Heard} {result : Except Error Response}
    (h : heard.signal response? = .answered result) : heard = .reply (.changed result) := by
  cases heard with
  | proceed => cases h
  | limit cause => cases cause <;> cases h
  | reply reply =>
    cases reply with
    | changed result' =>
      obtain rfl : result' = result := by simpa [Heard.signal, response?] using h
      rfl
    | _ => cases h

theorem Orderly.goOn {s : Run} {running : Option TaskId} (h : s.Orderly lax running) {id : TaskId}
    {t : Task} (ht : s.tasks[id]? = some t) (hid : s.Unparked id)
    (hstep : ∀ step, t.work = .step step → s.LetsWork lax t.work) {heard : Heard}
    (hsig : ∀ cluster n j, t.work = .produce cluster n j → heard.signal response? ≠ .cutOff)
    (hans : ∀ response, heard = .reply (.changed (.ok response)) →
      ∃ w, Awaits s.sub w t.work ∧ ∀ r, s.backend.collaborators = .memory r →
        r.answer w.model w.cursor = .ok (some response)) :
    (s.goOn id t.work heard).Orderly lax running := by
  obtain ⟨work, f⟩ := t
  cases hw : work.isWatching with
  | false =>
    refine Apt.goOn ⟨h, h.lt_nextTask ht, ?_, hid⟩ hstep hw heard
    intro t' ht'
    obtain rfl := Option.some.inj (ht.symm.trans ht')
    exact hw
  | true =>
    cases work with
    | produce cluster n j =>
      apply h.goOn_produce ht hid (hsig cluster n j rfl)
      intro response hr r x hmem hx
      obtain ⟨w, ⟨x', k, hx', -, -, hmodel, hcursor⟩, ha⟩ := hans response (signal_eq_answered hr)
      obtain rfl : x = x' := Option.some.inj (hx.symm.trans hx')
      rw [← hmodel, ← hcursor]
      exact ha r hmem
    | consume cluster n producer => exact h.goOn_consume id cluster n producer heard
    | _ => cases hw

end ModelRegistry.Simulation.Run
