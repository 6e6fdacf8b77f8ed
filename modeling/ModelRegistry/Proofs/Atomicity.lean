import ModelRegistry.Proofs.History

namespace ModelRegistry

theorem Call.step_finished {α : Type} {env : Env} {c : Connection} {k : Call α}
    {signal : Call.Signal α} {v : α} (h : (k.step env c signal).2.stage = .finished (.ok v)) :
    (∃ link, k.stage = .operating link ∧ signal = .answered (.ok v)) ∨
      k.stage = .finished (.ok v) := by
  have hretry : ∀ (k : Call α) e, (k.retry env e).stage ≠ .finished (.ok v) := by
    intro k e
    unfold Call.retry
    split
    · simp only
      split <;> simp
    · simp
  have hacquire : ∀ a : Acquisition, afterAcquisition a ≠ .finished (.ok v) := by
    intro a
    unfold afterAcquisition
    split <;> simp
  unfold Call.step at h
  split at h
  · exact absurd h (hacquire _)
  · exact absurd h (hacquire _)
  · cases h
  · rename_i link w hk
    cases h
    exact .inl ⟨link, hk, rfl⟩
  · cases h
  · cases h
  · split at h
    · cases h
    · exact absurd h (hretry _ _)
  · exact absurd h (hretry _ _)
  · cases h
  · exact .inr h

namespace Simulation.Run

structure Proceeds (id : TaskId) (cluster : ClusterId) (q : Request) (t : Catalog) (s s' : Run) :
    Prop where
  others : ∀ j, j ≠ id → s'.tasks[j]? = s.tasks[j]?
  own : (s'.catalog? = some t ∧ ∃ call f, s'.tasks[id]? = some ⟨.request cluster q call, f⟩ ∧
      ∀ link, call.stage = .operating link → f = none) ∨
    ∃ result time t', s'.tasks[id]? = some ⟨.ended (.answered result) time, none⟩ ∧
      s'.catalog? = some t' ∧ t.Yields q result t'

theorem catalog_finish (s : Run) (id : TaskId) (result : Result) :
    (s.finish id result).catalog? = s.catalog? :=
  congrArg (·.collaborators.catalog?) (backend_wakeAll _ _)

theorem memory_of_catalog {s : Run} {t : Catalog} (hc : s.catalog? = some t) :
    ∃ r, s.backend.collaborators = .memory r ∧ r.catalog = t := by
  unfold catalog? Collaborators.catalog? at hc
  split at hc
  · rename_i r hr
    exact ⟨r, hr, Option.some.inj hc⟩
  · cases hc

def heardCall (s : Run) (cluster : ClusterId) (call : Call Answer) (heard : Heard) : Call Answer :=
  ((s.cache.client cluster).call s.now (s.draws cluster) call (heard.signal answer?)).2

theorem proceeds_goOn {s₁ : Run} {id : TaskId} {cluster : ClusterId} {q : Request}
    {call : Call Answer} {heard : Heard} {t t' : Catalog} (s : Run) (ht : s₁.tasks = s.tasks)
    (hc : s₁.catalog? = some t')
    (hreturn : ∀ result, (s₁.heardCall cluster call heard).stage = .finished result →
      t.Yields q (result.bind q.conclude) t')
    (hgoes : (∀ result, (s₁.heardCall cluster call heard).stage ≠ .finished result) → t' = t) :
    Proceeds id cluster q t s (s₁.goOn id (.request cluster q call) heard) := by
  obtain ⟨alarms, he⟩ := s₁.goOn_eq id (.request cluster q call) heard
  rw [he]
  simp only [hear, hearRequest]
  unfold heardCall at hreturn hgoes
  generalize (s₁.cache.client cluster).call _ _ call (heard.signal answer?) = next
    at hreturn hgoes ⊢
  obtain ⟨c, call'⟩ := next
  have hput : (s₁.putClient c).catalog? = some t' := hc
  have hputs : (s₁.putClient c).tasks = s.tasks := ht
  simp only
  split
  · rename_i result hstage
    refine ⟨fun j hj => ?_, .inr ⟨_, s₁.now, t', ?_, ?_, hreturn result hstage⟩⟩
    · exact ((tasks_finish ..).trans (if_neg (Ne.symm hj))).trans (by rw [hputs])
    · exact (tasks_finish ..).trans (if_pos rfl)
    · exact (catalog_finish ..).trans hput
  · rename_i hstage
    obtain rfl := hgoes hstage
    refine ⟨fun j hj => ?_, .inl ⟨hput, call', none, ?_, fun _ _ => rfl⟩⟩
    · exact ((tasks_setWork ..).trans (if_neg (Ne.symm hj))).trans (by rw [hputs])
    · exact (tasks_setWork ..).trans (if_pos rfl)

theorem proceeds_away {s : Run} {id : TaskId} {cluster : ClusterId} {q : Request}
    {call : Call Answer} {f : Option Flight} {t : Catalog}
    (ht : s.tasks[id]? = some ⟨.request cluster q call, f⟩) (hc : s.catalog? = some t)
    (hk : ∀ link, call.stage ≠ .operating link) :
    Proceeds id cluster q t s (s.move id).1 := by
  have hq : ∀ link request limits,
      s.wait (.request cluster q call) ≠ .reply (.request link request) limits := by
    intro link request limits hwait
    obtain ⟨⟨l, hl, -⟩ | he | ⟨_, he⟩, -⟩ := ofCall_reply hwait
    · exact hk l hl
    · cases he
    · cases he
  obtain ⟨s₁, heard, hwait, hsame, he⟩ | hstay := move_cases ht hq
  · rw [he]
    have hfails : ∀ v, (s₁.heardCall cluster call heard).stage ≠ .finished (.ok v) := by
      intro v hv
      obtain ⟨link, hl, -⟩ | hf := Call.step_finished hv
      · exact hk link hl
      · apply hwait
        simp [wait, Work.wait, Wait.ofCall, hf]
    apply proceeds_goOn s hsame.tasks (hsame.catalog.trans hc)
    · intro result hr
      cases result with
      | ok v => exact absurd hr (hfails v)
      | error e => rfl
    · exact fun _ => rfl
  · obtain ⟨f', hf'⟩ := hstay.own
    refine ⟨hstay.others, .inl ⟨hstay.catalog.trans hc, call, f', hf', ?_⟩⟩
    exact fun link hl => absurd hl (hk link)

theorem proceeds_operating {s : Run} {id : TaskId} {cluster : ClusterId} {q : Request}
    {call : Call Answer} {link : Link} {t : Catalog}
    (ht : s.tasks[id]? = some ⟨.request cluster q call, none⟩) (hc : s.catalog? = some t)
    (hk : call.stage = .operating link) : Proceeds id cluster q t s (s.move id).1 := by
  have hwait : s.wait (.request cluster q call) =
      .reply (.request link q) (Wait.deadline call.deadline) := by
    simp [wait, Work.wait, Wait.ofCall, hk]
  obtain ⟨r, hr, rfl⟩ := memory_of_catalog hc
  have hyields := r.yields_request link q
  have hask : s.backend.ask s.now id (.request link q) =
      (⟨s.backend.table, .memory (r.request link q).1⟩,
        .timed (some s.now) (.answered (r.request link q).2)) := by
    simp [Backend.ask, hr, Collaborators.ask, MemoryRegistry.ask]
  generalize r.request link q = reply at hyields hask
  obtain ⟨r', result⟩ := reply
  let s₁ := s.withBackend ⟨s.backend.table, .memory r'⟩
  have hpoll : s₁.backend.poll s₁.now id (.timed (some s.now) (.answered result)) =
      (s₁.backend, some (.answered result)) := by
    have hnow : s₁.now = s.now := now_withBackend ..
    have hb : s₁.backend = ⟨s.backend.table, .memory r'⟩ := backend_withBackend ..
    simp [Backend.poll, hb, hnow, Collaborators.poll, MemoryRegistry.poll, Flight.arrived]
  have hmove : (s.move id).1 =
      (s₁.withBackend s₁.backend).goOn id (.request cluster q call)
        (.reply (.answered result)) := by
    unfold move
    simp only [ht, hwait, await, put, hask]
    rw [hpoll]
  have hcatalog : (s₁.withBackend s₁.backend).catalog? = some r'.catalog := by
    simp [catalog?, s₁, backend_withBackend, Collaborators.catalog?]
  rw [hmove]
  refine proceeds_goOn s ?_ hcatalog ?_ ?_
  · rw [tasks_withBackend, tasks_withBackend]
  · intro outcome ho
    cases result with
    | ok v =>
      obtain rfl : Except.ok v = outcome := by
        simpa [heardCall, Client.call, Heard.signal, answer?, Call.step, hk] using ho
      exact hyields
    | error e =>
      simp [heardCall, Client.call, Heard.signal, answer?, Call.step, hk] at ho
  · intro ho
    cases result with
    | ok v =>
      refine absurd ?_ (ho (.ok v))
      simp [heardCall, Client.call, Heard.signal, answer?, Call.step, hk]
    | error e => exact hyields

/-- The history accounts for the run: the table is the one that it leads to, every return ends a
call, a call under way has been made and has not returned, and what a task has been answered is what
its last request has come to. -/
structure Accounts (h : History) (s : Run) : Prop where
  table : ∃ t, s.catalog? = some t ∧ h.Leads ∅ t
  paired : h.Paired
  pending : ∀ (id : TaskId) cluster q call f, s.tasks[id]? = some ⟨.request cluster q call, f⟩ →
    h.latest id = some (.called id q)
  answered : ∀ (id : TaskId) result time f,
    s.tasks[id]? = some ⟨.ended (.answered result) time, f⟩ →
    ∃ q, h.latest id = some (.returned id q result) ∨ h.latest id = some (.asked id q result)

structure Logged (h : History) (s : Run) : Prop extends Accounts h s where
  settled : ∀ (id : TaskId) cluster q (call : Call Answer) link f,
    s.tasks[id]? = some ⟨.request cluster q call, f⟩ → call.stage = .operating link → f = none

variable {s s' : Run} {h : History}

theorem Logged.spares (hl : Logged h s) (hs : Spares s s') : Logged h s' where
  table := by
    rw [hs.catalog]
    exact hl.table
  paired := hl.paired
  pending := fun id cluster q call f hid => hl.pending id cluster q call f (hs.calls id _ hid rfl)
  answered := fun id result time f hid => hl.answered id result time f (hs.calls id _ hid rfl)
  settled := fun id cluster q call link f hid =>
    hl.settled id cluster q call link f (hs.calls id _ hid rfl)

theorem Logged.extend (hl : Logged h s) {h' : History} (id : TaskId)
    (htable : ∀ t, s.catalog? = some t → ∃ t', s'.catalog? = some t' ∧ h'.Leads t t')
    (hothers : ∀ j, j ≠ id → s'.tasks[j]? = s.tasks[j]?)
    (hcaller : ∀ o ∈ h', ∀ j, o.caller? = some j → j = id) (hpaired : History.Paired (h ++ h'))
    (hcall : ∀ cluster q (call : Call Answer) f, s'.tasks[id]? = some ⟨.request cluster q call, f⟩ →
      History.latest (h ++ h') id = some (.called id q) ∧
        ∀ link, call.stage = .operating link → f = none)
    (hanswer : ∀ result time f, s'.tasks[id]? = some ⟨.ended (.answered result) time, f⟩ →
      ∃ q, History.latest (h ++ h') id = some (.returned id q result) ∨
        History.latest (h ++ h') id = some (.asked id q result)) : Logged (h ++ h') s' := by
  have hlatest : ∀ j, j ≠ id → History.latest (h ++ h') j = h.latest j :=
    fun j hj => History.latest_append_of_ne fun o ho he => hj (hcaller o ho j he)
  constructor
  · constructor
    · obtain ⟨t, ht, hh⟩ := hl.table
      obtain ⟨t', ht', hh'⟩ := htable t ht
      exact ⟨t', ht', hh.append hh'⟩
    · exact hpaired
    · intro j cluster q call f hj
      by_cases hne : j = id
      · subst hne
        exact (hcall cluster q call f hj).1
      · rw [hlatest j hne]
        exact hl.pending j cluster q call f (hothers j hne ▸ hj)
    · intro j result time f hj
      by_cases hne : j = id
      · subst hne
        exact hanswer result time f hj
      · rw [hlatest j hne]
        exact hl.answered j result time f (hothers j hne ▸ hj)
  · intro j cluster q call link f hj
    by_cases hne : j = id
    · subst hne
      exact (hcall cluster q call f hj).2 link
    · exact hl.settled j cluster q call link f (hothers j hne ▸ hj)

theorem Logged.concat (hl : Logged h s) {o : Occurrence} {id : TaskId} (ho : o.caller? = some id)
    (htable : ∀ t, s.catalog? = some t → ∃ t', s'.catalog? = some t' ∧ o.Acts t t')
    (hothers : ∀ j, j ≠ id → s'.tasks[j]? = s.tasks[j]?)
    (hreturn : ∀ q result, o = .returned id q result → h.latest id = some (.called id q))
    (hcall : ∀ cluster q (call : Call Answer) f, s'.tasks[id]? = some ⟨.request cluster q call, f⟩ →
      o = .called id q ∧ ∀ link, call.stage = .operating link → f = none)
    (hanswer : ∀ result time f, s'.tasks[id]? = some ⟨.ended (.answered result) time, f⟩ →
      ∃ q, o = .returned id q result ∨ o = .asked id q result) : Logged (h ++ [o]) s' := by
  have hlatest := History.latest_concat h ho
  apply hl.extend id
  · intro t ht
    obtain ⟨t', ht', hacts⟩ := htable t ht
    exact ⟨t', ht', t', hacts, rfl⟩
  · exact hothers
  · intro o' ho' j hj
    obtain rfl := List.mem_singleton.mp ho'
    exact Option.some.inj (hj.symm.trans ho)
  · apply hl.paired.concat
    rintro j q result rfl
    obtain rfl : j = id := Option.some.inj ho
    exact hreturn q result rfl
  · intro cluster q call f hid
    rw [hlatest]
    exact (hcall cluster q call f hid).imp_left (congrArg some)
  · intro result time f hid
    rw [hlatest]
    exact (hanswer result time f hid).imp fun q => Or.imp (congrArg some) (congrArg some)

theorem Logged.proceed (hl : Logged h s) {id : TaskId} {cluster : ClusterId} {q : Request}
    {call : Call Answer} {f : Option Flight}
    (ht : s.tasks[id]? = some ⟨.request cluster q call, f⟩) :
    Logged (h ++ s.tells id) (s.move id).1 := by
  obtain ⟨t, htable, -⟩ := hl.table
  have hlatest := hl.pending id cluster q call f ht
  have hproceeds : Proceeds id cluster q t s (s.move id).1 := by
    by_cases hk : ∃ link, call.stage = .operating link
    · obtain ⟨link, hk⟩ := hk
      obtain rfl := hl.settled id cluster q call link f ht hk
      exact proceeds_operating ht htable hk
    · exact proceeds_away ht htable fun link hlink => hk ⟨link, hlink⟩
  obtain ⟨hothers, ⟨hc, call', f', hown, hf⟩ | ⟨result, time, t', hown, hc, hyields⟩⟩ := hproceeds
  · have htells : s.tells id = [] := by simp [tells, ht, hown, occurrences]
    rw [htells]
    apply hl.extend id
    · intro u hu
      obtain rfl := Option.some.inj (htable.symm.trans hu)
      exact ⟨t, hc, rfl⟩
    · exact hothers
    · intro o ho
      cases ho
    · rw [List.append_nil]
      exact hl.paired
    · intro cluster₁ q₁ call₁ f₁ h₁
      obtain ⟨⟨rfl, rfl, rfl⟩, rfl⟩ : (cluster = cluster₁ ∧ q = q₁ ∧ call' = call₁) ∧ f' = f₁ := by
        simpa [hown] using h₁
      rw [List.append_nil]
      exact ⟨hlatest, hf⟩
    · intro result time f₁ h₁
      simp [hown] at h₁
  · have htells : s.tells id = [.returned id q result] := by simp [tells, ht, hown, occurrences]
    rw [htells]
    apply hl.concat rfl
    · intro u hu
      obtain rfl := Option.some.inj (htable.symm.trans hu)
      exact ⟨t', hc, hyields⟩
    · exact hothers
    · intro q₁ result₁ he
      obtain ⟨-, rfl, -⟩ : id = id ∧ q = q₁ ∧ result = result₁ := by simpa using he
      exact hlatest
    · intro cluster₁ q₁ call₁ f₁ h₁
      simp [hown] at h₁
    · intro result₁ time₁ f₁ h₁
      obtain ⟨⟨rfl, -⟩, -⟩ : (result = result₁ ∧ time = time₁) ∧ none = f₁ := by
        simpa [hown] using h₁
      exact ⟨q, .inl rfl⟩

theorem move_step {id : TaskId} {step : Step} {f : Option Flight}
    (ht : s.tasks[id]? = some ⟨.step step, f⟩) :
    ∃ alarms, (s.move id).1 = { s.begin id step with alarms } := by
  unfold move
  rw [ht]
  exact s.goOn_eq id (.step step) .proceed

theorem Logged.call (hl : Logged h s) {id : TaskId} {cluster : ClusterId} {q : Request}
    {f : Option Flight} (ht : s.tasks[id]? = some ⟨.step (.request cluster q), f⟩) :
    Logged (h ++ s.tells id) (s.move id).1 := by
  obtain ⟨alarms, he⟩ := move_step ht
  have htasks : ∀ j, (s.move id).1.tasks[j]? = if id = j then
      some ⟨.request cluster q (.start (s.client cluster).2.retry
        (some ((s.client cluster).2.adminDeadline s.now))), none⟩ else s.tasks[j]? := by
    intro j
    rw [he]
    exact tasks_setWork (s.client cluster).1 id _ j
  have hown := (htasks id).trans (if_pos rfl)
  have htells : s.tells id = [.called id q] := by simp [tells, ht, hown, occurrences]
  rw [htells]
  apply hl.concat rfl
  · intro t hc
    refine ⟨t, ?_, rfl⟩
    rw [he]
    exact hc
  · exact fun j hj => (htasks j).trans (if_neg (Ne.symm hj))
  · intro q₁ result₁ he
    cases he
  · intro cluster₁ q₁ call₁ f₁ h₁
    obtain ⟨⟨-, rfl, -⟩, rfl⟩ :
        (cluster = cluster₁ ∧ q = q₁ ∧ Call.start _ _ = call₁) ∧ none = f₁ := by
      simpa [hown] using h₁
    exact ⟨rfl, fun _ _ => rfl⟩
  · intro result time f₁ h₁
    simp [hown] at h₁

theorem catalog_command (s : Run) (c : MemoryRegistry.Command) {t : Catalog}
    (hc : s.catalog? = some t) :
    (s.command c).catalog? = some (t.operate c) ∧ (s.command c).tasks = s.tasks := by
  obtain ⟨r, hr, rfl⟩ := memory_of_catalog hc
  have hmemory : (s.withMemory (r.command c)).catalog? = some (r.catalog.operate c) := by
    rw [← r.catalog_command c, catalog?, withMemory, backend_withBackend]
    rfl
  have htasks : (s.withMemory (r.command c)).tasks = s.tasks := tasks_withBackend ..
  unfold command
  rw [memory?_of_order hr]
  simp only
  split
  · exact ⟨(congrArg (·.collaborators.catalog?) (backend_wakeAll _ _)).trans hmemory,
      (wakes_wakeAll _ _).tasks.trans htasks⟩
  · exact ⟨hmemory, htasks⟩

theorem catalog_commands (s : Run) (cs : List MemoryRegistry.Command) {t : Catalog}
    (hc : s.catalog? = some t) :
    (cs.foldl command s).catalog? = some (cs.foldl Catalog.operate t) ∧
      (cs.foldl command s).tasks = s.tasks := by
  induction cs generalizing s t with
  | nil => exact ⟨hc, rfl⟩
  | cons c cs ih =>
    obtain ⟨hcatalog, htasks⟩ := s.catalog_command c hc
    exact (ih (s.command c) hcatalog).imp_right (·.trans htasks)

theorem Logged.operate (hl : Logged h s) {id : TaskId} {step : Step} {f : Option Flight}
    (ht : s.tasks[id]? = some ⟨.step step, f⟩) (cs : List MemoryRegistry.Command)
    (hbegin : s.begin id step = (cs.foldl command s).finish id .none)
    (hoccur : ∀ w, occurrences id (.step step) w = cs.map .operated) :
    Logged (h ++ s.tells id) (s.move id).1 := by
  obtain ⟨alarms, he⟩ := move_step ht
  rw [hbegin] at he
  obtain ⟨t, hc, -⟩ := hl.table
  obtain ⟨hcatalog, hsame⟩ := s.catalog_commands cs hc
  have htasks : ∀ j, (s.move id).1.tasks[j]? =
      if id = j then some ⟨.ended .none (cs.foldl command s).now, none⟩ else s.tasks[j]? := by
    intro j
    rw [he, ← hsame]
    exact tasks_finish _ id _ j
  have hown := (htasks id).trans (if_pos rfl)
  have htells : s.tells id = cs.map .operated := by simp [tells, ht, hown, hoccur]
  rw [htells]
  apply hl.extend id
  · intro u hu
    obtain rfl := Option.some.inj (hc.symm.trans hu)
    refine ⟨_, ?_, History.leads_operated cs t⟩
    rw [he]
    exact (catalog_finish _ id _).trans hcatalog
  · exact fun j hj => (htasks j).trans (if_neg (Ne.symm hj))
  · intro o ho j hj
    obtain ⟨c, -, rfl⟩ := List.mem_map.mp ho
    cases hj
  · apply hl.paired.append
    intro j q result hm
    obtain ⟨c, -, hcm⟩ := List.mem_map.mp hm
    cases hcm
  · intro cluster₁ q₁ call₁ f₁ h₁
    simp [hown] at h₁
  · intro result time f₁ h₁
    simp [hown] at h₁

theorem Logged.ask (hl : Logged h s) {id : TaskId} {stub : Nat} {q : Request}
    {f : Option Flight} (ht : s.tasks[id]? = some ⟨.step (.ask stub q), f⟩) :
    Logged (h ++ s.tells id) (s.move id).1 := by
  obtain ⟨alarms, he⟩ := move_step ht
  obtain ⟨t, hc, -⟩ := hl.table
  obtain ⟨r, hr, rfl⟩ := memory_of_catalog hc
  cases hstub : s.stubs[stub]? with
  | none =>
    have hbegin : s.begin id (.ask stub q) = s.finish id .none := by
      simp [begin, Run.ask, hstub]
    rw [hbegin] at he
    have hspares : Spares s (s.move id).1 := by
      rw [he]
      exact ((Spares.refl s).finish id rfl).books _ _ _ _ _
    have hown : (s.move id).1.tasks[id]? = some ⟨.ended .none s.now, none⟩ := by
      rw [he]
      exact (tasks_finish s id _ id).trans (if_pos rfl)
    have htells : s.tells id = [] := by simp [tells, ht, hown, occurrences]
    rw [htells, List.append_nil]
    exact hl.spares hspares
  | some link =>
    have hbegin : s.begin id (.ask stub q) =
        (s.withMemory (r.request link q).1).finish id (.answered (r.request link q).2) := by
      simp [begin, Run.ask, hstub, memory?_of_order hr]
    rw [hbegin] at he
    have htasks : ∀ j, (s.move id).1.tasks[j]? = if id = j then
        some ⟨.ended (.answered (r.request link q).2) s.now, none⟩ else s.tasks[j]? := by
      intro j
      rw [he, ← tasks_withBackend s, ← now_withBackend s]
      exact tasks_finish (s.withMemory (r.request link q).1) id _ j
    have hown := (htasks id).trans (if_pos rfl)
    have htells : s.tells id = [.asked id q (r.request link q).2] := by
      simp [tells, ht, hown, occurrences]
    rw [htells]
    apply hl.concat rfl
    · intro u hu
      obtain rfl := Option.some.inj (hc.symm.trans hu)
      refine ⟨(r.request link q).1.catalog, ?_, r.yields_request link q⟩
      rw [he]
      refine (catalog_finish _ id _).trans ?_
      rw [catalog?, withMemory, backend_withBackend]
      rfl
    · exact fun j hj => (htasks j).trans (if_neg (Ne.symm hj))
    · intro q₁ result₁ he
      cases he
    · intro cluster₁ q₁ call₁ f₁ h₁
      simp [hown] at h₁
    · intro result time f₁ h₁
      obtain ⟨⟨rfl, -⟩, -⟩ :
          ((r.request link q).2 = result ∧ s.now = time) ∧ none = f₁ := by
        simpa [hown] using h₁
      exact ⟨q, .inr rfl⟩

theorem occurrences_of_isMute {id : TaskId} {w w' : Work} (h : w.isMute) :
    occurrences id w w' = [] := by
  cases w with
  | step step =>
    cases step with
    | request | ask | command | batch => cases h
    | _ => rfl
  | request => cases h
  | _ => rfl

theorem Logged.move (hl : Logged h s) (id : TaskId) :
    Logged (h ++ s.tells id) (s.move id).1 := by
  cases ht : s.tasks[id]? with
  | none =>
    have hmove : s.move id = (s, false) := by simp [Run.move, ht]
    simpa [tells, ht, hmove] using hl
  | some t =>
    obtain ⟨w, f⟩ := t
    by_cases hw : w.isMute
    · have htells : s.tells id = [] := by
        unfold tells
        split
        · rename_i t t' h₁ h₂
          obtain rfl := Option.some.inj (ht.symm.trans h₁)
          exact occurrences_of_isMute hw
        · rfl
      rw [htells, List.append_nil]
      exact hl.spares (spares_move ht hw)
    · cases w with
      | request cluster q call => exact hl.proceed ht
      | step step =>
        cases step with
        | request cluster q => exact hl.call ht
        | ask stub q => exact hl.ask ht
        | command c => exact hl.operate ht [c] rfl fun _ => rfl
        | batch cs => exact hl.operate ht cs rfl fun _ => rfl
        | _ => exact absurd rfl hw
      | ended result time =>
        have hmove : s.move id = (s, false) := by simp [Run.move, ht, wait, Work.wait]
        have htells : s.tells id = [] := by simp [tells, ht, hmove, occurrences]
        simpa [htells, hmove] using hl
      | _ => exact absurd rfl hw

theorem logged_fresh (settings : RegistrySettings × RetrySettings) (table : Option AddressTable)
    (identities : Nat → String) (draws : ClusterId → Draws) :
    Logged [] (fresh settings table identities draws) := by
  have htask : ∀ id : TaskId, (fresh settings table identities draws).tasks[id]? = none := by
    intro id
    simp [fresh, Run.new]
  constructor
  · constructor
    · exact ⟨_, congrArg some (MemoryRegistry.catalog_new identities), rfl⟩
    · exact History.paired_nil
    · intro id cluster q call f hid
      simp [htask] at hid
    · intro id result time f hid
      simp [htask] at hid
  · intro id cluster q call link f hid
    simp [htask] at hid

theorem Recorded.logged {start : Run} {running : Option TaskId}
    (hr : Recorded start running s h) (h₀ : Logged [] start) : Logged h s := by
  induction hr with
  | start => exact h₀
  | wake _ _ ih => exact ih.spares ⟨rfl, fun _ _ ht _ => ht⟩
  | main _ _ ih => exact ih.spares ⟨rfl, fun _ _ ht _ => ht⟩
  | move _ ih => exact ih.move _
  | @yield s h id _ ih => exact ih.spares ((Spares.refl s).wake id)
  | @jump s s' h _ hj ih =>
    unfold Run.jump at hj
    split at hj
    · obtain rfl := Option.some.inj hj
      refine ih.spares (Spares.wakeAll ?_ _)
      exact ⟨rfl, fun _ _ ht _ => ht⟩
    · cases hj
  | @begin s h step _ _ ih =>
    have hset : Spares s (s.setWork Run.main (.step step)) := (Spares.refl s).setWork Run.main rfl
    exact ih.spares ⟨hset.catalog, hset.calls⟩

/-- In any run of a fresh system, with any failures prepared and in any order of moves, the calls
that return take effect where they return, one after the other, as at a plain table, and no others
do. -/
theorem Recorded.accounts (settings : RegistrySettings × RetrySettings)
    (table : Option AddressTable) (identities : Nat → String) (draws : ClusterId → Draws)
    {running : Option TaskId}
    (hr : Recorded (fresh settings table identities draws) running s h) : Accounts h s :=
  (hr.logged (logged_fresh settings table identities draws)).toAccounts

def forestalled : Run :=
  let s := (small.perform (.command (.failCalls [.unavailable "busy"]))).1
  let s := (s.perform (.start "first" (.request cell (.publish (.conventional ⟨"lm"⟩))))).1
  let s := (s.perform (.request cell (.publish (.conventional ⟨"lm"⟩)))).1
  (s.perform (.advance 10)).1

def failed? (t : Task) : Option Bool :=
  match t.work with
  | .ended (.answered (.error _)) _ => some true
  | .ended (.answered (.ok _)) _ => some false
  | _ => none

theorem reachable_forestalled : Reachable (fun _ _ => True) small none forestalled := by
  have hfail := Reachable.perform (fun _ _ => trivial) .start rests_small
    (.command (.failCalls [.unavailable "busy"]))
  have hfirst := hfail.performed (by decide +kernel)
    (.start "first" (.request cell (.publish (.conventional ⟨"lm"⟩))))
  have hsecond := hfirst.performed (by decide +kernel)
    (.request cell (.publish (.conventional ⟨"lm"⟩)))
  exact hsecond.performed (by decide +kernel) _

theorem accounts_forestalled : ∃ h, Recorded small none forestalled h ∧ Accounts h forestalled ∧
    forestalled.tasks[(1 : TaskId)]?.bind failed? = some true ∧
      forestalled.memory?.map (·.entries.size) = some 1 := by
  obtain ⟨h, hr⟩ := reachable_forestalled.recorded
  exact ⟨h, hr, Recorded.accounts _ _ _ _ hr, by decide +kernel, by decide +kernel⟩

end Simulation.Run

end ModelRegistry
