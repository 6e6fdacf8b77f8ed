import ModelRegistry.Proofs.Catalog
import ModelRegistry.Proofs.Moves

namespace ModelRegistry

def Collaborators.catalog? : Collaborators → Option Catalog
  | .memory r => some r.catalog
  | .standIn _ => none

namespace Backend

theorem catalog_ask (b : Backend) (now caller : Nat) {q : Query}
    (h : ∀ link request, q ≠ .request link request) :
    (b.ask now caller q).1.collaborators.catalog? = b.collaborators.catalog? := by
  unfold ask
  split
  · rfl
  · cases hb : b.collaborators with
    | standIn t => rfl
    | memory r => exact congrArg some (r.catalog_ask now caller h)

theorem catalog_poll (b : Backend) (now caller : Nat) (f : Flight) :
    (b.poll now caller f).1.collaborators.catalog? = b.collaborators.catalog? := by
  unfold poll
  cases hb : b.collaborators with
  | standIn t => rfl
  | memory r => exact congrArg some (r.catalog_poll now caller f)

theorem catalog_drop (b : Backend) (caller : Nat) :
    (b.drop caller).collaborators.catalog? = b.collaborators.catalog? := by
  unfold drop
  cases b.collaborators <;> rfl

theorem catalog_close (b : Backend) (now : Nat) (link : Link) :
    (b.close now link).collaborators.catalog? = b.collaborators.catalog? := by
  unfold close
  cases b.collaborators with
  | standIn t => rfl
  | memory r => exact congrArg some (r.catalog_close link)

end Backend

namespace Simulation

def Result.isAnswer : Result → Bool
  | .answered _ => true
  | _ => false

def Work.isCall : Work → Bool
  | .request .. => true
  | .ended result _ => result.isAnswer
  | _ => false

def Step.isMute : Step → Bool
  | .request .. | .ask .. | .command _ | .batch _ => false
  | _ => true

def Work.isMute : Work → Bool
  | .step begun => begun.isMute
  | .request .. | .ended .. => false
  | _ => true

theorem Work.isCall_of_isMute {w : Work} (h : w.isMute) : w.isCall = false := by
  cases w with
  | request | ended => cases h
  | _ => rfl

namespace Run

def catalog? (s : Run) : Option Catalog := s.backend.collaborators.catalog?

/-- From `s` to `s'` the table has not changed and no call has begun, gone on or returned. -/
structure Spares (s s' : Run) : Prop where
  catalog : s'.catalog? = s.catalog?
  calls : ∀ (id : TaskId) (t : Task), s'.tasks[id]? = some t → t.work.isCall →
    s.tasks[id]? = some t

theorem Spares.refl (s : Run) : Spares s s := ⟨rfl, fun _ _ h _ => h⟩

theorem Spares.trans {s t u : Run} (h : Spares s t) (h' : Spares t u) : Spares s u :=
  ⟨h'.catalog.trans h.catalog, fun id w hw hc => h.calls id w (h'.calls id w hw hc) hc⟩

theorem spares_of_tasks {s s' : Run} (hc : s'.catalog? = s.catalog?) (ht : s'.tasks = s.tasks) :
    Spares s s' :=
  ⟨hc, fun _ _ hw _ => ht ▸ hw⟩

theorem spares_of_wakes {s s' : Run} (h : Wakes s s') (hb : s'.backend = s.backend) :
    Spares s s' :=
  spares_of_tasks (by rw [catalog?, hb, catalog?]) h.tasks

theorem spares_setTask {s s' : Run} (id : TaskId) (hc : s'.catalog? = s.catalog?)
    (ht : ∀ j, j ≠ id → s'.tasks[j]? = s.tasks[j]?)
    (hid : ∀ t : Task, s'.tasks[id]? = some t → t.work.isCall = false) : Spares s s' := by
  refine ⟨hc, fun j t hj hcall => ?_⟩
  by_cases hne : j = id
  · subst hne
    simp [hid t hj] at hcall
  · rwa [← ht j hne]

theorem Spares.books {s t : Run} (h : Spares s t) (names : Std.ExtTreeMap String TaskId)
    (alarms : List Alarm) (opened : List ClusterId) (handles stubs : List Link) :
    Spares s { t with names, alarms, opened, handles, stubs } :=
  ⟨h.catalog, h.calls⟩

theorem Spares.client {s t : Run} (h : Spares s t) (cluster : ClusterId) :
    Spares s (t.client cluster).1 :=
  ⟨h.catalog, h.calls⟩

theorem Spares.putClient {s t : Run} (h : Spares s t) (c : Client) : Spares s (t.putClient c) :=
  ⟨h.catalog, h.calls⟩

theorem Spares.wake {s t : Run} (h : Spares s t) (id : TaskId) : Spares s (t.wake id) :=
  h.trans (spares_of_wakes (wakes_wake t id) (backend_wake t id))

theorem Spares.wakeAll {s t : Run} (h : Spares s t) (ids : List TaskId) :
    Spares s (t.wakeAll ids) :=
  h.trans (spares_of_wakes (wakes_wakeAll t ids) (backend_wakeAll t ids))

theorem Spares.setWork {s t : Run} (h : Spares s t) (id : TaskId) {w : Work}
    (hw : w.isCall = false) : Spares s (t.setWork id w) := by
  have hc : (t.setWork id w).catalog? = t.catalog? := rfl
  refine h.trans (spares_setTask id hc ?_ ?_)
  · intro j hj
    rw [Run.setWork, tasks_setTask, if_neg (Ne.symm hj)]
  · intro t ht
    rw [Run.setWork, tasks_setTask, if_pos rfl] at ht
    obtain rfl := Option.some.inj ht
    exact hw

theorem Spares.finish {s t : Run} (h : Spares s t) (id : TaskId) {result : Result}
    (hr : result.isAnswer = false) : Spares s (t.finish id result) := by
  have hset : Spares s (t.setWork id (.ended result t.now)) := h.setWork id hr
  exact hset.wakeAll _

theorem spares_withBackend {s : Run} {b : Backend}
    (h : b.collaborators.catalog? = s.catalog?) : Spares s (s.withBackend b) :=
  spares_of_tasks (by rwa [catalog?, backend_withBackend]) (tasks_withBackend s b)

theorem spares_withMemory {s : Run} {r r' : MemoryRegistry} (hr : s.memory? = some r)
    (h : r'.catalog = r.catalog) : Spares s (s.withMemory r') := by
  apply spares_withBackend
  unfold memory? at hr
  split at hr
  · rename_i hm
    obtain rfl := Option.some.inj hr
    rw [catalog?, hm]
    exact congrArg some h
  · cases hr

theorem Spares.close {s t : Run} (h : Spares s t) (link : Link) : Spares s (t.close link) :=
  h.trans (spares_withBackend (t.backend.catalog_close t.now link))

theorem Spares.spawn {s t : Run} (h : Spares s t) {w : Work} (hw : w.isCall = false) :
    Spares s (t.spawn w) := by
  have hc : (t.spawn w).catalog? = t.catalog? := by rw [catalog?, backend_spawn, catalog?]
  refine h.trans (spares_setTask t.nextTask hc ?_ ?_)
  · intro j hj
    rw [tasks_spawn, if_neg (Ne.symm hj)]
  · intro t ht
    rw [tasks_spawn, if_pos rfl] at ht
    obtain rfl := Option.some.inj ht
    exact hw

theorem Spares.spawnWatch {s t : Run} (h : Spares s t) (cluster : ClusterId) (n : Nat) :
    Spares s (t.spawnWatch cluster n) :=
  (h.spawn rfl).spawn rfl

theorem isAnswer_known (s : Run) (task : Option TaskId) : (s.known task).isAnswer = false := by
  unfold known
  split <;> rfl

theorem spares_openClient (s : Run) (id : TaskId) (cluster : ClusterId) :
    Spares s (s.openClient id cluster) :=
  (((Spares.refl s).client cluster).books _ _ _ _ _).finish id rfl

theorem spares_resolve (s : Run) (id : TaskId) (cluster : ClusterId) (model : ModelId)
    (want : Nat) : Spares s (s.resolve id cluster model want) := by
  unfold resolve
  simp only
  split
  · exact ((Spares.refl s).client cluster).finish id rfl
  · refine Spares.finish ?_ id rfl
    split
    · exact (((Spares.refl s).client cluster).putClient _).spawnWatch _ _
    · exact ((Spares.refl s).client cluster).putClient _

theorem spares_poison (s : Run) (id : TaskId) (cluster : ClusterId) (unwanted : Link → Bool) :
    Spares s (s.poison id cluster unwanted) := by
  unfold poison
  refine Spares.finish ?_ id rfl
  split
  · exact (((Spares.refl s).client cluster).putClient _).close _
  · exact ((Spares.refl s).client cluster).putClient _

theorem spares_startTask (s : Run) (id : TaskId) (name : String) (step : Step) :
    Spares s (s.startTask id name step) :=
  (((Spares.refl s).books _ _ _ _ _).spawn rfl).finish id rfl

theorem spares_release (s : Run) (w : Work) : Spares s (s.release w) := by
  cases w with
  | request cluster q call => exact ((Spares.refl s).client cluster).putClient _
  | acquire cluster a => exact ((Spares.refl s).client cluster).putClient _
  | trial cluster t => exact ((Spares.refl s).client cluster).putClient _
  | _ => exact .refl s

theorem spares_cancelTask (s : Run) (task : TaskId) : Spares s (s.cancelTask task) := by
  unfold cancelTask
  split
  · exact .refl s
  · exact .refl s
  · rename_i t _ _
    refine (spares_release s t.work).trans (spares_setTask task ?_ ?_ ?_)
    · exact Backend.catalog_drop _ _
    · intro j hj
      exact (Std.ExtTreeMap.getElem?_erase ..).trans (by simp [Ne.symm hj])
    · intro t ht
      simp at ht

theorem spares_cancel (s : Run) (id : TaskId) (name : String) : Spares s (s.cancel id name) := by
  unfold cancel
  refine Spares.finish ?_ id (isAnswer_known _ _)
  cases s.names[name]? with
  | none => exact .refl s
  | some task => exact spares_cancelTask s task

theorem spares_join (s : Run) (id : TaskId) (name : String) : Spares s (s.join id name) := by
  unfold join
  split
  · split
    · exact (Spares.refl s).setWork id rfl
    · exact (Spares.refl s).finish id rfl
  · exact (Spares.refl s).finish id rfl

theorem spares_prepare (s : Run) (id : TaskId) (more : Script) :
    Spares s (s.prepare id more) := by
  unfold prepare
  refine Spares.finish ?_ id rfl
  split
  · rename_i t ht
    apply spares_withBackend
    unfold standIn? at ht
    split at ht
    · rename_i hc
      rw [catalog?, hc]
      rfl
    · cases ht
  · exact .refl s

theorem spares_watches (s : Run) (id : TaskId) (model : ModelId) :
    Spares s (s.watches id model) := by
  unfold watches
  split <;> exact (Spares.refl s).finish id rfl

theorem spares_lookAt (s : Run) (id : TaskId) (cluster : ClusterId) (model : ModelId)
    (size givesUp : Nat) : Spares s (s.lookAt id cluster model size givesUp) := by
  unfold lookAt
  split
  · exact (Spares.refl s).finish id rfl
  · split
    · exact (Spares.refl s).finish id rfl
    · exact (Spares.refl s).setWork id rfl

theorem spares_lookUp (s : Run) (id : TaskId) (cluster : ClusterId) :
    Spares s (s.lookUp id cluster) := by
  unfold lookUp
  split
  · rename_i r hr
    have hs : Spares s (s.withMemory (r.resolve cluster).1) := spares_withMemory hr rfl
    exact hs.finish id rfl
  · exact (Spares.refl s).finish id rfl

theorem spares_hearAcquire (s : Run) (id : TaskId) (cluster : ClusterId) (a : Acquisition)
    (heard : Heard) : Spares s (s.hearAcquire id cluster a heard) := by
  unfold hearAcquire
  simp only
  split
  · exact (((Spares.refl s).putClient _).books _ _ _ _ _).finish id rfl
  · exact ((Spares.refl s).putClient _).finish id rfl
  · exact ((Spares.refl s).putClient _).setWork id rfl

theorem spares_hearTrial (s : Run) (id : TaskId) (cluster : ClusterId) (t : Trial)
    (heard : Heard) : Spares s (s.hearTrial id cluster t heard) := by
  unfold hearTrial
  simp only
  split
  · exact ((Spares.refl s).putClient _).finish id rfl
  · exact ((Spares.refl s).putClient _).setWork id rfl

theorem spares_hearProduce (s : Run) (id : TaskId) (cluster : ClusterId) (n : Nat)
    (consumer : TaskId) (heard : Heard) :
    Spares s (s.hearProduce id cluster n consumer heard) := by
  have hset : ∀ c, Spares s ((s.putClient c).setWork id (.produce cluster n consumer)) :=
    fun c => ((Spares.refl s).putClient c).setWork id rfl
  unfold hearProduce
  simp only
  split
  · exact (hset _).wake consumer
  · exact hset _

theorem spares_hearConsume (s : Run) (cluster : ClusterId) (n : Nat) (producer : TaskId) :
    Spares s (s.hearConsume cluster n producer) := by
  unfold hearConsume
  split
  · simp only
    split
    · exact ((Spares.refl s).putClient _).wake producer
    · exact (Spares.refl s).putClient _
  · exact .refl s

theorem spares_hearDial (s : Run) (id : TaskId) (address : String) (heard : Heard) :
    Spares s (s.hearDial id address heard) := by
  unfold hearDial
  split
  · exact ((Spares.refl s).books _ _ _ _ _).finish id rfl
  · exact (Spares.refl s).finish id rfl
  · exact (Spares.refl s).setWork id rfl

theorem spares_hearWatch (s : Run) (id : TaskId) (heard : Heard) :
    Spares s (s.hearWatch id heard) := by
  unfold hearWatch
  split <;> exact (Spares.refl s).finish id rfl

theorem spares_begin (s : Run) (id : TaskId) {step : Step} (h : step.isMute) :
    Spares s (s.begin id step) := by
  cases step with
  | request | ask | command | batch => cases h
  | openClient cluster => exact spares_openClient s id cluster
  | resolve cluster model want => exact spares_resolve s id cluster model want
  | acquire cluster => exact ((Spares.refl s).client cluster).setWork id rfl
  | poison cluster => exact spares_poison s id cluster _
  | poisonIf cluster handle => exact spares_poison s id cluster _
  | trial cluster allowed => exact ((Spares.refl s).client cluster).setWork id rfl
  | advance time => exact (Spares.refl s).setWork id rfl
  | start name step => exact spares_startTask s id name step
  | peek name => exact (Spares.refl s).finish id (isAnswer_known _ _)
  | join name => exact spares_join s id name
  | cancel name => exact spares_cancel s id name
  | prepare more => exact spares_prepare s id more
  | watches model => exact spares_watches s id model
  | eventually cluster model size =>
    exact ((Spares.refl s).client cluster).trans (spares_lookAt _ id cluster model size _)
  | lookUp cluster => exact spares_lookUp s id cluster
  | dial address => exact (Spares.refl s).setWork id rfl
  | close stub =>
    refine Spares.finish ?_ id rfl
    split
    · exact (Spares.refl s).close _
    · exact .refl s
  | watch stub model cursor timeout =>
    simp only [begin]
    split
    · exact (Spares.refl s).setWork id rfl
    · exact (Spares.refl s).finish id rfl

theorem spares_hear (s : Run) (id : TaskId) {w : Work} (h : w.isMute) (heard : Heard) :
    Spares s (s.hear id w heard) := by
  cases w with
  | step step => exact spares_begin s id h
  | request | ended => cases h
  | acquire cluster a => exact spares_hearAcquire s id cluster a heard
  | trial cluster t => exact spares_hearTrial s id cluster t heard
  | produce cluster n consumer => exact spares_hearProduce s id cluster n consumer heard
  | consume cluster n producer => exact spares_hearConsume s cluster n producer
  | sleep wakes => exact (Spares.refl s).finish id rfl
  | eventually cluster model size givesUp next =>
    exact spares_lookAt s id cluster model size givesUp
  | join target => exact (Spares.refl s).finish id (isAnswer_known _ _)
  | dial address => exact spares_hearDial s id address heard
  | watch link model cursor givesUp => exact spares_hearWatch s id heard

theorem spares_goOn (s : Run) (id : TaskId) {w : Work} (h : w.isMute) (heard : Heard) :
    Spares s (s.goOn id w heard) :=
  (spares_hear s id h heard).books _ _ _ _ _

structure Same (s s' : Run) : Prop where
  catalog : s'.catalog? = s.catalog?
  tasks : s'.tasks = s.tasks

structure Stays (id : TaskId) (w : Work) (s s' : Run) : Prop where
  catalog : s'.catalog? = s.catalog?
  own : ∃ f, s'.tasks[id]? = some ⟨w, f⟩
  others : ∀ j, j ≠ id → s'.tasks[j]? = s.tasks[j]?

theorem same_withBackend {s : Run} {b : Backend} (h : b.collaborators.catalog? = s.catalog?) :
    Same s (s.withBackend b) :=
  ⟨(spares_withBackend h).catalog, tasks_withBackend s b⟩

theorem Same.trans {s t u : Run} (h : Same s t) (h' : Same t u) : Same s u :=
  ⟨h'.catalog.trans h.catalog, h'.tasks.trans h.tasks⟩

theorem same_put (s : Run) (id : TaskId) (flight : Option Flight) {q : Query}
    (hq : ∀ link request, q ≠ .request link request) : Same s (s.put id flight q).1 := by
  unfold put
  split
  · exact ⟨rfl, rfl⟩
  · exact same_withBackend (s.backend.catalog_ask s.now id hq)

theorem await_cases (s : Run) (id : TaskId) (t : Task) {q : Query} (limits : List (Cause × Nat))
    (hq : ∀ link request, q ≠ .request link request) :
    (∃ s₁ heard, Same s s₁ ∧ (s.await id t q limits).1 = s₁.goOn id t.work heard) ∨
      Stays id t.work s (s.await id t q limits).1 := by
  have hput := same_put s id t.flight hq
  unfold await
  generalize s.put id t.flight q = asked at hput ⊢
  obtain ⟨s₁, f⟩ := asked
  have hpoll := s₁.backend.catalog_poll s₁.now id f
  simp only
  generalize s₁.backend.poll s₁.now id f = polled at hpoll ⊢
  obtain ⟨b, _ | reply⟩ := polled
  · have hsame := hput.trans (same_withBackend hpoll)
    simp only
    split
    · refine .inl ⟨(s₁.withBackend b).without id, _, ?_, rfl⟩
      exact hsame.trans ⟨Backend.catalog_drop _ id, rfl⟩
    · refine .inr ⟨hsame.catalog, ⟨some f, ?_⟩, fun j hj => ?_⟩
      · exact (tasks_setTask _ _ _ _).trans (if_pos rfl)
      · refine ((tasks_setTask _ _ _ _).trans (if_neg (Ne.symm hj))).trans ?_
        rw [hsame.tasks]
  · exact .inl ⟨s₁.withBackend b, _, hput.trans (same_withBackend hpoll), rfl⟩

theorem move_cases {s : Run} {id : TaskId} {t : Task} (ht : s.tasks[id]? = some t)
    (hq : ∀ link request limits, s.wait t.work ≠ .reply (.request link request) limits) :
    (∃ s₁ heard, s.wait t.work ≠ .ended ∧ Same s s₁ ∧
        (s.move id).1 = s₁.goOn id t.work heard) ∨
      Stays id t.work s (s.move id).1 := by
  have hstay : Stays id t.work s s := ⟨rfl, ⟨t.flight, ht⟩, fun _ _ => rfl⟩
  unfold move
  simp only [ht]
  cases hwait : s.wait t.work with
  | nothing => exact .inl ⟨s, .proceed, by simp, ⟨rfl, rfl⟩, rfl⟩
  | close link =>
    refine .inl ⟨s.close link, .proceed, by simp, ?_, rfl⟩
    exact same_withBackend (s.backend.catalog_close s.now link)
  | reply q limits =>
    have hother : ∀ link request, q ≠ .request link request := by
      rintro link request rfl
      exact hq link request limits hwait
    refine (await_cases s id t limits hother).imp_left ?_
    rintro ⟨s₁, heard, hsame, he⟩
    exact ⟨s₁, heard, by simp, hsame, he⟩
  | clock due =>
    simp only
    split
    · exact .inl ⟨s, .proceed, by simp, ⟨rfl, rfl⟩, rfl⟩
    · exact .inr ⟨rfl, hstay.own, fun _ _ => rfl⟩
  | idle => exact .inr hstay
  | ended => exact .inr hstay

theorem request_ne_of_isMute {s : Run} {w : Work} (h : w.isMute) (link : Link)
    (request : Request) (limits : List (Cause × Nat)) :
    s.wait w ≠ .reply (.request link request) limits := by
  intro hwait
  obtain ⟨_, _, he⟩ | ⟨_, he⟩ | ⟨_, he⟩ | ⟨_, _, _, _, rfl, -, -⟩ | ⟨_, _, _, he, -⟩ :=
    wait_cases hwait
  all_goals first | cases he | cases h

theorem spares_move {s : Run} {id : TaskId} {t : Task} (ht : s.tasks[id]? = some t)
    (h : t.work.isMute) : Spares s (s.move id).1 := by
  obtain ⟨s₁, heard, -, hsame, he⟩ | hstay := move_cases ht (request_ne_of_isMute h)
  · rw [he]
    exact (spares_of_tasks hsame.catalog hsame.tasks).trans (spares_goOn s₁ id h heard)
  · refine spares_setTask id hstay.catalog hstay.others fun t' ht' => ?_
    obtain ⟨f, hf⟩ := hstay.own
    obtain rfl := Option.some.inj (hf.symm.trans ht')
    exact Work.isCall_of_isMute h

end Run

end Simulation

end ModelRegistry
