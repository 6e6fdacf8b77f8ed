import ModelRegistry.Proofs.Crew
import ModelRegistry.Proofs.Fleet
import ModelRegistry.Proofs.Moves
import ModelRegistry.Proofs.Sharing

/-!
The tasks of a run, seen from the abstractions that are made of them: they do to the clients what
the actors of a fleet do, and a call closes a link just where its history says so.
-/

namespace ModelRegistry

namespace Simulation.Run

variable {s : Run} {id : TaskId} {t : Task} {cluster : ClusterId} {a : Affairs}

theorem cache_finish (s : Run) (id : TaskId) (r : Result) : (s.finish id r).cache = s.cache :=
  (wakes_wakeAll _ _).cache

theorem cache_goOn (s : Run) (id : TaskId) (w : Work) (heard : Heard) :
    (s.goOn id w heard).cache = (s.hear id w heard).cache := rfl

theorem tasks_goOn (s : Run) (id : TaskId) (w : Work) (heard : Heard) :
    (s.goOn id w heard).tasks = (s.hear id w heard).tasks := rfl

def HasPut (s : Run) (w : Work) (question : Option Nat) : Prop :=
  ∀ q limits, s.wait w = .reply q limits → ∃ j, question = some j

inductive Consults (now : Nat) (id : TaskId) (b : Backend) : Backend → Prop
  | refl : Consults now id b b
  | ask {b' : Backend} (q : Query) : Consults now id b b' → Consults now id b (b'.ask now id q).1
  | poll {b' : Backend} (flight : Flight) : Consults now id b b' →
      Consults now id b (b'.poll now id flight).1
  | drop {b' : Backend} : Consults now id b b' → Consults now id b (b'.drop id)

/-- The task has gone on from `s₁`, having heard this. Any surroundings from which the same reply
has come, if any, let an actor hear it too, and a link is closed for both or for neither. -/
structure Hears (s : Run) (id : TaskId) (w : Work) (reply : Option Reply) (s₁ : Run)
    (heard : Heard) : Prop where
  wakes : Wakes s s₁
  moved : (s.move id).1 = s₁.goOn id w heard
  limited : ∀ cause, heard = .limit cause →
    ∃ q limits due, s.wait w = .reply q limits ∧ (cause, due) ∈ limits
  closes : (∃ link, s.wait w = .close link ∧ s₁ = s.close link) ∨
    (∀ link, s.wait w ≠ .close link) ∧ Consults s.now id s.backend s₁.backend
  turn : ∀ (around : Surroundings) (a : Affairs) (question : Option Nat),
    (∀ j, around.reply a.deeds s.now j = reply) → s.HasPut w question →
    ∃ deeds, around.turn s.now a question (s.wait w) = .hears deeds heard ∧
      ∀ link, .closed link ∈ deeds ↔ s.wait w = .close link

theorem consults_put (s : Run) (id : TaskId) (flight : Option Flight) (q : Query) :
    Consults s.now id s.backend (s.put id flight q).1.backend := by
  unfold put
  split
  · exact .refl
  · simp only [backend_withBackend]
    exact .ask q .refl

theorem wakes_put (s : Run) (id : TaskId) (flight : Option Flight) (q : Query) :
    Wakes s (s.put id flight q).1 := by
  unfold put
  split
  · exact .refl s
  · exact wakes_withBackend s _

theorem hears_of_await {q : Query} {limits : List (Cause × Nat)} (ht : s.tasks[id]? = some t)
    (hwait : s.wait t.work = .reply q limits) (hgoes : (s.await id t q limits).2) :
    ∃ reply s₁ heard, s.Hears id t.work reply s₁ heard := by
  have hmove : s.move id = s.await id t q limits := by simp [move, ht, hwait]
  have hput := wakes_put s id t.flight q
  have hasked := consults_put s id t.flight q
  unfold await at hgoes hmove
  generalize s.put id t.flight q = asked at hput hasked hgoes hmove
  obtain ⟨s₁, flight⟩ := asked
  simp only at hput hasked hgoes hmove
  have hconsults := hasked.poll flight
  rw [← hput.now] at hconsults
  generalize s₁.backend.poll s₁.now id flight = polled at hconsults hgoes hmove
  obtain ⟨b, reply⟩ := polled
  rw [hput.now, ← backend_withBackend s₁ b] at hconsults
  have hpolled := hput.trans (wakes_withBackend s₁ b)
  cases reply with
  | some reply =>
    refine ⟨some reply, s₁.withBackend b, .reply reply, hpolled, ?_, ?_, ?_, ?_⟩
    · rw [hmove]
    · rintro cause ⟨⟩
    · exact .inr ⟨by simp [hwait], hconsults⟩
    · intro around a question hreply hasked
      obtain ⟨j, rfl⟩ := hasked q limits hwait
      simp [Surroundings.turn, hwait, hreply]
  | none =>
    simp only at hgoes hmove
    split at hgoes
    next cause due hfind =>
      rw [hfind] at hmove
      refine ⟨none, { s₁.withBackend b with backend := (s₁.withBackend b).backend.drop id },
        .limit cause, hpolled.trans (wakes_backend _ _), ?_, ?_, ?_, ?_⟩
      · rw [hmove]
      · rintro _ ⟨⟩
        exact ⟨q, limits, due, hwait, List.mem_of_find?_eq_some hfind⟩
      · exact .inr ⟨by simp [hwait], hconsults.drop⟩
      · intro around a question hreply hasked
        obtain ⟨j, rfl⟩ := hasked q limits hwait
        rw [hpolled.now] at hfind
        simp [Surroundings.turn, hwait, hreply, hfind]
    next => cases hgoes

theorem waits_of_move (ht : s.tasks[id]? = some t) (hgoes : (s.move id).2) :
    s.wait t.work ≠ .idle ∧ s.wait t.work ≠ .ended := by
  constructor
  · intro hwait
    simp [move, ht, hwait] at hgoes
  · intro hwait
    simp [move, ht, hwait] at hgoes

theorem hears_of_move (ht : s.tasks[id]? = some t) (hgoes : (s.move id).2) :
    ∃ reply s₁ heard, s.Hears id t.work reply s₁ heard := by
  cases hwait : s.wait t.work with
  | nothing =>
    refine ⟨none, s, .proceed, .refl s, by simp [move, ht, hwait], by rintro _ ⟨⟩, ?_, ?_⟩
    · exact .inr ⟨by simp [hwait], .refl⟩
    · intro around a question _ _
      simp [Surroundings.turn, hwait]
  | close link =>
    refine ⟨none, s.close link, .proceed, wakes_withBackend s _, by simp [move, ht, hwait],
      by rintro _ ⟨⟩, ?_, ?_⟩
    · exact .inl ⟨link, hwait, rfl⟩
    · intro around a question _ _
      simp [Surroundings.turn, hwait, eq_comm]
  | reply q limits =>
    have hmove : s.move id = s.await id t q limits := by simp [move, ht, hwait]
    exact hears_of_await ht hwait (hmove ▸ hgoes)
  | clock due =>
    have hdue : due ≤ s.now := by
      by_contra hlate
      simp [move, ht, hwait, hlate] at hgoes
    refine ⟨none, s, .proceed, .refl s, by simp [move, ht, hwait, hdue], by rintro _ ⟨⟩, ?_, ?_⟩
    · exact .inr ⟨by simp [hwait], .refl⟩
    · intro around a question _ _
      simp [Surroundings.turn, hwait, hdue]
  | idle => simp [move, ht, hwait] at hgoes
  | ended => simp [move, ht, hwait] at hgoes

inductive Demands : Step → ClusterId → Demand → Prop
  | openClient (cluster : ClusterId) : Demands (.openClient cluster) cluster .openClient
  | resolve (cluster : ClusterId) (model : ModelId) (want : Nat) (draw : Draws) :
      Demands (.resolve cluster model want) cluster (.resolve true model want draw)
  | request (cluster : ClusterId) (q : Request) : Demands (.request cluster q) cluster (.request q)
  | poison (cluster : ClusterId) : Demands (.poison cluster) cluster .poison

theorem cache_spawnWatch (s : Run) (cluster : ClusterId) (n : Nat) :
    (s.spawnWatch cluster n).cache = s.cache := (spawnWatch_eq s cluster n).1

theorem resolve_eq {model : ModelId} {c : Client} {r : Replica}
    (h : (s.cache.getOrCreate cluster).2.lookup true model = .ok (c, r)) (id : TaskId)
    (want : Nat) :
    ∃ result, s.resolve id cluster model want =
      (if (s.client cluster).2.started < c.started then
          ((s.client cluster).1.putClient c).spawnWatch cluster
            (s.client cluster).2.subscriptions.size
        else (s.client cluster).1.putClient c).finish id result := by
  have hclient : (s.client cluster).2.lookup true model = .ok (c, r) := h
  unfold resolve
  simp only [hclient]
  exact ⟨_, rfl⟩

theorem cache_begin {step : Step} {d : Demand} (h : Demands step cluster d) (s : Run) (id : TaskId)
    (a : Affairs) :
    (s.begin id step).cache = (Surroundings.perform cluster s.now s.cache a d).1 := by
  cases h with
  | openClient => simp [begin, openClient, cache_finish, client, Surroundings.perform]
  | resolve _ model want draw =>
    simp only [begin, Surroundings.perform, Cache.resolveAddresses, Client.resolveAddresses]
    cases hl : (s.cache.getOrCreate cluster).2.lookup true model with
    | error e =>
      have hclient : (s.client cluster).2.lookup true model = .error e := hl
      unfold resolve
      simp only [hclient]
      exact cache_finish _ _ _
    | ok found =>
      obtain ⟨result, heq⟩ := resolve_eq hl id want
      rw [heq, cache_finish]
      split
      · exact cache_spawnWatch _ _ _
      · rfl
  | request q => rfl
  | poison =>
    simp only [begin, poison, client, Surroundings.perform]
    generalize s.cache.getOrCreate cluster = opened
    obtain ⟨cache, c⟩ := opened
    simp only [cache_finish]
    split
    · exact (wakes_withBackend _ _).cache
    · rfl

/-- The actor that does the work of a task. -/
inductive Plays (s : Run) (a : Affairs) (cluster : ClusterId) : Work → Actor → Prop
  | owner {step : Step} {d : Demand} {time : Nat} {demands : List (Nat × Demand)} :
      Demands step cluster d → a.demands = (time, d) :: demands → time ≤ s.now →
      Plays s a cluster (.step step) .owner
  | errand {k : Nat} {q : Request} {call : Call Answer} {question : Option Nat} :
      a.errands[k]? = some (some ⟨q, call, question⟩) →
      s.HasPut (.request cluster q call) question →
      Plays s a cluster (.request cluster q call) (.errand k)
  | producer {n : Nat} {consumer : TaskId} :
      s.HasPut (.produce cluster n consumer) a.questions[n]? →
      Plays s a cluster (.produce cluster n consumer) (.producer n)
  | consumer {n : Nat} {producer : TaskId} :
      Plays s a cluster (.consume cluster n producer) (.consumer n)

inductive Agrees (now : Nat) (s : Run) (id : TaskId) (cluster : ClusterId) (q : Request)
    (a : Affairs) (k : Nat) : Prop
  | pending (call : Call Answer) : s.tasks[id]? = some ⟨.request cluster q call, none⟩ →
      a.errands[k]? = some (some ⟨q, call, none⟩) → Agrees now s id cluster q a k
  | answered (r : Except Error Answer) : s.tasks[id]? = some ⟨.ended (.answered r) now, none⟩ →
      a.errands[k]? = some none → a.outcomes.getLast? = some (now, .answered k r) →
      Agrees now s id cluster q a k

theorem errand_of_move {q : Request} {call : Call Answer} {k : Nat} {question : Option Nat}
    {around : Surroundings} {reply : Option Reply} {s₁ : Run} {heard : Heard}
    (h : s.Hears id (.request cluster q call) reply s₁ heard)
    (hdraws : around.draws = s.draws cluster) (hreply : ∀ j, around.reply a.deeds s.now j = reply)
    (hk : a.errands[k]? = some (some ⟨q, call, question⟩))
    (hput : s.HasPut (.request cluster q call) question) :
    ∃ a', around.act cluster s.now s.cache a (.errand k) = some ((s.move id).1.cache, a') ∧
      Agrees s.now (s.move id).1 id cluster q a' k := by
  obtain ⟨deeds, hturn, -⟩ := h.turn around a question hreply hput
  have hlt := (List.getElem?_eq_some_iff.1 hk).1
  have hcalled : (s₁.cache.client cluster).call s₁.now (s₁.draws cluster) call
      (heard.signal answer?) = (s.cache.client cluster).call s.now around.draws call
        (heard.signal answer?) := by
    rw [h.wakes.now, h.wakes.cache, h.wakes.draws, hdraws]
  simp only [Surroundings.act, hk]
  unfold Surroundings.errand
  rw [show around.turn s.now a question (Wait.ofCall cluster (fun link => .request link q) call) =
    .hears deeds heard from hturn]
  have hmoved : (s.move id).1 = s₁.goOn id (.request cluster q call) heard := h.moved
  generalize hmove : (s.move id).1 = s₂ at hmoved ⊢
  simp only [goOn, hear, hearRequest, hcalled] at hmoved
  dsimp only
  generalize (s.cache.client cluster).call s.now around.draws call (heard.signal answer?) = called
    at hmoved ⊢
  obtain ⟨c, call'⟩ := called
  simp only at hmoved ⊢
  cases hstage : call'.stage with
  | finished result =>
    simp only [hstage] at hmoved ⊢
    have hcache : s₂.cache = s.cache.put c := by
      rw [hmoved, ← h.wakes.cache]
      exact cache_finish _ _ _
    refine ⟨_, by rw [hcache], .answered (result.bind q.conclude) ?_ ?_ ?_⟩
    · rw [hmoved, ← h.wakes.now]
      exact (tasks_finish _ _ _ _).trans (if_pos rfl)
    · exact List.getElem?_set_self hlt
    · simp [Affairs.tell, Affairs.note]
  | _ =>
    simp only [hstage] at hmoved ⊢
    have hcache : s₂.cache = s.cache.put c := by
      rw [hmoved, ← h.wakes.cache]
      rfl
    refine ⟨_, by rw [hcache], .pending call' ?_ ?_⟩
    · rw [hmoved]
      exact (tasks_setWork _ _ _ _).trans (if_pos rfl)
    · exact List.getElem?_set_self hlt

theorem cache_hearProduce (s : Run) (id : TaskId) (cluster : ClusterId) (n : Nat)
    (consumer : TaskId) (heard : Heard) : (s.hearProduce id cluster n consumer heard).cache =
      s.cache.put ((s.cache.client cluster).produce s.now (s.draws cluster) n
        (heard.signal response?)) := by
  unfold hearProduce
  simp only
  split
  · exact (wakes_wake _ _).cache
  · rfl

theorem tasks_hearProduce (s : Run) (id : TaskId) (cluster : ClusterId) (n : Nat)
    (consumer : TaskId) (heard : Heard) (j : TaskId) :
    (s.hearProduce id cluster n consumer heard).tasks[j]? =
      if id = j then some ⟨.produce cluster n consumer, none⟩ else s.tasks[j]? := by
  unfold hearProduce
  simp only
  split
  · rw [(wakes_wake _ _).tasks]
    exact tasks_setWork _ _ _ _
  · exact tasks_setWork _ _ _ _

theorem cache_hearConsume {n : Nat} {c : Client} (h : (s.cache.client cluster).consume n = some c)
    (producer : TaskId) : (s.hearConsume cluster n producer).cache = s.cache.put c := by
  unfold hearConsume
  simp only [h]
  split
  · exact (wakes_wake _ _).cache
  · rfl

theorem tasks_hearConsume (s : Run) (cluster : ClusterId) (n : Nat) (producer : TaskId) :
    (s.hearConsume cluster n producer).tasks = s.tasks := by
  unfold hearConsume
  split
  · split
    · exact (wakes_wake _ _).tasks
    · rfl
  · rfl

theorem consume_of_wait {n : Nat} {producer : TaskId}
    (hwait : s.wait (.consume cluster n producer) ≠ .idle)
    (hended : s.wait (.consume cluster n producer) ≠ .ended) :
    ∃ c, (s.cache.client cluster).consume n = some c := by
  cases hx : (s.cache.client cluster).subscriptions[n]? with
  | none => simp [wait, Work.wait, hx] at hended
  | some x =>
    simp only [wait, Work.wait, hx, Wait.ofConsumer] at hwait hended
    cases hl : x.listening with
    | false => simp [hl] at hended
    | true =>
      cases hq : x.queue with
      | nil => simp [hl, hq] at hwait
      | cons u rest => cases u <;> simp [Client.consume, hx, Subscription.consume, hl, hq]

theorem produce_of_move {n : Nat} {consumer : TaskId} {around : Surroundings}
    {reply : Option Reply} {s₁ : Run} {heard : Heard}
    (h : s.Hears id (.produce cluster n consumer) reply s₁ heard)
    (hwait : s.wait (.produce cluster n consumer) ≠ .ended)
    (hdraws : around.draws = s.draws cluster) (hreply : ∀ j, around.reply a.deeds s.now j = reply)
    (hput : s.HasPut (.produce cluster n consumer) a.questions[n]?) :
    ∃ a', around.act cluster s.now s.cache a (.producer n) = some ((s.move id).1.cache, a') := by
  have hcache : (s.move id).1.cache = s.cache.put ((s.cache.client cluster).produce s.now
      (s.draws cluster) n (heard.signal response?)) := by
    rw [h.moved, cache_goOn, hear, cache_hearProduce, h.wakes.now, h.wakes.cache, h.wakes.draws]
  cases hx : (s.cache.client cluster).subscriptions[n]? with
  | none => simp [wait, Work.wait, hx] at hwait
  | some x =>
    obtain ⟨deeds, hturn, -⟩ := h.turn around a _ hreply hput
    simp only [wait, Work.wait, hx] at hturn
    simp only [Surroundings.act, Surroundings.produce, hx, hturn, hdraws, hcache]
    exact ⟨_, rfl⟩

/-- A move that a task makes is one that the actor can make which does its work, if the surroundings
reply and draw as those of the run do. -/
theorem act_of_move (ht : s.tasks[id]? = some t) (hgoes : (s.move id).2) :
    ∃ reply, ∀ (around : Surroundings) (a : Affairs) (actor : Actor),
      around.draws = s.draws cluster → (∀ j, around.reply a.deeds s.now j = reply) →
      Plays s a cluster t.work actor →
      ∃ a', around.act cluster s.now s.cache a actor = some ((s.move id).1.cache, a') ∧
        ∀ q call k, t.work = .request cluster q call → actor = .errand k →
          Agrees s.now (s.move id).1 id cluster q a' k := by
  obtain ⟨reply, s₁, heard, h⟩ := hears_of_move ht hgoes
  have hwaits := waits_of_move ht hgoes
  obtain ⟨work, flight⟩ := t
  refine ⟨reply, ?_⟩
  intro around a actor hdraws hreply hplays
  cases hplays with
  | @owner step d time demands hdemands ha htime =>
    have hcache := cache_begin hdemands s₁ id { a with demands, performed := a.performed + 1 }
    rw [h.wakes.now, h.wakes.cache] at hcache
    refine ⟨(Surroundings.perform cluster s.now s.cache
      { a with demands, performed := a.performed + 1 } d).2, ?_, ?_⟩
    · rw [h.moved, cache_goOn, hear, hcache]
      simp only [Surroundings.act, ha, htime, if_true]
    · intro q call k hwork
      cases hwork
  | errand hk hput =>
    obtain ⟨a', hact, hagrees⟩ := errand_of_move h hdraws hreply hk hput
    refine ⟨a', hact, ?_⟩
    intro q call k hwork hactor
    cases hwork
    cases hactor
    exact hagrees
  | producer hput =>
    obtain ⟨a', hact⟩ := produce_of_move h hwaits.2 hdraws hreply hput
    refine ⟨a', hact, ?_⟩
    intro q call k hwork
    cases hwork
  | consumer =>
    obtain ⟨c, hc⟩ := consume_of_wait hwaits.1 hwaits.2
    have hc' : (s₁.cache.client cluster).consume _ = some c := h.wakes.cache ▸ hc
    refine ⟨a, ?_, ?_⟩
    · rw [h.moved, cache_goOn, hear, cache_hearConsume hc', h.wakes.cache]
      simp only [Surroundings.act, hc, Option.map_some]
    · intro q call k hwork
      cases hwork

theorem phase_eq_closing_iff {α : Type} {stage : Call.Stage α} {link : Link} :
    stage.phase = .closing link ↔ ∃ e, stage = .closing link e := by
  cases stage with
  | acquiring a =>
    cases a with
    | finished r => cases r <;> simp [Call.Stage.phase, Acquisition.phase]
    | _ => simp [Call.Stage.phase, Acquisition.phase]
  | _ => simp [Call.Stage.phase]

theorem ofCall_eq_close_iff {α : Type} {operation : Link → Query} {call : Call α} {link : Link} :
    Wait.ofCall cluster operation call = .close link ↔ ∃ e, call.stage = .closing link e := by
  obtain ⟨deadline, backoff, stage⟩ := call
  cases stage with
  | acquiring a => cases a <;> simp [Wait.ofCall, Wait.ofAcquisition]
  | _ => simp [Wait.ofCall]

theorem closed_mem_news_iff {p p' : Phase} {i : Nat} {link : Link} :
    .closed i link ∈ p.news i p' ↔ p = .closing link ∧ p' = .away := by
  cases p <;> cases p' <;> simp [Phase.news, eq_comm]

theorem backend_hearRequest (s : Run) (id : TaskId) (cluster : ClusterId) (q : Request)
    (call : Call Answer) (heard : Heard) :
    (s.hearRequest id cluster q call heard).backend = s.backend := by
  unfold hearRequest
  simp only
  split
  · exact backend_wakeAll _ _
  · rfl

theorem Hears.proceed_of_close {w : Work} {reply : Option Reply} {s₁ : Run} {heard : Heard}
    {link : Link} (h : s.Hears id w reply s₁ heard) (hwait : s.wait w = .close link) :
    heard = .proceed := by
  have hput : s.HasPut w none := by
    intro q limits hreply
    rw [hwait] at hreply
    cases hreply
  let around : Surroundings := ⟨[], fun _ _ _ => reply, fun _ => 0, fun _ => 0⟩
  obtain ⟨deeds, hturn, -⟩ := h.turn around (.start []) none (fun _ => rfl) hput
  rw [hwait] at hturn
  exact (Turn.hears.inj hturn).2.symm

/-- A call closes a link where its history gains the event, and nowhere else. -/
theorem closes_of_move {q : Request} {call : Call Answer} {flight : Option Flight}
    (ht : s.tasks[id]? = some ⟨.request cluster q call, flight⟩) (hgoes : (s.move id).2) :
    ∃ reply s₁ heard, s.Hears id (.request cluster q call) reply s₁ heard ∧
      (s.move id).1.backend = s₁.backend ∧ ∀ (env : Env) (c : Connection) i link,
        .closed i link ∈ call.stage.phase.news i
            (call.step env c (heard.signal answer?)).2.stage.phase ↔
          s.wait (.request cluster q call) = .close link := by
  obtain ⟨reply, s₁, heard, h⟩ := hears_of_move ht hgoes
  refine ⟨reply, s₁, heard, h, ?_, ?_⟩
  · rw [h.moved]
    exact backend_hearRequest _ _ _ _ _ _
  · intro env c i link
    rw [closed_mem_news_iff, phase_eq_closing_iff]
    refine ⟨fun hclosed => ofCall_eq_close_iff.2 hclosed.1, ?_⟩
    intro hwait
    obtain ⟨e, hstage⟩ := ofCall_eq_close_iff.1 hwait
    refine ⟨⟨e, hstage⟩, ?_⟩
    rw [h.proceed_of_close hwait]
    simp only [Heard.signal, Call.step, hstage, Call.phase_retry]

theorem backend_poison (s : Run) (id : TaskId) (cluster : ClusterId) (target : Option Link) :
    (s.poison id cluster (User.unwanted target)).backend =
      match User.afterDiscard
        ((s.cache.client cluster).connection.discard (User.unwanted target)).2 with
      | .closing link => s.backend.close s.now link
      | _ => s.backend := by
  have hclient : (s.client cluster).2 = s.cache.client cluster :=
    (s.cache.getOrCreate_client cluster cluster).2
  unfold poison
  simp only [hclient]
  refine (backend_wakeAll _ _).trans ?_
  cases hdiscarded :
      ((s.cache.client cluster).connection.discard (User.unwanted target)).2 with
  | none => rfl
  | some link => exact backend_withBackend _ _

end Simulation.Run

end ModelRegistry
