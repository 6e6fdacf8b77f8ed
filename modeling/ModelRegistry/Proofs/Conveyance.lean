import ModelRegistry.Proofs.Lifecycle

namespace ModelRegistry

theorem mem_sentOff {u : Update} {J : List Note} : u ∈ sentOff J ↔ ∃ next, .queued u next ∈ J := by
  induction J with
  | nil => simp [sentOff]
  | cons n J ih =>
    cases n with
    | queued v next =>
      rw [sentOff, List.mem_append, ih, List.mem_singleton]
      constructor
      · rintro (⟨next', h⟩ | rfl)
        · exact ⟨next', List.mem_cons_of_mem _ h⟩
        · exact ⟨next, List.mem_cons_self ..⟩
      · rintro ⟨next', h⟩
        rcases List.mem_cons.mp h with h | h
        · cases h
          exact .inr rfl
        · exact .inl ⟨next', h⟩
    | _ => simp [sentOff, ih]

def Closed (J : List Note) : Prop :=
  ∀ later e next earlier, J = later ++ .queued (.gone e) next :: earlier → later = []

theorem Closed.not_mem_sentOff {n : Note} {J : List Note} (h : Closed (n :: J)) (e : Error) :
    .gone e ∉ sentOff J := by
  intro hmem
  obtain ⟨next, hnext⟩ := mem_sentOff.mp hmem
  obtain ⟨later, earlier, hJ⟩ := List.append_of_mem hnext
  have hcons := h (n :: later) e next earlier (by rw [hJ, List.cons_append])
  cases hcons

theorem Closed.last {J : List Note} (h : Closed J) {before after : List Update} {e : Error}
    (he : sentOff J = before ++ .gone e :: after) : after = [] := by
  rcases List.eq_nil_or_concat after with rfl | ⟨rest, v, rfl⟩
  · rfl
  cases J with
  | nil => simp [sentOff] at he
  | cons n J =>
    apply absurd _ (h.not_mem_sentOff e)
    cases n with
    | queued u next =>
      have hsplit : sentOff J ++ [u] = (before ++ .gone e :: rest) ++ [v] := by
        simpa [sentOff] using he
      rw [(List.append_inj' hsplit rfl).1]
      simp
    | _ =>
      rw [show sentOff J = _ from he]
      simp

namespace Subscription

theorem Moved.eq_of_stopped {s s' : Subscription} {n : Option Note} (h : s.Moved n s')
    (hs : s.producer.stage = .stopped) : n = none ∧ s' = s := by
  cases h with
  | stay => exact ⟨rfl, rfl⟩
  | _ => simp_all

theorem Moved.stopped_of_gone {s s' : Subscription} {e : Error} {next : Cursor}
    (h : s.Moved (some (.queued (.gone e) next)) s') : s'.producer.stage = .stopped := by
  cases h with
  | miss _ _ _ _ hmiss => exact hmiss.elim
  | queue hst hl => simp [send, hl]

def Closes (s : Subscription) (J : List Note) : Prop :=
  Closed J ∧ ((∃ e next, .queued (.gone e) next ∈ J) → s.producer.stage = .stopped)

theorem closes_start (retry : RetrySettings) (model : ModelId) : (start retry model).Closes [] := by
  refine ⟨?_, ?_⟩
  · intro later e next earlier he
    cases later <;> cases he
  · rintro ⟨e, next, h⟩
    cases h

theorem Closes.produce {s s' : Subscription} {J : List Note} {n : Option Note} (h : s.Closes J)
    (hm : s.Moved n s') : s'.Closes (n.toList ++ J) := by
  by_cases hgone : ∃ e next, Note.queued (.gone e) next ∈ J
  · obtain ⟨rfl, rfl⟩ := hm.eq_of_stopped (h.2 hgone)
    exact h
  · cases n with
    | none => exact ⟨h.1, fun hg => absurd hg hgone⟩
    | some n =>
      refine ⟨?_, ?_⟩
      · intro later e next earlier he
        cases later with
        | nil => rfl
        | cons m later =>
          have hJ : J = later ++ .queued (.gone e) next :: earlier := (List.cons.inj he).2
          exact absurd ⟨e, next, by rw [hJ]; simp⟩ hgone
      · rintro ⟨e, next, hg⟩
        rcases List.mem_cons.mp hg with rfl | hg
        · exact hm.stopped_of_gone
        · exact absurd ⟨e, next, hg⟩ hgone

end Subscription

theorem Watch.Reachable.closes {answers : Cursor → Response → Prop} {w : Watch}
    (h : Watch.Reachable answers w) : w.subscription.Closes w.journal :=
  h.invariant (P := fun s J => s.Closes J) Subscription.closes_start
    (fun _ _ _ _ hm _ hs _ => hs.produce hm)
    (fun _ _ _ _ hc hs => ⟨hs.1, by rw [(Subscription.consume_producer hc).1]; exact hs.2⟩)

namespace Crew

/-- How the batches of a watch come to its replica. -/
structure Conveys (w : Crew) (n : Nat) (s : Subscription) : Prop where
  complete : w.applied n ++ s.queue.filterMap Update.batch? ++ s.producer.stage.held? =
    fetched (w.session.journals n)
  made : s.replica = (w.applied n).foldl Replica.apply (.new s.replica.model)
  still : ∀ now draws k signal (s' : Subscription),
    (w.produced now draws k signal).client.subscriptions[n]? = some s' → s'.replica = s.replica
  last : ∀ before e after, w.takenBy n ++ s.queue = before ++ .gone e :: after → after = []
  closed : Closed (w.session.journals n)
  heard : ∀ e, .gone e ∈ w.takenBy n →
    w.applied n = fetched (w.session.journals n) ∧ s.consume = none
  sends : ∀ update next, s.producer.stage = .sending update next →
    ∀ retry, (s.send retry update next).queue = s.queue ++ [update]

theorem Reachable.watch {w : Crew} (h : Reachable w) {n : Nat} {s : Subscription}
    (hs : w.client.subscriptions[n]? = some s) :
    Watch.Reachable (fun _ _ => True) ⟨w.client.connection, s, w.session.journals n⟩ :=
  h.session.watch n s hs

theorem Reachable.complete {w : Crew} (h : Reachable w) {n : Nat} {s : Subscription}
    (hs : w.client.subscriptions[n]? = some s) :
    w.applied n ++ s.queue.filterMap Update.batch? ++ s.producer.stage.held? =
      fetched (w.session.journals n) := by
  have hall := (h.watch hs).delivers.complete
  rw [hall, ← (h.fed n s hs).sent, List.filterMap_append]
  rfl

theorem replica_produced {w : Crew} {n k : Nat} {s s' : Subscription} {now : Nat} {draws : Draws}
    {signal : Call.Signal Response} (hs : w.client.subscriptions[n]? = some s)
    (hs' : (w.produced now draws k signal).client.subscriptions[n]? = some s') :
    s'.replica = s.replica := by
  change (w.client.produce now draws k signal).subscriptions[n]? = some s' at hs'
  cases hk : w.client.subscriptions[k]? with
  | none =>
    have hsame : w.client.produce now draws k signal = w.client := by simp [Client.produce, hk]
    rw [hsame, hs] at hs'
    rw [Option.some.inj hs']
  | some t =>
    rw [Client.subscriptions_produce hk] at hs'
    rcases Client.getElem?_replaced hk hs' with ⟨rfl, rfl⟩ | ⟨-, hs'⟩
    · obtain rfl : s = t := Option.some.inj (hs.symm.trans hk)
      exact (s.produce_frame _ _ _).1
    · rw [Option.some.inj (hs.symm.trans hs')]

theorem Reachable.heard {w : Crew} (h : Reachable w) {n : Nat} {s : Subscription}
    (hs : w.client.subscriptions[n]? = some s) {e : Error} (he : .gone e ∈ w.takenBy n) :
    w.applied n = fetched (w.session.journals n) ∧ s.consume = none := by
  have hfed := h.fed n s hs
  have hends := (h.watch hs).ends
  have hl : s.listening = false := by
    have hpos : 0 < (w.takenBy n).countP Update.isGone :=
      List.countP_pos_iff.mpr ⟨_, he, rfl⟩
    rw [hfed.heard] at hpos
    cases hl : s.listening with
    | false => rfl
    | true => simp [hl] at hpos
  have hstop : s.producer.stage = .stopped := hends.told (.inl hl)
  have hqueue : s.queue = [] := by
    obtain ⟨before, after, htaken⟩ := List.append_of_mem he
    have hsplit : sentOff (w.session.journals n) = before ++ .gone e :: (after ++ s.queue) := by
      rw [← hfed.sent, htaken, List.append_assoc, List.cons_append]
    exact (List.append_eq_nil_iff.mp ((h.watch hs).closes.1.last hsplit)).2
  refine ⟨?_, ?_⟩
  · have hall := h.complete hs
    rw [hqueue, hstop] at hall
    simpa [Producer.Stage.held?] using hall
  · simp [Subscription.consume, hl]

/-- Each batch that the registry gives is applied once and in order, whatever it answers and however
the producer and the consumer take turns. -/
theorem Reachable.conveys {w : Crew} (h : Reachable w) {n : Nat} {s : Subscription}
    (hs : w.client.subscriptions[n]? = some s) : w.Conveys n s where
  complete := h.complete hs
  made := (h.fed n s hs).made
  still := fun _ _ _ _ _ hs' => replica_produced hs hs'
  last := by
    intro before e after he
    rw [(h.fed n s hs).sent] at he
    exact (h.watch hs).closes.1.last he
  closed := (h.watch hs).closes.1
  heard := fun _ he => h.heard hs he
  sends := by
    intro update next hst retry
    have hl : s.listening = true := by
      cases hl : s.listening with
      | true => rfl
      | false =>
        have hstop := (h.watch hs).ends.told (.inl hl)
        simp [hst] at hstop
    simp [Subscription.send, hl]

def narrow : Crew :=
  ⟨⟨.new ⟨"c"⟩ ⟨50, 20, 10, 1⟩ .default, fun _ => []⟩, [], []⟩

def crowded : Crew :=
  let w := (narrow.lookedUp (narrow.client.subscribe ⟨"m"⟩)).drive 0
    [.proceed, .connect (.resolved (.ok "a")), .connect (.dialed (.ok 1)),
      .answered (.ok ⟨"i", .full ["a"] 1⟩), .proceed]
  (w.drink 0 (.batch (.full ["a"] 1))).drive 0
    [.proceed, .answered (.error (.aborted "")), .proceed, .proceed, .proceed,
      .answered (.ok ⟨"i", .full ["b"] 2⟩), .proceed,
      .proceed, .answered (.ok ⟨"j", .full ["c"] 9⟩), .proceed]

theorem reachable_crowded : Reachable crowded := by
  have hnarrow : Reachable narrow := .start _ _ _
  have hfirst : Reachable ((narrow.lookedUp (narrow.client.subscribe ⟨"m"⟩)).drive 0
      [.proceed, .connect (.resolved (.ok "a")), .connect (.dialed (.ok 1)),
        .answered (.ok ⟨"i", .full ["a"] 1⟩), .proceed]) := by
    refine (hnarrow.subscribe ?_).drive ?_ (by simp)
    · simp [narrow, client, Client.subscription?, Client.new]
    · exact List.mem_cons_self ..
  have hdrunk := hfirst.consume (List.mem_cons_of_mem _ (List.mem_cons_self ..)) rfl rfl rfl
  exact hdrunk.drive (List.mem_cons_self ..) (by simp)

theorem conveys_crowded : ∃ s : Subscription, Reachable crowded ∧
    crowded.client.subscriptions[0]? = some s ∧ crowded.applied 0 = [.full ["a"] 1] ∧
    s.queue = [.batch (.full ["b"] 2)] ∧ s.producer.stage.held? = [.full ["c"] 9] ∧
    crowded.Conveys 0 s :=
  ⟨_, reachable_crowded, rfl, rfl, rfl, rfl, reachable_crowded.conveys rfl⟩

end Crew

end ModelRegistry
