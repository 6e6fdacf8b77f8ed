import ModelRegistry.Proofs.Delivery

/-!
A client with the tasks that its lookups start: one producer and one consumer for each subscription,
taking steps in any order. What the consumers take from their queues is kept in a list.
-/

namespace ModelRegistry

namespace Client

theorem size_produce (c : Client) (now : Nat) (draws : Draws) (n : Nat)
    (signal : Call.Signal Response) :
    (c.produce now draws n signal).subscriptions.size = c.subscriptions.size := by
  unfold produce
  split <;> simp

theorem started_produce (c : Client) (now : Nat) (draws : Draws) (n : Nat)
    (signal : Call.Signal Response) : (c.produce now draws n signal).started = c.started := by
  unfold produce
  split <;> rfl

theorem consume_batch {c : Client} {n : Nat} {s s' : Subscription} {b : DiffBatch}
    (hs : c.subscriptions[n]? = some s) (hc : s.consume = some (.batch b, s')) :
    c.consume n = some { c with subscriptions := c.subscriptions.setIfInBounds n s' } := by
  simp [consume, hs, hc]

theorem Tracks.consume_gone {c : Client} (h : c.Tracks) {n : Nat} {s s' : Subscription} {e : Error}
    (hs : c.subscriptions[n]? = some s) (hc : s.consume = some (.gone e, s')) :
    c.tracked[s.replica.model]? = some n ∧
      c.consume n = some { c with
        subscriptions := c.subscriptions.setIfInBounds n s'
        tracked := c.tracked.erase s.replica.model } := by
  have hl : s.listening = true := (Subscription.consume_cases hc).1
  have hown : c.tracked[s.replica.model]? = some n := by
    rcases h.kept n s hs with hown | hf
    · exact hown
    · simp [hl] at hf
  refine ⟨hown, ?_⟩
  have hmodel := (Subscription.consume_producer hc).2
  simp [consume, hs, hc, hmodel, hown]

theorem Tracks.consumed {c c' : Client} (h : c.Tracks) {n : Nat} {s s' : Subscription} {u : Update}
    (hs : c.subscriptions[n]? = some s) (hu : s.consume = some (u, s'))
    (hc : c.consume n = some c') :
    c'.subscriptions = c.subscriptions.setIfInBounds n s' ∧ c'.started = c.started ∧
      (u.isGone = false ∧ s'.listening ∧ c'.tracked = c.tracked ∨
        u.isGone ∧ c.tracked[s.replica.model]? = some n ∧
          c'.tracked = c.tracked.erase s.replica.model) := by
  obtain ⟨hl, ⟨b, rest, rfl, -, rfl⟩ | ⟨e, rest, rfl, -, -⟩⟩ := Subscription.consume_cases hu
  · obtain rfl := Option.some.inj ((consume_batch hs hu).symm.trans hc)
    exact ⟨rfl, rfl, .inl ⟨rfl, hl, rfl⟩⟩
  · obtain ⟨hown, heq⟩ := h.consume_gone hs hu
    obtain rfl := Option.some.inj (heq.symm.trans hc)
    exact ⟨rfl, rfl, .inr ⟨rfl, hown, rfl⟩⟩

theorem Tracks.size_consumed {c c' : Client} (h : c.Tracks) {n : Nat} {s s' : Subscription}
    {u : Update} (hs : c.subscriptions[n]? = some s) (hu : s.consume = some (u, s'))
    (hc : c.consume n = some c') : c'.subscriptions.size = c.subscriptions.size := by
  rw [(h.consumed hs hu hc).1, Array.size_setIfInBounds]

def Attended (c : Client) : Prop :=
  ∀ (m : ModelId) n (s : Subscription), c.tracked[m]? = some n → c.subscriptions[n]? = some s →
    s.listening

theorem Attended.subscribe {c : Client} (h : c.Attended) (model : ModelId) :
    (c.subscribe model).Attended := by
  intro m n s hm hs
  rcases getElem?_subscriptions_subscribe hs with hs | ⟨rfl, rfl⟩
  · have hlt := (Array.getElem?_eq_some_iff.mp hs).1
    have hne : c.subscriptions.size ≠ n := Nat.ne_of_gt hlt
    rw [Client.subscribe, Std.ExtTreeMap.getElem?_insert] at hm
    split at hm
    · exact absurd (Option.some.inj hm) hne
    · exact h m n s hm hs
  · rfl

theorem Attended.produce {c : Client} (h : c.Attended) (now : Nat) (draws : Draws) (n : Nat)
    (signal : Call.Signal Response) : (c.produce now draws n signal).Attended := by
  intro m k t hm ht
  rw [tracked_produce] at hm
  cases hs : c.subscriptions[n]? with
  | none =>
    have hsame : c.produce now draws n signal = c := by simp [Client.produce, hs]
    rw [hsame] at ht
    exact h m k t hm ht
  | some s =>
    rw [subscriptions_produce hs] at ht
    rcases getElem?_replaced hs ht with ⟨rfl, rfl⟩ | ⟨-, ht⟩
    · rw [(s.produce_frame _ _ _).2]
      exact h m k s hm hs
    · exact h m k t hm ht

theorem Attended.consume {c c' : Client} (h : c.Attended) (htracks : c.Tracks) {n : Nat}
    {s s' : Subscription} {u : Update} (hs : c.subscriptions[n]? = some s)
    (hu : s.consume = some (u, s')) (hc : c.consume n = some c') : c'.Attended := by
  obtain ⟨hsub, -, ⟨-, hl, htr⟩ | ⟨-, hown, htr⟩⟩ := htracks.consumed hs hu hc
  all_goals
    intro m k t hm ht
    rw [hsub] at ht
    rw [htr] at hm
  · rcases getElem?_replaced hs ht with ⟨rfl, rfl⟩ | ⟨-, ht⟩
    · exact hl
    · exact h m k t hm ht
  · rw [Std.ExtTreeMap.getElem?_erase] at hm
    split at hm
    · cases hm
    rename_i hne
    rcases getElem?_replaced hs ht with ⟨rfl, rfl⟩ | ⟨-, ht⟩
    · obtain ⟨s₁, hs₁, rfl⟩ := htracks.known m k hm
      obtain rfl : s = s₁ := Option.some.inj (hs.symm.trans hs₁)
      exact absurd Std.ReflCmp.compare_self hne
    · exact h m k t hm ht

end Client

inductive Role
  | producer
  | consumer
  deriving DecidableEq, Repr

/-- A session, the tasks that were started for its subscriptions, and what the consumers have taken
from their queues, in order. -/
structure Crew where
  session : Session
  tasks : List (Role × Nat)
  taken : List (Nat × Update)

namespace Crew

def client (w : Crew) : Client := w.session.client

def lookedUp (w : Crew) (c : Client) : Crew where
  session := { w.session with client := c }
  tasks := if w.client.started < c.started then
      w.tasks ++
        [(.producer, w.client.subscriptions.size), (.consumer, w.client.subscriptions.size)]
    else w.tasks
  taken := w.taken

def produced (w : Crew) (now : Nat) (draws : Draws) (n : Nat) (signal : Call.Signal Response) :
    Crew :=
  { w with session := w.session.produce now draws n signal }

def consumed (w : Crew) (n : Nat) (u : Update) (c : Client) : Crew :=
  { w with session := { w.session with client := c }, taken := w.taken ++ [(n, u)] }

/-- The states of a client whose collaborators answer as they like and whose tasks take steps in any
order; other users of the connection leave it as they like. -/
inductive Reachable : Crew → Prop
  | start (cluster : ClusterId) (registry : RegistrySettings) (retry : RetrySettings) :
      Reachable ⟨⟨.new cluster registry retry, fun _ => []⟩, [], []⟩
  | share {w : Crew} (c : Connection) : Reachable w →
      Reachable { w with session := { w.session with client := { w.client with connection := c } } }
  | lookup {w : Crew} {c : Client} {r : Replica} (runtime : Bool) (model : ModelId) :
      Reachable w → w.client.lookup runtime model = .ok (c, r) → Reachable (w.lookedUp c)
  | produce {w : Crew} {n : Nat} (now : Nat) (draws : Draws) (signal : Call.Signal Response) :
      Reachable w → (.producer, n) ∈ w.tasks → signal ≠ .cutOff →
      Reachable (w.produced now draws n signal)
  | consume {w : Crew} {n : Nat} {s s' : Subscription} {u : Update} {c : Client} :
      Reachable w → (.consumer, n) ∈ w.tasks → w.client.subscriptions[n]? = some s →
      s.consume = some (u, s') → w.client.consume n = some c → Reachable (w.consumed n u c)

theorem Reachable.session {w : Crew} (h : Reachable w) : Session.Reachable w.session := by
  induction h with
  | start cluster registry retry => exact .start cluster registry retry
  | share c _ ih => exact .share c ih
  | lookup runtime model _ hl ih => exact .lookup runtime model ih hl
  | produce now draws signal _ _ hsig ih => exact .produce now draws _ signal ih hsig
  | consume _ _ _ _ hc ih => exact .consume ih hc

theorem tasks_lookedUp_self (w : Crew) : (w.lookedUp w.client).tasks = w.tasks := by
  simp [lookedUp]

theorem tasks_lookedUp_subscribe (w : Crew) (model : ModelId) :
    (w.lookedUp (w.client.subscribe model)).tasks = w.tasks ++
      [(.producer, w.client.subscriptions.size), (.consumer, w.client.subscriptions.size)] := by
  simp [lookedUp, Client.subscribe]

theorem size_lookedUp_subscribe (w : Crew) (model : ModelId) :
    (w.lookedUp (w.client.subscribe model)).client.subscriptions.size =
      w.client.subscriptions.size + 1 :=
  Array.size_push _

theorem Reachable.count_tasks {w : Crew} (h : Reachable w) (role : Role) (n : Nat) :
    w.tasks.count (role, n) = if n < w.client.subscriptions.size then 1 else 0 := by
  induction h with
  | start cluster registry retry => rfl
  | share c _ ih => exact ih
  | @lookup w c r runtime model _ hl ih =>
    rcases Client.lookup_cases hl with rfl | ⟨-, rfl⟩
    · rw [tasks_lookedUp_self]
      exact ih
    · rw [tasks_lookedUp_subscribe, size_lookedUp_subscribe, List.count_append, ih]
      by_cases hn : n = w.client.subscriptions.size
      · subst hn
        cases role <;> simp
      · have hne : w.client.subscriptions.size ≠ n := Ne.symm hn
        simp only [List.count_cons, List.count_nil, Prod.mk.injEq, beq_iff_eq, hne, and_false,
          if_false, Nat.add_zero]
        split <;> split <;> omega
  | @produce w k now draws signal _ _ _ ih =>
    change _ = if n < (w.client.produce now draws k signal).subscriptions.size then 1 else 0
    rw [Client.size_produce]
    exact ih
  | @consume w k s s' u c hw _ hs hu hc ih =>
    change _ = if n < c.subscriptions.size then 1 else 0
    rw [hw.session.tracks.size_consumed hs hu hc]
    exact ih

theorem Reachable.attended {w : Crew} (h : Reachable w) : w.client.Attended := by
  induction h with
  | start cluster registry retry =>
    intro m n s hm
    simp [client, Client.new] at hm
  | share c _ ih => exact ih
  | lookup runtime model _ hl ih =>
    rcases Client.lookup_cases hl with rfl | ⟨-, rfl⟩
    · exact ih
    · exact ih.subscribe model
  | produce now draws signal _ _ _ ih => exact ih.produce now draws _ signal
  | consume hw _ hs hu hc ih => exact ih.consume hw.session.tracks hs hu hc

theorem Reachable.started_eq {w : Crew} (h : Reachable w) :
    w.client.started = w.client.tracked.size + w.taken.countP (·.2.isGone) := by
  induction h with
  | start cluster registry retry => rfl
  | share c _ ih => exact ih
  | @lookup w c r runtime model hw hl ih =>
    rcases Client.lookup_cases hl with rfl | ⟨hnone, rfl⟩
    · exact ih
    · have hnew : w.client.tracked[model]? = none := hw.session.tracks.tracked_eq_none hnone
      have hfree : w.client.tracked.contains model = false := by
        rw [Std.ExtTreeMap.contains_eq_isSome_getElem?, hnew]
        rfl
      change w.client.started + 1 =
        (w.client.tracked.insert model w.client.subscriptions.size).size +
          w.taken.countP (·.2.isGone)
      rw [Std.ExtTreeMap.size_insert, hfree, ih]
      simp only [Bool.false_eq_true, if_false]
      omega
  | @produce w n now draws signal _ _ _ ih =>
    change (w.client.produce now draws n signal).started =
      (w.client.produce now draws n signal).tracked.size + w.taken.countP (·.2.isGone)
    rw [Client.started_produce, Client.tracked_produce]
    exact ih
  | @consume w n s s' u c hw _ hs hu hc ih =>
    have hcount : (w.consumed n u c).taken.countP (·.2.isGone) =
        w.taken.countP (·.2.isGone) + if u.isGone then 1 else 0 := by
      simp [consumed, List.countP_append, List.countP_cons]
    obtain ⟨-, hstarted, hcase⟩ := hw.session.tracks.consumed hs hu hc
    change c.started = c.tracked.size + _
    rw [hcount, hstarted]
    rcases hcase with ⟨hgone, -, htr⟩ | ⟨hgone, hown, htr⟩
    · rw [htr, hgone]
      exact ih
    · have hin : w.client.tracked.contains s.replica.model = true := by
        rw [Std.ExtTreeMap.contains_eq_isSome_getElem?]
        simp [client, hown]
      have hpos : w.client.tracked.size ≠ 0 := by
        intro hzero
        rw [← Std.ExtTreeMap.eq_empty_iff_size_eq_zero] at hzero
        simp [hzero] at hin
      have herase : c.tracked.size = w.client.tracked.size - 1 := by
        rw [htr]
        exact Std.ExtTreeMap.size_erase.trans (if_pos hin)
      have hbefore : w.session.client.started = _ := ih
      rw [hbefore, herase, hgone]
      simp only [if_true]
      omega

def takenBy (w : Crew) (n : Nat) : List Update := (w.taken.filter (·.1 == n)).map (·.2)

def applied (w : Crew) (n : Nat) : List DiffBatch := (w.takenBy n).filterMap Update.batch?

theorem takenBy_consumed (w : Crew) (n k : Nat) (u : Update) (c : Client) :
    (w.consumed n u c).takenBy k = w.takenBy k ++ if n = k then [u] else [] := by
  by_cases hk : n = k <;> simp [takenBy, consumed, hk]

structure Fed (w : Crew) (n : Nat) (s : Subscription) : Prop where
  sent : w.takenBy n ++ s.queue = sentOff (w.session.journals n)
  made : s.replica = (w.applied n).foldl Replica.apply (.new s.replica.model)
  heard : (w.takenBy n).countP Update.isGone = if s.listening then 0 else 1

theorem Fed.of_eq {w w' : Crew} {n : Nat} {s s' : Subscription} (h : w.Fed n s)
    (htaken : w'.takenBy n = w.takenBy n) (hjournal : w'.session.journals n = w.session.journals n)
    (hqueue : s'.queue = s.queue) (hreplica : s'.replica = s.replica)
    (hlistening : s'.listening = s.listening) : w'.Fed n s' := by
  constructor
  · rw [htaken, hqueue, hjournal]
    exact h.sent
  · rw [hreplica, applied, htaken]
    exact h.made
  · rw [htaken, hlistening]
    exact h.heard

theorem Reachable.taken_nil {w : Crew} (h : Reachable w) :
    ∀ n, w.client.subscriptions.size ≤ n → w.takenBy n = [] := by
  induction h with
  | start cluster registry retry => exact fun n _ => rfl
  | share c _ ih => exact ih
  | @lookup w c r runtime model _ hl ih =>
    rcases Client.lookup_cases hl with rfl | ⟨-, rfl⟩
    · exact ih
    · intro n hn
      rw [size_lookedUp_subscribe] at hn
      exact ih n (by omega)
  | @produce w k now draws signal _ _ _ ih =>
    intro n hn
    change (w.client.produce now draws k signal).subscriptions.size ≤ n at hn
    rw [Client.size_produce] at hn
    exact ih n hn
  | @consume w k s s' u c hw _ hs hu hc ih =>
    intro n hn
    change c.subscriptions.size ≤ n at hn
    rw [hw.session.tracks.size_consumed hs hu hc] at hn
    have hlt := (Array.getElem?_eq_some_iff.mp hs).1
    have hne : k ≠ n := by
      intro hk
      subst hk
      exact absurd hlt (Nat.not_lt.mpr hn)
    rw [takenBy_consumed, if_neg hne, List.append_nil]
    exact ih n hn

theorem Reachable.fed {w : Crew} (h : Reachable w) :
    ∀ n s, w.client.subscriptions[n]? = some s → w.Fed n s := by
  induction h with
  | start cluster registry retry =>
    intro n s hs
    simp [client, Client.new] at hs
  | share c _ ih => exact fun n s hs => (ih n s hs).of_eq rfl rfl rfl rfl rfl
  | @lookup w c r runtime model hw hl ih =>
    rcases Client.lookup_cases hl with rfl | ⟨-, rfl⟩
    · exact fun n s hs => (ih n s hs).of_eq rfl rfl rfl rfl rfl
    · intro n s hs
      rcases Client.getElem?_subscriptions_subscribe hs with hs | ⟨rfl, rfl⟩
      · exact (ih n s hs).of_eq rfl rfl rfl rfl rfl
      · have htaken := hw.taken_nil w.client.subscriptions.size (Nat.le_refl _)
        have hjournal : w.session.journals w.client.subscriptions.size = [] :=
          hw.session.journal_eq_nil _ (Nat.le_refl _)
        constructor
        · change w.takenBy _ ++ [] = sentOff (w.session.journals _)
          rw [hjournal, List.append_nil]
          exact htaken
        · change Replica.new model = ((w.takenBy _).filterMap Update.batch?).foldl _ (.new model)
          rw [htaken]
          rfl
        · change (w.takenBy _).countP _ = 0
          rw [htaken]
          rfl
  | @produce w n now draws signal hw _ hsig ih =>
    cases hs : w.client.subscriptions[n]? with
    | none =>
      have hsame : w.session.produce now draws n signal = w.session := Session.produce_none hs
      intro k t ht
      simp only [produced, hsame] at ht ⊢
      exact (ih k t ht).of_eq rfl rfl rfl rfl rfl
    | some s =>
      intro k t ht
      change (w.client.produce now draws n signal).subscriptions[k]? = some t at ht
      rw [Client.subscriptions_produce hs] at ht
      have hs' : w.session.client.subscriptions[n]? = some s := hs
      rcases Client.getElem?_replaced hs ht with ⟨rfl, rfl⟩ | ⟨hk, ht⟩
      · have hmoved := Subscription.produce_moved (w.client.env now draws) w.client.connection
          (hw.session.watch k s hs).proper hsig
        have hframe := s.produce_frame (w.client.env now draws) w.client.connection signal
        constructor
        · have hjournal : (w.produced now draws k signal).session.journals k =
              (s.note (w.client.env now draws) w.client.connection signal).toList ++
                w.session.journals k := by
            simp [produced, Session.produce, hs', client]
          change w.takenBy k ++ _ = _
          rw [hjournal, sentOff_append, hmoved.queue_eq, ← List.append_assoc, (ih k s hs).sent]
        · rw [hframe.1]
          exact (ih k s hs).made
        · rw [hframe.2]
          exact (ih k s hs).heard
      · refine (ih k t ht).of_eq rfl ?_ rfl rfl rfl
        simp [produced, Session.produce, hs', hk]
  | @consume w n s s' u c hw _ hs hu hc ih =>
    have hsub := (hw.session.tracks.consumed hs hu hc).1
    intro k t ht
    change c.subscriptions[k]? = some t at ht
    rw [hsub] at ht
    rcases Client.getElem?_replaced hs ht with ⟨rfl, rfl⟩ | ⟨hk, ht⟩
    · have hfed := ih k s hs
      have htaken : (w.consumed k u c).takenBy k = w.takenBy k ++ [u] := by
        rw [takenBy_consumed, if_pos rfl]
      obtain ⟨hl, hcase⟩ := Subscription.consume_cases hu
      constructor
      · change _ = sentOff (w.session.journals k)
        rw [htaken, ← hfed.sent]
        rcases hcase with ⟨b, rest, rfl, hq, rfl⟩ | ⟨e, rest, rfl, hq, rfl⟩ <;> simp [hq]
      · rw [applied, htaken, List.filterMap_append, List.foldl_append]
        rcases hcase with ⟨b, rest, rfl, hq, rfl⟩ | ⟨e, rest, rfl, hq, rfl⟩
        · exact congrArg (Replica.apply · b) hfed.made
        · exact hfed.made
      · have hbefore : (w.takenBy k).countP Update.isGone = 0 := by simpa [hl] using hfed.heard
        rw [htaken, List.countP_append, hbefore]
        rcases hcase with ⟨b, rest, rfl, -, rfl⟩ | ⟨e, rest, rfl, -, rfl⟩
        · simp [Update.isGone, hl]
        · rfl
    · refine (ih k t ht).of_eq ?_ rfl rfl rfl rfl
      rw [takenBy_consumed, if_neg (Ne.symm hk), List.append_nil]

end Crew

end ModelRegistry
