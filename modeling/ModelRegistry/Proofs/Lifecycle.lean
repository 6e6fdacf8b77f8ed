import ModelRegistry.Proofs.Crew

namespace ModelRegistry.Crew

/-- How the watches of a client stand between the steps of its lookups and its tasks. -/
structure Regular (w : Crew) : Prop where
  made : ∀ runtime model,
    w.client.checkedLookup runtime model = some (w.client.lookup runtime model)
  paired : ∀ n (s : Subscription), w.client.subscriptions[n]? = some s →
    ∀ role, w.tasks.count (role, n) = 1
  running : ∀ (m : ModelId) n, w.client.tracked[m]? = some n →
    ∃ s : Subscription, w.client.subscriptions[n]? = some s ∧ s.replica.model = m ∧ s.listening ∧
      (s.producer.stage = .stopped →
        ∃ e next earlier, w.session.journals n = .queued (.gone e) next :: earlier)
  alone : ∀ (n k : Nat) (s t : Subscription), w.client.subscriptions[n]? = some s →
    w.client.subscriptions[k]? = some t → s.listening → t.listening →
    s.replica.model = t.replica.model → n = k
  counted : w.client.started = w.client.trackedModels.length + w.taken.countP (·.2.isGone)
  heard : ∀ n (s : Subscription), w.client.subscriptions[n]? = some s →
    (w.takenBy n).countP Update.isGone = if s.listening then 0 else 1
  leaving : ∀ n (s s' : Subscription) e, w.client.subscriptions[n]? = some s →
    s.consume = some (.gone e, s') → w.client.tracked[s.replica.model]? = some n ∧
      ∃ c, w.client.consume n = some c ∧
        ∀ m, c.tracked[m]? = if m = s.replica.model then none else w.client.tracked[m]?
  own : ∀ n (s : Subscription), w.client.subscriptions[n]? = some s →
    s.replica = (w.applied n).foldl Replica.apply (.new s.replica.model) ∧
      w.applied n <+: fetched (w.session.journals n)

theorem Reachable.alone {w : Crew} (h : Reachable w) {n k : Nat} {s t : Subscription}
    (hs : w.client.subscriptions[n]? = some s) (ht : w.client.subscriptions[k]? = some t)
    (hsl : s.listening) (htl : t.listening) (hm : s.replica.model = t.replica.model) : n = k := by
  have htracks := h.session.tracks
  rcases htracks.kept n s hs with hn | hn
  · rcases htracks.kept k t ht with hk | hk
    · rw [hm, hk] at hn
      exact (Option.some.inj hn).symm
    · simp [htl] at hk
  · simp [hsl] at hn

theorem Reachable.applied_prefix {w : Crew} (h : Reachable w) {n : Nat} {s : Subscription}
    (hs : w.client.subscriptions[n]? = some s) :
    w.applied n <+: fetched (w.session.journals n) := by
  have hall : fetched (w.session.journals n) =
      (sentOff (w.session.journals n)).filterMap Update.batch? ++ s.producer.stage.held? :=
    (h.session.watch n s hs).delivers.complete
  rw [hall, ← (h.fed n s hs).sent, List.filterMap_append, List.append_assoc]
  exact List.prefix_append _ _

theorem Reachable.regular {w : Crew} (h : Reachable w)
    (hmade : w.client.registry.MakesChannel) : w.Regular where
  made := Client.checkedLookup_eq hmade
  paired := by
    intro n s hs role
    have hlt := (Array.getElem?_eq_some_iff.mp hs).1
    rw [h.count_tasks, if_pos hlt]
  running := by
    intro m n hm
    obtain ⟨s, hs, hmodel⟩ := h.session.tracks.known m n hm
    exact ⟨s, hs, hmodel, h.attended m n s hm hs, (h.session.watch n s hs).delivers.ended⟩
  alone := fun n k s t hs ht hsl htl hm => h.alone hs ht hsl htl hm
  counted := by
    rw [Client.trackedModels, Std.ExtTreeMap.length_keys]
    exact h.started_eq
  heard := fun n s hs => (h.fed n s hs).heard
  leaving := by
    intro n s s' e hs hu
    obtain ⟨hown, heq⟩ := h.session.tracks.consume_gone hs hu
    refine ⟨hown, _, heq, fun m => ?_⟩
    by_cases hm : m = s.replica.model
    · simp [hm]
    · have hne : ¬ compare s.replica.model m = .eq :=
        fun he => hm (Std.LawfulEqOrd.eq_of_compare he).symm
      rw [Std.ExtTreeMap.getElem?_erase, if_neg hne, if_neg hm]
      rfl
  own := fun n s hs => ⟨(h.fed n s hs).made, h.applied_prefix hs⟩

theorem Reachable.subscribe {w : Crew} (h : Reachable w) {model : ModelId}
    (hnone : w.client.subscription? model = none) :
    Reachable (w.lookedUp (w.client.subscribe model)) := by
  apply h.lookup (r := .new model) true model
  simp [Client.lookup, hnone]

def drive (w : Crew) (n : Nat) (signals : List (Call.Signal Response)) : Crew :=
  signals.foldl (fun w signal => w.produced 0 (fun _ => 0) n signal) w

theorem Reachable.drive {w : Crew} (h : Reachable w) {n : Nat} (hn : (.producer, n) ∈ w.tasks)
    {signals : List (Call.Signal Response)} (hsig : ∀ signal ∈ signals, signal ≠ .cutOff) :
    Reachable (w.drive n signals) := by
  induction signals generalizing w with
  | nil => exact h
  | cons signal signals ih =>
    have hstep := h.produce 0 (fun _ => 0) signal hn (hsig signal (List.mem_cons_self ..))
    exact ih hstep hn (fun s hs => hsig s (List.mem_cons_of_mem _ hs))

def drink (w : Crew) (n : Nat) (u : Update) : Crew :=
  w.consumed n u ((w.client.consume n).getD w.client)

def idle : Crew := ⟨⟨.new ⟨"c"⟩ .default .default, fun _ => []⟩, [], []⟩

def told : Crew :=
  (idle.lookedUp (idle.client.subscribe ⟨"m"⟩)).drive 0
    [.proceed, .connect (.resolved (.ok "a")), .connect (.dialed (.ok 1)),
      .answered (.error (.notFound "m")), .proceed, .proceed]

def left : Crew := told.drink 0 (.gone (.notFound "m"))

def reopened : Crew :=
  ((left.lookedUp (left.client.subscribe ⟨"m"⟩)).drive 1
    [.proceed, .answered (.ok ⟨"i", .full ["a"] 1⟩), .proceed]).drink 1 (.batch (.full ["a"] 1))

theorem reachable_left : Reachable left := by
  have hidle : Reachable idle := .start ⟨"c"⟩ .default .default
  have htold : Reachable told := by
    refine (hidle.subscribe ?_).drive ?_ (by simp)
    · simp [idle, client, Client.subscription?, Client.new]
    · exact List.mem_cons_self ..
  exact htold.consume (List.mem_cons_of_mem _ (List.mem_cons_self ..)) rfl rfl rfl

theorem reachable_reopened : Reachable reopened := by
  have hnone : left.client.subscription? ⟨"m"⟩ = none := by decide
  have hdriven : Reachable ((left.lookedUp (left.client.subscribe ⟨"m"⟩)).drive 1
      [.proceed, .answered (.ok ⟨"i", .full ["a"] 1⟩), .proceed]) := by
    apply (reachable_left.subscribe hnone).drive
    · decide
    · simp
  exact hdriven.consume (by decide) rfl rfl rfl

theorem regular_reopened : Reachable reopened ∧ reopened.client.registry.MakesChannel ∧
    reopened.client.started = 2 ∧
    reopened.client.trackedModels = [⟨"m"⟩] ∧ reopened.taken.map (·.1) = [0, 1] ∧
    reopened.applied 1 = [.full ["a"] 1] ∧ reopened.Regular :=
  ⟨reachable_reopened, by decide, rfl, by decide, rfl, rfl,
    reachable_reopened.regular (by decide)⟩

end ModelRegistry.Crew
