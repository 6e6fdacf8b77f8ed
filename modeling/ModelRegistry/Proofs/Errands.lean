import ModelRegistry.Proofs.Deadlines
import ModelRegistry.Proofs.Independence

/-!
Administrative calls are answered in time. What an errand does is what an execution of its call
does, and whatever others do in between, it needs but a bounded number of turns and moments until it
is answered.
-/

namespace ModelRegistry

open Simulation (Wait Heard)

namespace Affairs

def answers (a : Affairs) (k : Nat) : List (Nat × Except Error Answer) :=
  a.outcomes.filterMap fun
    | (time, .answered j r) => if j = k then some (time, r) else none
    | _ => none

end Affairs

namespace Surroundings

variable {s : Surroundings} {cluster : ClusterId} {now : Nat} {cache : Cache} {a : Affairs}
  {r : Cache × Affairs} {k : Nat} {question : Option Nat} {w : Wait}

def Fits (s : Surroundings) : Prop :=
  ∀ deeds now k r time q, s.reply deeds now k = some r → deeds[k]? = some (time, .asked q) →
    r.Fits q

theorem lasts_of_rests (h : s.turn now a question w = .rests) : w.Lasts (now + 1) := by
  unfold turn at h
  split at h
  next => cases h
  next => cases h
  next q limits =>
    split at h
    next => cases h
    next =>
      split at h
      next => cases h
      next =>
        split at h
        next => cases h
        next hnone =>
          intro l hl
          have hlate := List.find?_eq_none.1 hnone l hl
          simp only [decide_eq_true_eq] at hlate
          omega
  next due =>
    split at h
    next => cases h
    next hlate =>
      show now + 1 ≤ due
      omega
  next => trivial
  next => trivial

theorem reply_of_asks {q : Query} (h : s.turn now a question w = .asks q) :
    question = none ∧ ∃ limits, w = .reply q limits := by
  unfold turn at h
  split at h
  next => cases h
  next => cases h
  next q' limits =>
    split at h
    next =>
      obtain rfl := Turn.asks.inj h
      exact ⟨rfl, limits, rfl⟩
    next =>
      split at h
      next => cases h
      next => split at h <;> cases h
  next => split at h <;> cases h
  next => cases h
  next => cases h

def Asked (a : Affairs) (question : Option Nat) (w : Wait) : Prop :=
  ∀ j, question = some j → ∃ time q limits,
    a.deeds[j]? = some (time, .asked q) ∧ w = .reply q limits

theorem ends_of_hears {deeds : List Deed} {heard : Heard} (hfits : s.Fits)
    (hasked : Asked a question w) (h : s.turn now a question w = .hears deeds heard) :
    w.Ends now heard := by
  unfold turn at h
  split at h
  next =>
    obtain ⟨-, rfl⟩ := Turn.hears.inj h
    trivial
  next =>
    obtain ⟨-, rfl⟩ := Turn.hears.inj h
    trivial
  next q limits =>
    split at h
    next => cases h
    next j =>
      split at h
      next reply hreply =>
        obtain ⟨-, rfl⟩ := Turn.hears.inj h
        obtain ⟨time, q', limits', hdeed, hwait⟩ := hasked j rfl
        obtain ⟨rfl, -⟩ := Wait.reply.inj hwait
        exact hfits _ _ _ _ _ _ hreply hdeed
      next =>
        split at h
        next cause due hfind =>
          obtain ⟨-, rfl⟩ := Turn.hears.inj h
          exact ⟨due, by simpa using List.find?_some hfind, List.mem_of_find?_eq_some hfind⟩
        next => cases h
  next due =>
    split at h
    next hdue =>
      obtain ⟨-, rfl⟩ := Turn.hears.inj h
      exact hdue
    next => cases h
  next => cases h
  next => cases h

inductive Bypasses (cluster : ClusterId) (now : Nat) (cache : Cache) (a : Affairs) (k : Nat)
    (a' : Affairs) : Prop
  | leaves : a'.errands[k]? = a.errands[k]? → a'.answers k = a.answers k →
      Bypasses cluster now cache a k a'
  | begins (q : Request) : a.errands[k]? = none →
      a'.errands[k]? = some (some ⟨q, .start (cache.getOrCreate cluster).2.retry
        (some (now + (cache.getOrCreate cluster).2.registry.adminTimeout)), none⟩) →
      a'.answers k = a.answers k → Bypasses cluster now cache a k a'

theorem bypasses_perform (demands : List (Nat × Demand)) (d : Demand) (k : Nat) :
    Bypasses cluster now cache a k
      (perform cluster now cache { a with demands, performed := a.performed + 1 } d).2 := by
  cases d with
  | openClient =>
    apply Bypasses.leaves
    · rfl
    · simp [Affairs.answers, perform, Affairs.tell]
  | resolve runtime model want draw =>
    apply Bypasses.leaves
    · rfl
    · simp [Affairs.answers, perform, Affairs.tell]
  | request q =>
    by_cases hk : k = a.errands.length
    · subst hk
      refine .begins q ?_ ?_ rfl
      · simp
      · simp [perform, Client.adminDeadline]
    · apply Bypasses.leaves
      · simp only [perform, List.getElem?_append]
        split
        next => rfl
        next hlt => rw [List.getElem?_eq_none (by simp; omega), List.getElem?_eq_none (by omega)]
      · rfl
  | poison => exact .leaves rfl rfl

theorem bypasses_errand {j : Nat} {e : Errand} (hne : j ≠ k)
    (h : s.errand cluster now cache a j e = some r) : Bypasses cluster now cache a k r.2 := by
  unfold errand at h
  split at h
  next => cases h
  next =>
    obtain rfl := Option.some.inj h
    exact .leaves (List.getElem?_set_ne hne) rfl
  next =>
    obtain rfl := Option.some.inj h
    simp only
    split
    · apply Bypasses.leaves
      · exact List.getElem?_set_ne hne
      · simp [Affairs.answers, Affairs.tell, Affairs.note, hne]
    · exact .leaves (List.getElem?_set_ne hne) rfl

theorem bypasses_produce {n : Nat} (h : s.produce cluster now cache a n = some r) (k : Nat) :
    Bypasses cluster now cache a k r.2 := by
  unfold produce at h
  simp only at h
  split at h
  next => cases h
  next =>
    split at h
    next => cases h
    next =>
      obtain rfl := Option.some.inj h
      exact .leaves rfl rfl
    next =>
      obtain rfl := Option.some.inj h
      exact .leaves rfl rfl

theorem bypasses_act {actor : Actor} (h : s.act cluster now cache a actor = some r)
    (hne : actor ≠ .errand k) : Bypasses cluster now cache a k r.2 := by
  cases actor with
  | owner =>
    cases hd : a.demands with
    | nil => simp [act, hd] at h
    | cons demand demands =>
      obtain ⟨time, d⟩ := demand
      by_cases htime : time ≤ now
      · simp only [act, hd, htime, if_true, Option.some.injEq] at h
        rw [← h]
        exact bypasses_perform demands d k
      · simp [act, hd, htime] at h
  | errand j =>
    simp only [act] at h
    split at h
    next => exact bypasses_errand (fun hj => hne (congrArg Actor.errand hj)) h
    next => cases h
  | producer n => exact bypasses_produce h k
  | consumer n =>
    simp only [act, Option.map_eq_some_iff] at h
    obtain ⟨x, -, rfl⟩ := h
    exact .leaves rfl rfl

inductive Handles (cluster : ClusterId) (now : Nat) (a : Affairs) (k : Nat) (e : Errand)
    (a' : Affairs) : Prop
  | asks (q : Query) (limits : List (Simulation.Cause × Nat)) : e.question = none →
      Wait.ofCall cluster (Operation.request e.request).query e.call = .reply q limits →
      a'.errands[k]? = some (some { e with question := some a.deeds.length }) →
      a'.answers k = a.answers k → a'.deeds[a.deeds.length]? = some (now, .asked q) →
      Handles cluster now a k e a'
  | goesOn (env : Env) (c : Connection) (heard : Heard) : env.cluster = cluster → env.now = now →
      (Wait.ofCall cluster (Operation.request e.request).query e.call).Ends now heard →
      (∀ r, (e.call.step env c (heard.signal Simulation.Run.answer?)).2.stage ≠ .finished r) →
      a'.errands[k]? = some (some
        ⟨e.request, (e.call.step env c (heard.signal Simulation.Run.answer?)).2, none⟩) →
      a'.answers k = a.answers k → Handles cluster now a k e a'
  | ends (env : Env) (c : Connection) (heard : Heard) (r : Except Error Answer) :
      env.cluster = cluster → env.now = now →
      (Wait.ofCall cluster (Operation.request e.request).query e.call).Ends now heard →
      (e.call.step env c (heard.signal Simulation.Run.answer?)).2.stage = .finished r →
      a'.errands[k]? = some none →
      a'.answers k = a.answers k ++ [(now, r.bind e.request.conclude)] →
      Handles cluster now a k e a'

theorem handles_errand {e : Errand} (hfits : s.Fits)
    (hkey : (cache.client cluster).cluster = cluster) (hk : a.errands[k]? = some (some e))
    (hasked : Asked a e.question
      (Wait.ofCall cluster (Operation.request e.request).query e.call))
    (h : s.errand cluster now cache a k e = some r) : Handles cluster now a k e r.2 := by
  have hlt := (List.getElem?_eq_some_iff.1 hk).1
  unfold errand at h
  split at h
  next => cases h
  next q hturn =>
    obtain ⟨hnone, limits, hwait⟩ := reply_of_asks hturn
    obtain rfl := Option.some.inj h
    refine .asks q limits hnone hwait ?_ rfl ?_
    · exact List.getElem?_set_self hlt
    · simp [Affairs.note]
  next deeds heard hturn =>
    have hends := ends_of_hears hfits hasked hturn
    let env := (cache.client cluster).env now s.draws
    let c := (cache.client cluster).connection
    obtain rfl := Option.some.inj h
    simp only
    split
    next result hresult =>
      refine .ends env c heard result hkey rfl hends hresult ?_ ?_
      · exact List.getElem?_set_self hlt
      · simp [Affairs.answers, Affairs.tell, Affairs.note]
    next hunfinished =>
      exact .goesOn env c heard hkey rfl hends hunfinished (List.getElem?_set_self hlt) rfl

theorem length_errand {e : Errand} (h : s.errand cluster now cache a k e = some r) :
    r.2.errands.length = a.errands.length := by
  unfold errand at h
  split at h
  next => cases h
  next =>
    obtain rfl := Option.some.inj h
    exact List.length_set
  next =>
    obtain rfl := Option.some.inj h
    simp only
    split
    · exact List.length_set
    · exact List.length_set

theorem choices_eq_nil (h : s.move cluster now cache a = none) :
    s.choices cluster now cache a = [] := by
  simp only [move, Option.map_eq_none_iff, List.getElem?_eq_none_iff] at h
  by_contra hne
  have hlt := Nat.mod_lt (s.order a.moves) (List.length_pos_iff.2 hne)
  omega

theorem rests_of_act {e : Errand} (hk : a.errands[k]? = some (some e))
    (h : s.act cluster now cache a (.errand k) = none) :
    s.turn now a e.question (Wait.ofCall cluster (Operation.request e.request).query e.call) =
      .rests := by
  simp only [act, hk] at h
  unfold errand at h
  split at h
  next hrests => exact hrests
  next => cases h
  next => cases h

theorem act_eq_none {e : Errand} (hk : a.errands[k]? = some (some e))
    (h : s.move cluster now cache a = none) : s.act cluster now cache a (.errand k) = none := by
  have hactor : .errand k ∈ a.actors (cache.client cluster) := by
    have hlt := (List.getElem?_eq_some_iff.1 hk).1
    simp [Affairs.actors, hlt]
  exact List.filterMap_eq_nil_iff.1 (choices_eq_nil h) _ hactor

end Surroundings

namespace Fleet

variable {registry : RegistrySettings} {retry : RetrySettings}
  {around : ClusterId → Surroundings} {cluster other : ClusterId} {actor : Actor} {s t u : Fleet}
  {k began d : Nat} {q : Request} {x : Execution Answer} {question : Option Nat}

theorem settings_of_runs (h : Runs around (start registry retry around) s) (cluster : ClusterId) :
    (s.cache.client cluster).registry = registry ∧ (s.cache.client cluster).retry = retry := by
  induction h with
  | refl => simp [start, Cache.client, Cache.new, Client.new]
  | @move t r other ht hr ih =>
    have hkeyed := keyed_start.runs ht
    obtain ⟨hchange, -⟩ := Surroundings.change_move (hkeyed other) hr
    have hcontinues := hchange.continues (hkeyed other) cluster
    exact ⟨hcontinues.registry.trans ih.1, hcontinues.retry.trans ih.2⟩
  | tick _ _ ih => exact ih

inductive Acts (around : ClusterId → Surroundings) (cluster : ClusterId) (actor : Actor)
    (s : Fleet) : Fleet → Prop
  | intro {r : Cache × Affairs} :
      (around cluster).act cluster s.now s.cache (s.affairs cluster) actor = some r →
      Acts around cluster actor s
        (s.moved cluster (r.1, { r.2 with moves := (s.affairs cluster).moves + 1 }))

theorem acts_of_move {r : Cache × Affairs}
    (h : (around cluster).move cluster s.now s.cache (s.affairs cluster) = some r) :
    ∃ actor, Acts around cluster actor s (s.moved cluster r) := by
  simp only [Surroundings.move, Option.map_eq_some_iff] at h
  obtain ⟨⟨cache, a⟩, hchosen, rfl⟩ := h
  obtain ⟨actor, -, hact⟩ := List.mem_filterMap.1 (List.mem_of_getElem? hchosen)
  exact ⟨actor, .intro hact⟩

theorem Acts.now (h : Acts around cluster actor s t) : t.now = s.now := by
  cases h with
  | intro => rfl

theorem Acts.affairs_of_ne (h : Acts around other actor s t) (hne : other ≠ cluster) :
    t.affairs cluster = s.affairs cluster := by
  cases h with
  | intro => simp [moved, Ne.symm hne]

theorem Acts.deeds (h : Acts around cluster actor s t)
    (hkey : (s.cache.client cluster).cluster = cluster) :
    (s.affairs cluster).deeds <+: (t.affairs cluster).deeds := by
  cases h with
  | intro hact =>
    have hprefix := (Surroundings.change_act hkey hact).deeds
    simpa [moved] using hprefix

theorem Acts.keyed (h : Acts around other actor s t) (hkeyed : s.Keyed) : t.Keyed := by
  cases h with
  | intro hact =>
    intro cluster
    have hchange := Surroundings.change_act (hkeyed other) hact
    have hcontinues := hchange.continues (hkeyed other) cluster
    exact hcontinues.cluster.trans (hkeyed cluster)

theorem Acts.errand (h : Acts around cluster (.errand k) s t) :
    ∃ e, (s.affairs cluster).errands[k]? = some (some e) ∧
      (t.affairs cluster).errands.length = (s.affairs cluster).errands.length := by
  cases h with
  | intro hact =>
    simp only [Surroundings.act] at hact
    split at hact
    next e he =>
      have hlength := Surroundings.length_errand hact
      exact ⟨e, he, by simpa [moved] using hlength⟩
    next => cases hact

theorem Acts.bypasses (h : Acts around cluster actor s t) (hne : actor ≠ .errand k) :
    Surroundings.Bypasses cluster s.now s.cache (s.affairs cluster) k (t.affairs cluster) := by
  cases h with
  | @intro r hact =>
    have haffairs : (s.moved cluster
        (r.1, { r.2 with moves := (s.affairs cluster).moves + 1 })).affairs cluster =
          { r.2 with moves := (s.affairs cluster).moves + 1 } := by simp [moved]
    rw [haffairs]
    cases Surroundings.bypasses_act hact hne with
    | leaves he ha => exact .leaves he ha
    | begins q hnone he ha => exact .begins q hnone he ha

theorem Acts.handles {e : Errand} (h : Acts around cluster (.errand k) s t)
    (hfits : (around cluster).Fits) (hkey : (s.cache.client cluster).cluster = cluster)
    (hk : (s.affairs cluster).errands[k]? = some (some e))
    (hasked : Surroundings.Asked (s.affairs cluster) e.question
      (Wait.ofCall cluster (Operation.request e.request).query e.call)) :
    Surroundings.Handles cluster s.now (s.affairs cluster) k e (t.affairs cluster) := by
  cases h with
  | @intro r hact =>
    simp only [Surroundings.act, hk] at hact
    have haffairs : (s.moved cluster
        (r.1, { r.2 with moves := (s.affairs cluster).moves + 1 })).affairs cluster =
          { r.2 with moves := (s.affairs cluster).moves + 1 } := by simp [moved]
    rw [haffairs]
    cases Surroundings.handles_errand hfits hkey hk hasked hact with
    | asks q limits hnone hwait he ha hdeed => exact .asks q limits hnone hwait he ha hdeed
    | goesOn env c heard hcluster hnow hends hgoes he ha =>
      exact .goesOn env c heard hcluster hnow hends hgoes he ha
    | ends env c heard r hcluster hnow hends hr he ha =>
      exact .ends env c heard r hcluster hnow hends hr he ha

inductive Meanwhile (around : ClusterId → Surroundings) (cluster : ClusterId) (k : Nat)
    (s : Fleet) : Fleet → Prop
  | refl : Meanwhile around cluster k s s
  | act {t u : Fleet} {other : ClusterId} {actor : Actor} : Meanwhile around cluster k s t →
      (other = cluster → actor ≠ .errand k) → Acts around other actor t u →
      Meanwhile around cluster k s u

theorem Meanwhile.keyed (h : Meanwhile around cluster k s t) (hkeyed : s.Keyed) : t.Keyed := by
  induction h with
  | refl => exact hkeyed
  | act _ _ hacts ih => exact hacts.keyed ih

/-- Errand `k` is answered by the time `d`, in whatever order things happen: as long as it is not,
it can make a move when that time comes at the latest, and any number of moves that others make
between its own, and between two moments, only put it off. -/
inductive Served (around : ClusterId → Surroundings) (cluster : ClusterId) (k began d : Nat) :
    Fleet → Prop
  | answered {s : Fleet} (time : Nat) (r : Except Error Answer) :
      (s.affairs cluster).answers k = [(time, r)] → began ≤ time → time ≤ d →
      Served around cluster k began d s
  | goesOn {s : Fleet} : (s.affairs cluster).answers k = [] → s.now ≤ d →
      (∀ u, Meanwhile around cluster k s u → d ≤ u.now →
        ∃ t, Acts around cluster (.errand k) u t) →
      (∀ u t, Meanwhile around cluster k s u → Acts around cluster (.errand k) u t →
        Served around cluster k began d t) →
      (∀ u, Meanwhile around cluster k s u → (∀ other, u.Rests around other) →
        Served around cluster k began d { u with now := u.now + 1 }) →
      Served around cluster k began d s

/-- Errand `k` is on its way, where the execution `x` is. -/
structure Pends (cluster : ClusterId) (k : Nat) (q : Request) (x : Execution Answer)
    (question : Option Nat) (s : Fleet) : Prop where
  errand : (s.affairs cluster).errands[k]? = some (some ⟨q, x.call, question⟩)
  unanswered : (s.affairs cluster).answers k = []
  now : x.now = s.now
  unfinished : ∀ r, x.call.stage ≠ .finished r
  asked : Surroundings.Asked (s.affairs cluster) question
    (Wait.ofCall cluster (Operation.request q).query x.call)

structure Answers (cluster : ClusterId) (k : Nat) (q : Request) (x : Execution Answer) (s : Fleet) :
    Prop where
  errand : (s.affairs cluster).errands[k]? = some none
  answer : ∃ r, x.call.stage = .finished r ∧
    (s.affairs cluster).answers k = [(x.now, r.bind q.conclude)]

theorem Pends.of_affairs (h : s.Pends cluster k q x question) (hnow : t.now = s.now)
    (haffairs : t.affairs cluster = s.affairs cluster) : t.Pends cluster k q x question := by
  constructor
  · rw [haffairs]
    exact h.errand
  · rw [haffairs]
    exact h.unanswered
  · exact h.now.trans hnow.symm
  · exact h.unfinished
  · rw [haffairs]
    exact h.asked

theorem Pends.bypassed (h : s.Pends cluster k q x question) (hkeyed : s.Keyed)
    (hacts : Acts around other actor s t) (hne : other = cluster → actor ≠ .errand k) :
    t.Pends cluster k q x question := by
  by_cases hother : other = cluster
  · subst hother
    cases hacts.bypasses (hne rfl) with
    | leaves he ha =>
      have hnow := h.now.trans hacts.now.symm
      refine ⟨he.trans h.errand, ha.trans h.unanswered, hnow, h.unfinished, ?_⟩
      intro j hj
      obtain ⟨time, query, limits, hdeed, hwait⟩ := h.asked j hj
      have hlt := (List.getElem?_eq_some_iff.1 hdeed).1
      obtain ⟨deeds, hdeeds⟩ := hacts.deeds (hkeyed _)
      refine ⟨time, query, limits, ?_, hwait⟩
      rw [← hdeeds, List.getElem?_append_left hlt]
      exact hdeed
    | begins _ hnone =>
      rw [h.errand] at hnone
      cases hnone
  · exact h.of_affairs hacts.now (hacts.affairs_of_ne hother)

theorem Pends.meanwhile (h : s.Pends cluster k q x question) (hkeyed : s.Keyed)
    (hu : Meanwhile around cluster k s u) : u.Pends cluster k q x question := by
  induction hu with
  | refl => exact h
  | act ht hne hacts ih => exact ih.bypassed (ht.keyed hkeyed) hacts hne

theorem Pends.act (h : s.Pends cluster k q x question) (hkeyed : s.Keyed)
    (hfits : (around cluster).Fits) (hacts : Acts around cluster (.errand k) s t) :
    (question = none ∧ ∃ j, t.Pends cluster k q x (some j)) ∨
      ∃ env c heard, env.cluster = cluster ∧ env.now = x.now ∧
        (Wait.ofCall cluster (Operation.request q).query x.call).Ends x.now heard ∧
        (t.Pends cluster k q (x.step env c (heard.signal Simulation.Run.answer?)) none ∨
          t.Answers cluster k q (x.step env c (heard.signal Simulation.Run.answer?))) := by
  cases hacts.handles hfits (hkeyed cluster) h.errand h.asked with
  | asks query limits hnone hwait he ha hdeed =>
    refine .inl ⟨hnone, _, he, ha.trans h.unanswered, h.now.trans hacts.now.symm, h.unfinished, ?_⟩
    intro j hj
    obtain rfl := Option.some.inj hj
    exact ⟨_, query, limits, hdeed, hwait⟩
  | goesOn env c heard hcluster hnow hends hgoes he ha =>
    rw [← h.now] at hnow hends
    refine .inr ⟨env, c, heard, hcluster, hnow, hends, .inl ⟨?_, ha.trans h.unanswered, ?_, ?_, ?_⟩⟩
    · rw [Execution.call_step]
      exact he
    · rw [Execution.now_step]
      exact h.now.trans hacts.now.symm
    · rw [Execution.call_step]
      exact hgoes
    · nofun
  | ends env c heard r hcluster hnow hends hr he ha =>
    rw [h.unanswered, List.nil_append, ← h.now] at ha
    rw [← h.now] at hnow hends
    refine .inr ⟨env, c, heard, hcluster, hnow, hends, .inr ⟨he, r, ?_, ?_⟩⟩
    · rw [Execution.call_step]
      exact hr
    · rw [Execution.now_step]
      exact ha

theorem Pends.lasts (h : s.Pends cluster k q x question)
    (hact : (around cluster).act cluster s.now s.cache (s.affairs cluster) (.errand k) = none) :
    (Wait.ofCall cluster (Operation.request q).query x.call).Lasts (x.now + 1) := by
  rw [h.now]
  exact Surroundings.lasts_of_rests (Surroundings.rests_of_act h.errand hact)

theorem Pends.tick (h : s.Pends cluster k q x question) :
    { s with now := s.now + 1 }.Pends cluster k q { x with now := x.now + 1 } question :=
  ⟨h.errand, h.unanswered, congrArg (· + 1) h.now, h.unfinished, h.asked⟩

theorem Answers.bypassed (h : s.Answers cluster k q x) (hacts : Acts around other actor s t) :
    t.Answers cluster k q x := by
  obtain ⟨hk, r, hr, hanswers⟩ := h
  by_cases hother : other = cluster
  · subst hother
    have hne : actor ≠ .errand k := by
      rintro rfl
      obtain ⟨e, he, -⟩ := hacts.errand
      simp [hk] at he
    cases hacts.bypasses hne with
    | leaves he ha => exact ⟨he.trans hk, r, hr, ha.trans hanswers⟩
    | begins _ hnone =>
      rw [hk] at hnone
      cases hnone
  · have haffairs := hacts.affairs_of_ne hother
    refine ⟨?_, r, hr, ?_⟩
    · rw [haffairs]
      exact hk
    · rw [haffairs]
      exact hanswers

theorem answers_of_runs (h : Runs around (start registry retry around) s)
    (hnone : (s.affairs cluster).errands[k]? = none) : (s.affairs cluster).answers k = [] := by
  induction h with
  | refl => rfl
  | @move t r other _ hr ih =>
    obtain ⟨actor, hacts⟩ := acts_of_move hr
    by_cases hother : other = cluster
    · subst hother
      by_cases hactor : actor = .errand k
      · subst hactor
        obtain ⟨e, he, hlength⟩ := hacts.errand
        rw [List.getElem?_eq_none_iff, hlength, ← List.getElem?_eq_none_iff] at hnone
        simp [hnone] at he
      · cases hacts.bypasses hactor with
        | leaves he ha => exact ha.trans (ih (he.symm.trans hnone))
        | begins _ _ he => simp [hnone] at he
    · rw [hacts.affairs_of_ne hother] at hnone ⊢
      exact ih hnone
  | tick _ _ ih => exact ih hnone

theorem pends_of_begin {r : Cache × Affairs} {e : Errand}
    (h : Runs around (start registry retry around) s)
    (hr : (around cluster).move cluster s.now s.cache (s.affairs cluster) = some r)
    (hnone : (s.affairs cluster).errands[k]? = none) (hbegins : r.2.errands[k]? = some (some e)) :
    (s.moved cluster r).Pends cluster k e.request
      ⟨s.now, .start retry (some (s.now + registry.adminTimeout)), .start s.now, []⟩ none := by
  have hkeyed := keyed_start.runs h
  have haffairs : (s.moved cluster r).affairs cluster = r.2 := by simp [moved]
  obtain ⟨actor, hacts⟩ := acts_of_move hr
  have hactor : actor ≠ .errand k := by
    rintro rfl
    obtain ⟨e, he, -⟩ := hacts.errand
    simp [hnone] at he
  rw [← haffairs] at hbegins
  cases hacts.bypasses hactor with
  | leaves he => simp [he, hnone] at hbegins
  | begins q _ he ha =>
    have hsettings := settings_of_runs h cluster
    rw [Cache.getOrCreate_eq (hkeyed cluster), hsettings.1, hsettings.2] at he
    obtain rfl := Option.some.inj (Option.some.inj (he.symm.trans hbegins))
    refine ⟨he, ha.trans (answers_of_runs h hnone), rfl, ?_, ?_⟩
    · intro result hresult
      cases hresult
    · intro j hj
      cases hj

theorem Pends.later (hpos : ∀ n draw, 1 ≤ (Backoff.after retry n).pause draw) (hle : began ≤ d)
    (h : s.Pends cluster k q x question) (hr : x.Reachable cluster retry (some d) began)
    (hact : (around cluster).act cluster s.now s.cache (s.affairs cluster) (.errand k) = none) :
    { x with now := x.now + 1 }.Reachable cluster retry (some d) began ∧ x.now + 1 ≤ d := by
  have hlater := hr.pass (.request q) (x.now + 1) (Nat.le_succ _) (h.lasts hact)
  exact ⟨hlater, (hlater.paced hle hpos).inTime.resolve_left fun ⟨r, hr⟩ => h.unfinished r hr⟩

def toGo (began d : Nat) (x : Execution Answer) (question : Option Nat) : Nat :=
  d - x.now + 2 * (7 * max 1 (d - began) - x.progress) + if question.isNone then 1 else 0

theorem toGo_step {signal : Call.Signal Answer} {env : Env} {c : Connection}
    (hears : Call.Hears x.now x.call.deadline x.call.stage signal)
    (hle : (x.step env c signal).progress ≤ 7 * max 1 (d - began)) :
    toGo began d (x.step env c signal) none < toGo began d x question := by
  have hmore := Execution.progress_lt_step hears env c
  have hnow := x.now_step env c signal
  simp only [toGo, hnow, Option.isNone_none, if_true]
  omega

theorem Pends.served (hpos : ∀ n draw, 1 ≤ (Backoff.after retry n).pause draw) (hle : began ≤ d)
    (hfits : (around cluster).Fits) (h : s.Pends cluster k q x question) (hkeyed : s.Keyed)
    (hr : x.Reachable cluster retry (some d) began) : Served around cluster k began d s := by
  generalize hm : toGo began d x question = m
  induction m using Nat.strong_induction_on generalizing s x question with
  | _ m ih =>
    have hpaced := hr.paced hle hpos
    have hnow : x.now ≤ d := hpaced.inTime.resolve_left fun ⟨r, hr⟩ => h.unfinished r hr
    refine .goesOn h.unanswered (h.now ▸ hnow) ?_ ?_ ?_
    · intro u hu hdue
      have hpends := h.meanwhile hkeyed hu
      cases hact : (around cluster).act cluster u.now u.cache (u.affairs cluster) (.errand k) with
      | none =>
        obtain ⟨-, hlt⟩ := hpends.later hpos hle hr hact
        have hsame := hpends.now
        omega
      | some r => exact ⟨_, .intro hact⟩
    · intro u t hu hacts
      have hukeyed := hu.keyed hkeyed
      obtain ⟨rfl, j, ht⟩ | ⟨env, c, heard, hcluster, henv, hends, ht⟩ :=
        (h.meanwhile hkeyed hu).act hukeyed hfits hacts
      · refine ih _ ?_ ht (hacts.keyed hukeyed) hr rfl
        simp [← hm, toGo]
      · have hlater := hr.hear (.request q) env c heard hcluster henv hends
        have hbound := Execution.progress_le hlater.kept (hlater.paced hle hpos)
        obtain ht | ⟨-, r, -, hanswers⟩ := ht
        · exact ih _ (hm ▸ toGo_step (Call.hears_of_ends hends) hbound) ht (hacts.keyed hukeyed)
            hlater rfl
        · rw [Execution.now_step] at hanswers
          exact .answered x.now _ hanswers hpaced.le hnow
    · intro u hu hrests
      have hpends := h.meanwhile hkeyed hu
      have hact := Surroundings.act_eq_none hpends.errand (hrests cluster)
      obtain ⟨hlater, hlt⟩ := hpends.later hpos hle hr hact
      refine ih _ ?_ hpends.tick (hu.keyed hkeyed) hlater rfl
      have hsame : { x with now := x.now + 1 }.progress = x.progress := rfl
      simp only [← hm, toGo, hsame]
      omega

inductive Pursues (cluster : ClusterId) (k : Nat) (q : Request) (x : Execution Answer)
    (s : Fleet) : Prop
  | pending (question : Option Nat) : s.Pends cluster k q x question → Pursues cluster k q x s
  | answered : s.Answers cluster k q x → Pursues cluster k q x s

structure Follows (around : ClusterId → Surroundings) (retry : RetrySettings) (cluster : ClusterId)
    (k : Nat) (q : Request) (began d : Nat) (s : Fleet) : Prop where
  pursues : ∃ x, x.Reachable cluster retry (some d) began ∧ x.now ≤ d ∧ s.Pursues cluster k q x
  served : Served around cluster k began d s

theorem Pursues.moved {r : Cache × Affairs} (h : s.Pursues cluster k q x) (hkeyed : s.Keyed)
    (hfits : (around cluster).Fits) (hr : x.Reachable cluster retry (some d) began)
    (hnow : x.now ≤ d)
    (hm : (around other).move other s.now s.cache (s.affairs other) = some r) :
    ∃ y, y.Reachable cluster retry (some d) began ∧ y.now ≤ d ∧
      (s.moved other r).Pursues cluster k q y := by
  obtain ⟨actor, hacts⟩ := acts_of_move hm
  cases h with
  | answered h => exact ⟨x, hr, hnow, .answered (h.bypassed hacts)⟩
  | pending question h =>
    by_cases hown : other = cluster ∧ actor = .errand k
    · obtain ⟨rfl, rfl⟩ := hown
      obtain ⟨-, j, ht⟩ | ⟨env, c, heard, hcluster, henv, hends, ht⟩ := h.act hkeyed hfits hacts
      · exact ⟨x, hr, hnow, .pending _ ht⟩
      · refine ⟨_, hr.hear (.request q) env c heard hcluster henv hends, ?_, ?_⟩
        · rwa [Execution.now_step]
        · obtain ht | ht := ht
          · exact .pending _ ht
          · exact .answered ht
    · have hne : other = cluster → actor ≠ .errand k := fun ho ha => hown ⟨ho, ha⟩
      exact ⟨x, hr, hnow, .pending _ (h.bypassed hkeyed hacts hne)⟩

theorem Pursues.runs (hpos : ∀ n draw, 1 ≤ (Backoff.after retry n).pause draw) (hle : began ≤ d)
    (hfits : (around cluster).Fits) (h : s.Pursues cluster k q x) (hkeyed : s.Keyed)
    (hr : x.Reachable cluster retry (some d) began) (hnow : x.now ≤ d) (ht : Runs around s t) :
    ∃ y, y.Reachable cluster retry (some d) began ∧ y.now ≤ d ∧ t.Pursues cluster k q y := by
  induction ht with
  | refl => exact ⟨x, hr, hnow, h⟩
  | move other ht hm ih =>
    obtain ⟨y, hy, hynow, hpursues⟩ := ih
    exact hpursues.moved (hkeyed.runs ht) hfits hy hynow hm
  | tick ht hrests ih =>
    obtain ⟨y, hy, hynow, hpursues⟩ := ih
    cases hpursues with
    | answered h => exact ⟨y, hy, hynow, .answered ⟨h.errand, h.answer⟩⟩
    | pending question h =>
      have hact := Surroundings.act_eq_none h.errand (hrests cluster)
      obtain ⟨hlater, hlt⟩ := h.later hpos hle hy hact
      exact ⟨_, hlater, hlt, .pending _ h.tick⟩

theorem Pursues.follows (hpos : ∀ n draw, 1 ≤ (Backoff.after retry n).pause draw) (hle : began ≤ d)
    (hfits : (around cluster).Fits) (h : s.Pursues cluster k q x) (hkeyed : s.Keyed)
    (hr : x.Reachable cluster retry (some d) began) (hnow : x.now ≤ d) :
    Follows around retry cluster k q began d s := by
  refine ⟨⟨x, hr, hnow, h⟩, ?_⟩
  cases h with
  | pending question h => exact h.served hpos hle hfits hkeyed hr
  | answered h =>
    obtain ⟨-, r, -, hanswers⟩ := h
    exact .answered x.now _ hanswers (hr.paced hle hpos).le hnow

/-- In every run, an administrative call that begins with a move has the deadline that the settings
give it, whatever the clusters meet with. -/
def Prompt (registry : RegistrySettings) (retry : RetrySettings) : Prop :=
  ∀ (around : ClusterId → Surroundings) (s t : Fleet) (cluster : ClusterId) (r : Cache × Affairs)
    (k : Nat) (e : Errand), (around cluster).Fits → Runs around (start registry retry around) s →
    (around cluster).move cluster s.now s.cache (s.affairs cluster) = some r →
    (s.affairs cluster).errands[k]? = none → r.2.errands[k]? = some (some e) →
    Runs around (s.moved cluster r) t →
    Follows around retry cluster k e.request s.now (s.now + registry.adminTimeout) t

theorem prompt (hpos : ∀ n draw, 1 ≤ (Backoff.after retry n).pause draw)
    (registry : RegistrySettings) : Prompt registry retry := by
  intro around s t cluster r k e hfits hs hr hnone hbegins ht
  have hle : s.now ≤ s.now + registry.adminTimeout := Nat.le_add_right ..
  have hkeyed := (keyed_start.runs hs).move hr
  have hpends := pends_of_begin hs hr hnone hbegins
  obtain ⟨x, hx, hnow, hpursues⟩ :=
    (Pursues.pending none hpends).runs hpos hle hfits hkeyed .start hle ht
  exact hpursues.follows hpos hle hfits (hkeyed.runs ht) hx hnow

theorem fits_silent : silent.Fits := by
  intro deeds now k r time q h
  cases h

end Fleet

namespace Execution

variable {retry : RetrySettings}

/-- No call outlasts its deadline: neither one that is made on a shared connection nor the requests
of a client. -/
structure MeetsDeadlines (retry : RetrySettings) : Prop where
  calls : ∀ {α : Type} {cluster : ClusterId} {began b i : Nat} {x : Execution α} {w : Shared},
    Amid cluster retry (some (began + b)) began i x w → Bounded cluster began b x w
  requests : ∀ registry, Fleet.Prompt registry retry

theorem within_deadline (hpos : ∀ n draw, 1 ≤ (Backoff.after retry n).pause draw) :
    MeetsDeadlines retry :=
  ⟨fun h => h.bounded hpos, Fleet.prompt hpos⟩

theorem one_le_pause_quick (n draw : Nat) : 1 ≤ (Backoff.after quick n).pause draw := by
  have hone : 1 ≤ (Backoff.after quick n).current :=
    Backoff.le_iterate (Binary64.isExact_of_le (by decide)) (by decide) (by decide) (by decide)
      (by decide) n
  exact hone.trans ((Backoff.after quick n).pause_mem_bounds draw).1

theorem within_deadline_hanging : (∀ n draw, 1 ≤ (Backoff.after quick n).pause draw) ∧
    ∃ (x : Execution Answer) (w : Shared), Amid ⟨"c"⟩ quick (some 5) 0 0 x w ∧ x.now = 5 ∧
      x.call.stage = .acquiring (.dialing "a" 10000) ∧ w.connection = .dialing ∧
      Bounded ⟨"c"⟩ 0 5 x w ∧
    ∃ r, Fleet.silent.move Fleet.second 0 (.new .default quick) (.start Fleet.calling) = some r ∧
      ∀ t, Fleet.Runs (fun _ => Fleet.silent)
          ((Fleet.start .default quick fun _ => Fleet.silent).moved Fleet.second r) t →
        Fleet.Follows (fun _ => Fleet.silent) quick Fleet.second 0 .listAll 0 10000 t := by
  have hmeets := within_deadline one_le_pause_quick
  let op := Operation.request .listAll
  have hstart : Amid (α := Answer) ⟨"c"⟩ quick (some 5) 0 0
      ⟨0, ⟨some 5, .start quick, .acquiring .entering⟩, .start 0, []⟩ _ := .start .start rfl
  obtain ⟨hentering, -⟩ := hstart.user
  have htaken : Amid ⟨"c"⟩ quick (some 5) 0 0
      ⟨0, ⟨some 5, .start quick, .acquiring .resolving⟩, .start 0, []⟩ _ :=
    hstart.hear op (moment 0 0) .proceed hentering rfl rfl trivial
  obtain ⟨hresolving, -⟩ := htaken.user
  have hlearned : Amid ⟨"c"⟩ quick (some 5) 0 0
      ⟨0, ⟨some 5, .start quick, .acquiring (.dialing "a" 10000)⟩, .start 0, []⟩ _ :=
    htaken.hear op (moment 0 0) (.reply (.resolved (.ok "a"))) hresolving rfl rfl trivial
  have hwaited : Amid ⟨"c"⟩ quick (some 5) 0 0
      ⟨5, ⟨some 5, .start quick, .acquiring (.dialing "a" 10000)⟩, .start 0, []⟩ _ :=
    hlearned.pass op 5 (Nat.zero_le 5)
      (by simp [Wait.ofCall, Wait.ofAcquisition, Wait.Lasts, Wait.deadline])
  have hlate : Amid ⟨"c"⟩ quick (some (0 + 5)) 0 0 _ _ := hwaited
  obtain ⟨r, hr, e, hbegins, hrequest⟩ : ∃ r, Fleet.silent.move Fleet.second 0 (.new .default quick)
      (.start Fleet.calling) = some r ∧ ∃ e : Errand, r.2.errands[0]? = some (some e) ∧
        e.request = .listAll := ⟨_, rfl, _, rfl, rfl⟩
  refine ⟨one_le_pause_quick, _, _, hwaited, rfl, rfl, rfl, hmeets.calls hlate, r, hr, ?_⟩
  intro t ht
  rw [← hrequest]
  exact hmeets.requests .default (fun _ => Fleet.silent) _ t Fleet.second r 0 e Fleet.fits_silent
    .refl hr rfl hbegins ht

end Execution

end ModelRegistry
