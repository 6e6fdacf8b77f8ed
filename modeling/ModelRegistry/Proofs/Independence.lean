import Mathlib.Logic.Function.Iterate
import ModelRegistry.Proofs.Fleet
import ModelRegistry.Proofs.Orderliness

/-!
Clusters do not interfere. A cluster that meets with the same in two runs does the same in both, at
the same times, whatever happens to other clusters; and a cache keeps one client for each cluster
that it has been asked for.
-/

namespace ModelRegistry

namespace Surroundings

variable {s : Surroundings} {cluster : ClusterId} {now : Nat} {cache : Cache} {a : Affairs}
  {r : Cache × Affairs}

def Puts (cluster : ClusterId) (cache cache' : Cache) : Prop :=
  ∃ x, (cache.client cluster).Continues x ∧ cache' = cache.put x

theorem puts_getOrCreate (hkey : (cache.client cluster).cluster = cluster) :
    Puts cluster cache (cache.getOrCreate cluster).1 := by
  rw [Cache.getOrCreate_eq hkey]
  exact ⟨_, .refl _, rfl⟩

theorem Puts.put {cache' : Cache} (h : Puts cluster cache cache') {x : Client}
    (hx : (cache.client cluster).Continues x) : Puts cluster cache (cache'.put x) := by
  obtain ⟨y, hy, rfl⟩ := h
  exact ⟨x, hx, cache.put_put (hx.cluster.trans hy.cluster.symm)⟩

theorem puts_resolveAddresses (hkey : (cache.client cluster).cluster = cluster) (runtime : Bool)
    (model : ModelId) (want : Nat) (draw : Draws) :
    Puts cluster cache (cache.resolveAddresses runtime cluster model want draw).1 := by
  have hput := puts_getOrCreate hkey
  unfold Cache.resolveAddresses
  rw [Cache.getOrCreate_eq hkey] at hput ⊢
  simp only
  cases h : (cache.client cluster).resolveAddresses runtime model want draw with
  | error e => exact hput
  | ok found => exact hput.put (Client.continues_resolveAddresses h)

/-- What one move of a cluster changes. A client is put back where the owner acts, or where there is
one already. -/
structure Change (cluster : ClusterId) (cache : Cache) (a : Affairs) (r : Cache × Affairs) :
    Prop where
  deeds : a.deeds <+: r.2.deeds
  outcomes : a.outcomes <+: r.2.outcomes
  cache : (a.performed < r.2.performed ∧ Puts cluster cache r.1) ∨
    (r.2.performed = a.performed ∧ r.2.errands.length = a.errands.length) ∧
      (r.1 = cache ∨
        Puts cluster cache r.1 ∧ (a.errands ≠ [] ∨ ∃ x, cache.clients[cluster]? = some x))

theorem change_perform (hkey : (cache.client cluster).cluster = cluster)
    (demands : List (Nat × Demand)) (d : Demand) :
    Change cluster cache a
      (perform cluster now cache { a with demands, performed := a.performed + 1 } d) := by
  have hlt : a.performed < a.performed + 1 := Nat.lt_succ_self _
  cases d with
  | openClient =>
    exact ⟨List.prefix_refl _, List.prefix_append .., .inl ⟨hlt, puts_getOrCreate hkey⟩⟩
  | resolve runtime model want draw =>
    exact ⟨List.prefix_refl _, List.prefix_append ..,
      .inl ⟨hlt, puts_resolveAddresses hkey runtime model want draw⟩⟩
  | request q => exact ⟨List.prefix_refl _, List.prefix_refl _, .inl ⟨hlt, puts_getOrCreate hkey⟩⟩
  | poison =>
    have hsame : (cache.getOrCreate cluster).2 = cache.client cluster := by
      rw [Cache.getOrCreate_eq hkey]
    have hcontinues (connection : Connection) :
        (cache.client cluster).Continues { (cache.getOrCreate cluster).2 with connection } := by
      rw [hsame]
      exact ⟨rfl, rfl, rfl, Nat.le_refl _, Nat.le_refl _, Nat.le_refl _⟩
    exact ⟨List.prefix_append .., List.prefix_refl _,
      .inl ⟨hlt, (puts_getOrCreate hkey).put (hcontinues _)⟩⟩

theorem change_errand {k : Nat} {e : Errand} (hk : a.errands[k]? = some (some e))
    (h : s.errand cluster now cache a k e = some r) : Change cluster cache a r := by
  have hne : a.errands ≠ [] := by
    intro hnil
    simp [hnil] at hk
  unfold errand at h
  split at h
  next => cases h
  next q _ =>
    obtain rfl := Option.some.inj h
    exact ⟨List.prefix_append .., List.prefix_refl _, .inr ⟨⟨rfl, by simp⟩, .inl rfl⟩⟩
  next deeds heard _ =>
    have hcontinues := Client.continues_call (cache.client cluster) now s.draws e.call
      (heard.signal Simulation.Run.answer?)
    generalize (cache.client cluster).call now s.draws e.call _ = called at h hcontinues
    obtain rfl := Option.some.inj h
    have hputs : Puts cluster cache (cache.put called.1) := ⟨_, hcontinues, rfl⟩
    split
    · exact ⟨List.prefix_append .., List.prefix_append ..,
        .inr ⟨⟨rfl, List.length_set⟩, .inr ⟨hputs, .inl hne⟩⟩⟩
    · exact ⟨List.prefix_append .., List.prefix_refl _,
        .inr ⟨⟨rfl, List.length_set⟩, .inr ⟨hputs, .inl hne⟩⟩⟩

theorem exists_client {n : Nat} {x : Subscription}
    (h : (cache.client cluster).subscriptions[n]? = some x) :
    ∃ c, cache.clients[cluster]? = some c := by
  rw [Cache.client_eq] at h
  cases hc : cache.clients[cluster]? with
  | none => simp [hc, Client.new] at h
  | some c => exact ⟨c, rfl⟩

theorem change_produce {n : Nat} (h : s.produce cluster now cache a n = some r) :
    Change cluster cache a r := by
  unfold produce at h
  simp only at h
  split at h
  next => cases h
  next subscription hn =>
    split at h
    next => cases h
    next q _ =>
      obtain rfl := Option.some.inj h
      exact ⟨List.prefix_append .., List.prefix_refl _, .inr ⟨⟨rfl, rfl⟩, .inl rfl⟩⟩
    next deeds heard _ =>
      obtain rfl := Option.some.inj h
      exact ⟨List.prefix_append .., List.prefix_refl _,
        .inr ⟨⟨rfl, rfl⟩, .inr ⟨⟨_, Client.continues_produce .., rfl⟩, .inr (exists_client hn)⟩⟩⟩

theorem change_consume {n : Nat} {x : Client} (h : (cache.client cluster).consume n = some x) :
    Change cluster cache a (cache.put x, a) := by
  have hsubscription : ∃ subscription, (cache.client cluster).subscriptions[n]? =
      some subscription := by
    unfold Client.consume at h
    simp only [Option.bind_eq_bind, Option.bind_eq_some_iff] at h
    obtain ⟨subscription, hn, -⟩ := h
    exact ⟨subscription, hn⟩
  obtain ⟨subscription, hn⟩ := hsubscription
  exact ⟨List.prefix_refl _, List.prefix_refl _, .inr ⟨⟨rfl, rfl⟩,
    .inr ⟨⟨x, Client.continues_consume h, rfl⟩, .inr (exists_client hn)⟩⟩⟩

theorem change_act (hkey : (cache.client cluster).cluster = cluster) {actor : Actor}
    (h : s.act cluster now cache a actor = some r) : Change cluster cache a r := by
  cases actor with
  | owner =>
    cases hd : a.demands with
    | nil => simp [act, hd] at h
    | cons demand demands =>
      obtain ⟨time, d⟩ := demand
      by_cases htime : time ≤ now
      · simp only [act, hd, htime, if_true, Option.some.injEq] at h
        rw [← h]
        exact change_perform hkey demands d
      · simp [act, hd, htime] at h
  | errand k =>
    cases he : a.errands[k]? with
    | none => simp [act, he] at h
    | some e =>
      cases e with
      | none => simp [act, he] at h
      | some e =>
        simp only [act, he] at h
        exact change_errand he h
  | producer n => exact change_produce h
  | consumer n =>
    simp only [act, Option.map_eq_some_iff] at h
    obtain ⟨x, hx, rfl⟩ := h
    exact change_consume hx

theorem change_move (hkey : (cache.client cluster).cluster = cluster)
    (h : s.move cluster now cache a = some r) :
    Change cluster cache a r ∧ r.2.moves = a.moves + 1 := by
  simp only [move, Option.map_eq_some_iff] at h
  obtain ⟨⟨cache', a'⟩, hchosen, rfl⟩ := h
  obtain ⟨actor, -, hact⟩ := List.mem_filterMap.1 (List.mem_of_getElem? hchosen)
  obtain ⟨hdeeds, houtcomes, hcache⟩ := change_act hkey hact
  exact ⟨⟨hdeeds, houtcomes, hcache⟩, rfl⟩

theorem Puts.continues {cache' : Cache} (h : Puts cluster cache cache')
    (hkey : (cache.client cluster).cluster = cluster) (other : ClusterId) :
    (cache.client other).Continues (cache'.client other) := by
  obtain ⟨x, hx, rfl⟩ := h
  rw [Cache.client_put, hx.cluster.trans hkey]
  split
  · next he =>
    subst he
    exact hx
  · exact .refl _

theorem Puts.getElem?_self {cache' : Cache} (h : Puts cluster cache cache')
    (hkey : (cache.client cluster).cluster = cluster) : ∃ x, cache'.clients[cluster]? = some x := by
  obtain ⟨x, hx, rfl⟩ := h
  exact ⟨x, by rw [Cache.getElem?_put, if_pos (hx.cluster.trans hkey)]⟩

theorem Puts.getElem?_of_ne {cache' : Cache} (h : Puts cluster cache cache')
    (hkey : (cache.client cluster).cluster = cluster) {other : ClusterId} (hne : cluster ≠ other) :
    cache'.clients[other]? = cache.clients[other]? := by
  obtain ⟨x, hx, rfl⟩ := h
  rw [Cache.getElem?_put, if_neg (by rwa [hx.cluster.trans hkey])]

namespace Change

theorem same_or_puts (h : Change cluster cache a r) : r.1 = cache ∨ Puts cluster cache r.1 := by
  obtain ⟨-, hputs⟩ | ⟨-, hsame | ⟨hputs, -⟩⟩ := h.cache
  · exact .inr hputs
  · exact .inl hsame
  · exact .inr hputs

theorem continues (h : Change cluster cache a r) (hkey : (cache.client cluster).cluster = cluster)
    (other : ClusterId) : (cache.client other).Continues (r.1.client other) := by
  obtain hsame | hputs := h.same_or_puts
  · rw [hsame]
    exact .refl _
  · exact hputs.continues hkey other

theorem getElem?_of_ne (h : Change cluster cache a r)
    (hkey : (cache.client cluster).cluster = cluster) {other : ClusterId} (hne : cluster ≠ other) :
    r.1.clients[other]? = cache.clients[other]? := by
  obtain hsame | hputs := h.same_or_puts
  · rw [hsame]
  · exact hputs.getElem?_of_ne hkey hne

theorem only_of_ne (h : Change cluster cache a r)
    (hkey : (cache.client cluster).cluster = cluster) {other : ClusterId} (hne : cluster ≠ other) :
    r.1.only other = cache.only other := by
  obtain hsame | ⟨x, hx, hput⟩ := h.same_or_puts
  · rw [hsame]
  · rw [hput, Cache.only_put_of_ne]
    rwa [hx.cluster.trans hkey]

theorem present (h : Change cluster cache a r) (hkey : (cache.client cluster).cluster = cluster)
    {other : ClusterId} (hother : ∃ x, cache.clients[other]? = some x) :
    ∃ x, r.1.clients[other]? = some x := by
  by_cases hne : cluster = other
  · subst hne
    obtain hsame | hputs := h.same_or_puts
    · rwa [hsame]
    · exact hputs.getElem?_self hkey
  · rwa [h.getElem?_of_ne hkey hne]

end Change

end Surroundings

structure Part where
  now : Nat
  cache : Cache
  affairs : Affairs

namespace Part

def next (s : Surroundings) (cluster : ClusterId) (p : Part) : Part :=
  match s.move cluster p.now p.cache p.affairs with
  | some (cache, affairs) => ⟨p.now, cache, affairs⟩
  | none => { p with now := p.now + 1 }

variable {s : Surroundings} {cluster : ClusterId} {p q q' : Part}

structure Extends (cluster : ClusterId) (p q : Part) : Prop where
  now : p.now ≤ q.now
  client : (p.cache.client cluster).Continues (q.cache.client cluster)
  deeds : p.affairs.deeds <+: q.affairs.deeds
  outcomes : p.affairs.outcomes <+: q.affairs.outcomes

theorem Extends.refl (p : Part) : Extends cluster p p :=
  ⟨Nat.le_refl _, .refl _, List.prefix_refl _, List.prefix_refl _⟩

theorem Extends.trans (h : Extends cluster p q) (h' : Extends cluster q q') :
    Extends cluster p q' :=
  ⟨Nat.le_trans h.now h'.now, h.client.trans h'.client, h.deeds.trans h'.deeds,
    h.outcomes.trans h'.outcomes⟩

theorem extends_next (hkey : (p.cache.client cluster).cluster = cluster) :
    Extends cluster p (p.next s cluster) := by
  unfold next
  split
  next cache affairs hr =>
    obtain ⟨hchange, -⟩ := Surroundings.change_move hkey hr
    exact ⟨Nat.le_refl _, hchange.continues hkey cluster, hchange.deeds, hchange.outcomes⟩
  next => exact ⟨Nat.le_succ _, .refl _, List.prefix_refl _, List.prefix_refl _⟩

theorem extends_iterate (hkey : (p.cache.client cluster).cluster = cluster) (n : Nat) :
    Extends cluster p ((next s cluster)^[n] p) := by
  induction n generalizing p with
  | zero => exact .refl p
  | succ n ih =>
    have hnext : Extends cluster p (p.next s cluster) := extends_next hkey
    exact hnext.trans (ih (hnext.client.cluster.trans hkey))

end Part

namespace Fleet

variable {registry : RegistrySettings} {retry : RetrySettings}
  {around around' : ClusterId → Surroundings} {cluster : ClusterId} {s t t' : Fleet}

def part (s : Fleet) (cluster : ClusterId) : Part :=
  ⟨s.now, s.cache.only cluster, s.affairs cluster⟩

def Keyed (s : Fleet) : Prop := ∀ cluster, (s.cache.client cluster).cluster = cluster

theorem keyed_start : (start registry retry around).Keyed := by
  intro cluster
  simp [start, Cache.client, Cache.new, Client.new]

theorem Keyed.move (h : s.Keyed) {r : Cache × Affairs}
    (hr : (around cluster).move cluster s.now s.cache (s.affairs cluster) = some r) :
    (s.moved cluster r).Keyed := by
  intro other
  obtain ⟨hchange, -⟩ := Surroundings.change_move (h cluster) hr
  exact (hchange.continues (h cluster) other).cluster.trans (h other)

theorem Keyed.runs (h : s.Keyed) (hr : Runs around s t) : t.Keyed := by
  induction hr with
  | refl => exact h
  | move cluster _ hm ih => exact ih.move hm
  | tick _ _ ih => exact ih

theorem part_moved_of_ne {other : ClusterId} {r : Cache × Affairs} (hne : other ≠ cluster)
    (hkey : (s.cache.client other).cluster = other)
    (h : Surroundings.Change other s.cache (s.affairs other) r) :
    (s.moved other r).part cluster = s.part cluster := by
  have haffairs : (s.moved other r).affairs cluster = s.affairs cluster := by
    simp [moved, Ne.symm hne]
  simp only [part, haffairs]
  rw [← h.only_of_ne hkey hne]
  rfl

theorem next_of_moved {r : Cache × Affairs} (hkey : (s.cache.client cluster).cluster = cluster)
    (hr : (around cluster).move cluster s.now s.cache (s.affairs cluster) = some r) :
    (s.part cluster).next (around cluster) cluster = (s.moved cluster r).part cluster := by
  simp [Part.next, part, Surroundings.move_only hkey, hr, moved]

theorem next_of_rests (hkey : (s.cache.client cluster).cluster = cluster)
    (hr : s.Rests around cluster) :
    (s.part cluster).next (around cluster) cluster =
      { s with now := s.now + 1 }.part cluster := by
  simp [Part.next, part, Surroundings.move_only hkey, show _ = none from hr]

def age (s : Fleet) (cluster : ClusterId) : Nat := s.now + (s.affairs cluster).moves

theorem part_of_runs (h : Runs around (start registry retry around) s) (cluster : ClusterId) :
    s.part cluster = (Part.next (around cluster) cluster)^[s.age cluster]
      ((start registry retry around).part cluster) := by
  -- along the run: the cluster's own moves and the ticks are one more `next`, the rest is nothing
  induction h with
  | refl => rfl
  | @move t r other ht hr ih =>
    have hkeyed := keyed_start.runs ht
    obtain ⟨hchange, hmoves⟩ := Surroundings.change_move (hkeyed other) hr
    by_cases hne : other = cluster
    · subst hne
      have hage : (t.moved other r).age other = t.age other + 1 := by
        simp [age, moved, hmoves]
        omega
      rw [hage, Function.iterate_succ_apply', ← ih, next_of_moved (hkeyed other) hr]
    · have hage : (t.moved other r).age cluster = t.age cluster := by
        simp [age, moved, Ne.symm hne]
      rw [hage, ← ih]
      exact part_moved_of_ne hne (hkeyed other) hchange
  | @tick t ht hrests ih =>
    have hkeyed := keyed_start.runs ht
    have hage : { t with now := t.now + 1 }.age cluster = t.age cluster + 1 := by
      simp [age]
      omega
    rw [hage, Function.iterate_succ_apply', ← ih,
      next_of_rests (hkeyed cluster) (hrests cluster)]

theorem part_of_age_le (h : Runs around (start registry retry around) s)
    (h' : Runs around' (start registry retry around') t) (hsame : around cluster = around' cluster)
    (hage : s.age cluster ≤ t.age cluster) :
    t.part cluster = (Part.next (around cluster) cluster)^[t.age cluster - s.age cluster]
      (s.part cluster) := by
  have hstart : (start registry retry around').part cluster =
      (start registry retry around).part cluster := by
    simp [part, start, hsame]
  rw [part_of_runs h cluster, ← Function.iterate_add_apply, Nat.sub_add_cancel hage,
    part_of_runs h' cluster, hstart, hsame]

theorem client_part : ((s.part cluster).cache.client cluster) = s.cache.client cluster :=
  Cache.client_only _

theorem now_lt_of_age_lt (h : Runs around (start registry retry around) s)
    (h' : Runs around' (start registry retry around') t) (hsame : around cluster = around' cluster)
    (hrests : s.Rests around cluster) (hage : s.age cluster < t.age cluster) : s.now < t.now := by
  have hkey := keyed_start.runs h cluster
  have hpart := part_of_age_le h h' hsame (Nat.le_of_lt hage)
  obtain ⟨n, hn⟩ : ∃ n, t.age cluster - s.age cluster = n + 1 :=
    ⟨t.age cluster - s.age cluster - 1, by omega⟩
  rw [hn, Function.iterate_succ_apply, next_of_rests hkey hrests] at hpart
  have hlater := Part.extends_iterate (s := around cluster)
    (p := { s with now := s.now + 1 }.part cluster) (by rwa [client_part]) n
  rw [← hpart] at hlater
  exact hlater.now

/-- Nothing tells the cluster in one run from the cluster in the other: its client is the same, with
its connection and all that it has of models, and so are its results, its questions and the times of
both. -/
structure SameAt (cluster : ClusterId) (s t : Fleet) : Prop where
  client : s.cache.clients[cluster]? = t.cache.clients[cluster]?
  outcomes : (s.affairs cluster).outcomes = (t.affairs cluster).outcomes
  deeds : (s.affairs cluster).deeds = (t.affairs cluster).deeds

theorem sameAt_of_part (h : s.part cluster = t.part cluster) : SameAt cluster s t := by
  have haffairs : s.affairs cluster = t.affairs cluster := congrArg Part.affairs h
  have hcache : s.cache.only cluster = t.cache.only cluster := congrArg Part.cache h
  have hclient := congrArg (fun c : Cache => c.clients[cluster]?) hcache
  simp only [Cache.getElem?_only, if_true] at hclient
  exact ⟨hclient, by rw [haffairs], by rw [haffairs]⟩

theorem sameAt_of_age (h : Runs around (start registry retry around) s)
    (h' : Runs around' (start registry retry around') t) (hsame : around cluster = around' cluster)
    (hage : s.age cluster = t.age cluster) : SameAt cluster s t := by
  apply sameAt_of_part
  rw [part_of_age_le h h' hsame (Nat.le_of_eq hage), hage, Nat.sub_self]
  rfl

structure Independent (around around' : ClusterId → Surroundings) (cluster : ClusterId)
    (s t : Fleet) : Prop where
  rest : s.now = t.now → s.Rests around cluster → t.Rests around' cluster → SameAt cluster s t
  midway : s.now = t.now → (s.affairs cluster).moves = (t.affairs cluster).moves →
    SameAt cluster s t
  logs : ((s.affairs cluster).outcomes <+: (t.affairs cluster).outcomes ∧
      (s.affairs cluster).deeds <+: (t.affairs cluster).deeds) ∨
    ((t.affairs cluster).outcomes <+: (s.affairs cluster).outcomes ∧
      (t.affairs cluster).deeds <+: (s.affairs cluster).deeds)

theorem logs_of_age_le (h : Runs around (start registry retry around) s)
    (h' : Runs around' (start registry retry around') t) (hsame : around cluster = around' cluster)
    (hage : s.age cluster ≤ t.age cluster) :
    (s.affairs cluster).outcomes <+: (t.affairs cluster).outcomes ∧
      (s.affairs cluster).deeds <+: (t.affairs cluster).deeds := by
  have hlater := Part.extends_iterate (s := around cluster) (p := s.part cluster)
    (by rw [client_part]; exact keyed_start.runs h cluster) (t.age cluster - s.age cluster)
  rw [← part_of_age_le h h' hsame hage] at hlater
  exact ⟨hlater.outcomes, hlater.deeds⟩

theorem independent (h : Runs around (start registry retry around) s)
    (h' : Runs around' (start registry retry around') t)
    (hsame : around cluster = around' cluster) : Independent around around' cluster s t := by
  constructor
  · intro hnow hs ht
    rcases Nat.lt_trichotomy (s.age cluster) (t.age cluster) with hlt | heq | hgt
    · have := now_lt_of_age_lt h h' hsame hs hlt
      omega
    · exact sameAt_of_age h h' hsame heq
    · have := now_lt_of_age_lt h' h hsame.symm ht hgt
      omega
  · intro hnow hmoves
    apply sameAt_of_age h h' hsame
    rw [age, age, hnow, hmoves]
  · rcases Nat.le_total (s.age cluster) (t.age cluster) with hle | hle
    · exact .inl (logs_of_age_le h h' hsame hle)
    · exact .inr (logs_of_age_le h' h hsame.symm hle)

structure Held (s : Fleet) (cluster : ClusterId) : Prop where
  client : (∃ x, s.cache.clients[cluster]? = some x) ↔ 0 < (s.affairs cluster).performed
  errands : (s.affairs cluster).errands ≠ [] → 0 < (s.affairs cluster).performed

theorem held_start (cluster : ClusterId) : (start registry retry around).Held cluster := by
  constructor
  · simp [start, Cache.new, Affairs.start]
  · simp [start, Affairs.start]

theorem Held.own {r : Cache × Affairs} (h : s.Held cluster)
    (hkey : (s.cache.client cluster).cluster = cluster)
    (hr : Surroundings.Change cluster s.cache (s.affairs cluster) r) :
    (s.moved cluster r).Held cluster := by
  have haffairs : (s.moved cluster r).affairs cluster = r.2 := by simp [moved]
  have hcache : (s.moved cluster r).cache = r.1 := rfl
  obtain ⟨hlt, hputs⟩ | ⟨⟨hperformed, hlength⟩, hcase⟩ := hr.cache
  · have hpos : 0 < r.2.performed := by omega
    constructor
    · rw [haffairs, hcache]
      exact ⟨fun _ => hpos, fun _ => hputs.getElem?_self hkey⟩
    · rw [haffairs]
      exact fun _ => hpos
  · have herrands : r.2.errands ≠ [] → 0 < r.2.performed := by
      intro hne
      rw [hperformed]
      apply h.errands
      intro hnil
      rw [hnil] at hlength
      exact hne (List.eq_nil_of_length_eq_zero hlength)
    refine ⟨?_, by rwa [haffairs]⟩
    rw [haffairs, hcache, hperformed]
    obtain hsame | ⟨hputs, hold⟩ := hcase
    · rw [hsame]
      exact h.client
    · refine ⟨fun _ => ?_, fun _ => hputs.getElem?_self hkey⟩
      obtain hne | hclient := hold
      · exact h.errands hne
      · exact h.client.1 hclient

theorem Held.others {other : ClusterId} {r : Cache × Affairs} (h : s.Held cluster)
    (hne : other ≠ cluster) (hkey : (s.cache.client other).cluster = other)
    (hr : Surroundings.Change other s.cache (s.affairs other) r) :
    (s.moved other r).Held cluster := by
  have haffairs : (s.moved other r).affairs cluster = s.affairs cluster := by
    simp [moved, Ne.symm hne]
  have hclient : (s.moved other r).cache.clients[cluster]? = s.cache.clients[cluster]? :=
    hr.getElem?_of_ne hkey hne
  constructor
  · rw [haffairs, hclient]
    exact h.client
  · rw [haffairs]
    exact h.errands

theorem held_of_runs (h : Runs around (start registry retry around) s) (cluster : ClusterId) :
    s.Held cluster := by
  induction h with
  | refl => exact held_start cluster
  | @move t r other ht hr ih =>
    have hkeyed := keyed_start.runs ht
    obtain ⟨hchange, -⟩ := Surroundings.change_move (hkeyed other) hr
    by_cases hne : other = cluster
    · subst hne
      exact ih.own (hkeyed other) hchange
    · exact ih.others hne (hkeyed other) hchange
  | tick _ _ ih => exact ⟨ih.client, ih.errands⟩

theorem client_of_getElem? {cache : Cache} {x : Client} (h : cache.clients[cluster]? = some x) :
    cache.client cluster = x := by
  rw [Cache.client_eq, h]
  rfl

theorem kept_of_runs (hs : s.Keyed) {x : Client} (hx : s.cache.clients[cluster]? = some x)
    (h : Runs around s t) :
    ∃ y, t.cache.clients[cluster]? = some y ∧ x.Continues y := by
  induction h with
  | refl => exact ⟨x, hx, .refl x⟩
  | @move t r other ht hr ih =>
    have hkeyed := hs.runs ht
    obtain ⟨hchange, -⟩ := Surroundings.change_move (hkeyed other) hr
    obtain ⟨y, hy, hxy⟩ := ih
    obtain ⟨z, hz⟩ := hchange.present (hkeyed other) ⟨y, hy⟩
    have hyz := hchange.continues (hkeyed other) cluster
    rw [client_of_getElem? hy, client_of_getElem? hz] at hyz
    exact ⟨z, hz, hxy.trans hyz⟩
  | tick _ _ ih => exact ih

structure OnePerCluster (around : ClusterId → Surroundings) (s : Fleet) : Prop where
  asked : ∀ cluster, (∃ x, s.cache.clients[cluster]? = some x) ↔
    0 < (s.affairs cluster).performed
  own : ∀ (cluster : ClusterId) (x : Client), s.cache.clients[cluster]? = some x →
    x.cluster = cluster
  size : ∃ clusters : List ClusterId, clusters.Nodup ∧
    (∀ cluster, cluster ∈ clusters ↔ 0 < (s.affairs cluster).performed) ∧
      s.cache.size = clusters.length
  again : ∀ (cluster : ClusterId) (x : Client), s.cache.clients[cluster]? = some x →
    s.cache.getOrCreate cluster = (s.cache, x)
  kept : ∀ (cluster : ClusterId) (x : Client) (t : Fleet), s.cache.clients[cluster]? = some x →
    Runs around s t → ∃ y, t.cache.clients[cluster]? = some y ∧ x.Continues y

theorem onePerCluster (h : Runs around (start registry retry around) s) :
    OnePerCluster around s := by
  have hkeyed := keyed_start.runs h
  constructor
  · intro cluster
    exact (held_of_runs h cluster).client
  · intro cluster x hx
    rw [← client_of_getElem? hx]
    exact hkeyed cluster
  · refine ⟨s.cache.clients.keys, Std.ExtTreeMap.nodup_keys, ?_, ?_⟩
    · intro cluster
      rw [Std.ExtTreeMap.mem_keys, Std.ExtTreeMap.mem_iff_isSome_getElem?,
        Option.isSome_iff_exists]
      exact (held_of_runs h cluster).client
    · exact Std.ExtTreeMap.length_keys.symm
  · intro cluster x hx
    simp [Cache.getOrCreate, hx]
  · intro cluster x t hx ht
    exact kept_of_runs hkeyed hx ht

theorem Runs.apart (h : Runs around (start registry retry around) s)
    (h' : Runs around' (start registry retry around') t)
    (hsame : around cluster = around' cluster) :
    Independent around around' cluster s t ∧ OnePerCluster around s ∧ OnePerCluster around' t :=
  ⟨independent h h' hsame, onePerCluster h, onePerCluster h'⟩

def go (around : ClusterId → Surroundings) (s : Fleet) (cluster : ClusterId) : Fleet :=
  match (around cluster).move cluster s.now s.cache (s.affairs cluster) with
  | some r => s.moved cluster r
  | none => s

theorem runs_go (clusters : List ClusterId) (h : Runs around s t) :
    Runs around s (clusters.foldl (go around) t) := by
  induction clusters generalizing t with
  | nil => exact h
  | cons cluster clusters ih =>
    apply ih
    unfold go
    split
    next r hr => exact h.move cluster hr
    next => exact h

def calling : List (Nat × Demand) := [(0, .request .listAll)]

def silent : Surroundings := ⟨calling, fun _ _ _ => none, fun _ => 0, fun _ => 0⟩

def idle : Surroundings := { silent with demands := [] }

def served : Surroundings :=
  { silent with reply := fun deeds _ k =>
      match deeds[k]? with
      | some (_, .asked (.resolve _)) => some (.resolved (.ok "host"))
      | some (_, .asked (.dial _)) => some (.dialed (.ok 1))
      | some (_, .asked (.request _ _)) => some (.answered (.ok (.models [])))
      | _ => none }

def first : ClusterId := ⟨"a"⟩

def second : ClusterId := ⟨"b"⟩

def amid (s : Surroundings) (cluster : ClusterId) : Surroundings :=
  if cluster = first then served else s

def amidst (s : Surroundings) (clusters : List ClusterId) : Fleet :=
  clusters.foldl (go (amid s)) (start .default .default (amid s))

theorem apart_amid : ∃ s t : Fleet, Runs (amid silent) (start .default .default (amid silent)) s ∧
    Runs (amid idle) (start .default .default (amid idle)) t ∧
    s.now = t.now ∧ s.Rests (amid silent) first ∧ t.Rests (amid idle) first ∧
    (s.affairs first).outcomes.length = 1 ∧ (s.affairs first).deeds.length = 3 ∧
    s.cache.size = 2 ∧ t.cache.size = 1 ∧ SameAt first s t := by
  let turns := [first, second, first, first, second, first, first, second, first, first, first]
  let own := turns.filter (· = first)
  have hs : Runs (amid silent) (start .default .default (amid silent)) (amidst silent turns) :=
    runs_go turns .refl
  have ht : Runs (amid idle) (start .default .default (amid idle)) (amidst idle own) :=
    runs_go own .refl
  have hrest : (amidst silent turns).Rests (amid silent) first :=
    Option.isNone_iff_eq_none.1 (by decide +kernel)
  have hrest' : (amidst idle own).Rests (amid idle) first :=
    Option.isNone_iff_eq_none.1 (by decide +kernel)
  have hnow : (amidst silent turns).now = (amidst idle own).now := by decide +kernel
  have hsame : amid silent first = amid idle first := rfl
  obtain ⟨hindependent, -, -⟩ := hs.apart ht hsame
  exact ⟨_, _, hs, ht, hnow, hrest, hrest', by decide +kernel, by decide +kernel,
    by decide +kernel, by decide +kernel, hindependent.rest hnow hrest hrest'⟩

end Fleet

end ModelRegistry
