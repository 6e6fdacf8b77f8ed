import ModelRegistry.Proofs.Independence
import ModelRegistry.Proofs.Sessions

namespace ModelRegistry

namespace Client

variable {c : Client} {model : ModelId}

theorem mem_trackedModels : model ∈ c.trackedModels ↔ ∃ n, c.tracked[model]? = some n := by
  rw [trackedModels, Std.ExtTreeMap.mem_keys, Std.ExtTreeMap.mem_iff_isSome_getElem?,
    Option.isSome_iff_exists]

theorem Tracks.lookup_of_mem (h : c.Tracks) (hm : model ∈ c.trackedModels) :
    ∃ r, ∀ runtime, c.lookup runtime model = .ok (c, r) := by
  obtain ⟨n, hn⟩ := mem_trackedModels.1 hm
  obtain ⟨s, hs, -⟩ := h.known model n hn
  exact ⟨s.replica, fun runtime => by simp [Client.lookup, subscription?, hn, hs]⟩

theorem lookup_of_not_mem (hm : model ∉ c.trackedModels) (runtime : Bool) :
    c.lookup runtime model =
      if runtime then .ok (c.subscribe model, .new model) else .error noRuntime := by
  have hnone : c.tracked[model]? = none := by
    rw [Option.eq_none_iff_forall_ne_some]
    intro n hn
    exact hm (mem_trackedModels.2 ⟨n, hn⟩)
  simp [lookup, subscription?, hnone]

theorem Tracks.subscribe (h : c.Tracks) (hm : model ∉ c.trackedModels) :
    (c.subscribe model).Tracks :=
  h.lookup (lookup_of_not_mem hm true)

structure Begins (model : ModelId) (c c' : Client) : Prop where
  started : c'.started = c.started + 1
  subscriptions : c'.subscriptions = c.subscriptions.push (.start c.retry model)
  tracked : ∀ m, m ∈ c'.trackedModels ↔ m = model ∨ m ∈ c.trackedModels
  connection : c'.connection = c.connection

theorem begins_subscribe (c : Client) (model : ModelId) : Begins model c (c.subscribe model) := by
  refine ⟨rfl, rfl, ?_, rfl⟩
  intro m
  rw [trackedModels, trackedModels, subscribe, Std.ExtTreeMap.mem_keys, Std.ExtTreeMap.mem_keys,
    Std.ExtTreeMap.mem_insert, Std.LawfulEqOrd.compare_eq_iff_eq, eq_comm]

end Client

namespace Cache

variable {c : Cache} {cluster : ClusterId} {model : ModelId}

structure Sound (c : Cache) : Prop where
  keyed : ∀ cluster, (c.client cluster).cluster = cluster
  tracks : ∀ cluster, (c.client cluster).Tracks
  makes : ∀ cluster, (c.client cluster).registry.MakesChannel

theorem sound_new {registry : RegistrySettings} (hmade : registry.MakesChannel)
    (retry : RetrySettings) : (new registry retry).Sound := by
  have hclient (cluster : ClusterId) :
      (new registry retry).client cluster = .new cluster registry retry := by
    simp [client, new]
  constructor
  · intro cluster
    rw [hclient]
    rfl
  · intro cluster
    rw [hclient]
    exact Client.tracks_new ..
  · intro cluster
    rw [hclient]
    exact hmade

theorem Sound.put (h : c.Sound) {x : Client} (hx : x.Tracks) (hmakes : x.registry.MakesChannel) :
    (c.put x).Sound := by
  constructor
  · intro other
    rw [client_put]
    split
    · assumption
    · exact h.keyed other
  · intro other
    rw [client_put]
    split
    · exact hx
    · exact h.tracks other
  · intro other
    rw [client_put]
    split
    · exact hmakes
    · exact h.makes other

theorem Sound.getOrCreate (h : c.Sound) (cluster : ClusterId) :
    (c.getOrCreate cluster).1.Sound := by
  rw [getOrCreate_eq (h.keyed cluster)]
  exact h.put (h.tracks cluster) (h.makes cluster)

theorem Sound.resolveAddresses_of_mem (h : c.Sound)
    (hm : model ∈ (c.client cluster).trackedModels) (want : Nat) (draw : Draws) :
    ∃ addresses, ∀ runtime, c.resolveAddresses runtime cluster model want draw =
      (c.put (c.client cluster), .ok addresses) := by
  obtain ⟨r, hr⟩ := (h.tracks cluster).lookup_of_mem hm
  refine ⟨r.sample want draw, fun runtime => ?_⟩
  simp only [resolveAddresses, getOrCreate_eq (h.keyed cluster), Client.resolveAddresses, hr]
  exact congrArg (·, _) (c.put_put rfl)

theorem Sound.resolveAddresses_of_not_mem (h : c.Sound)
    (hm : model ∉ (c.client cluster).trackedModels) (runtime : Bool) (want : Nat) (draw : Draws) :
    c.resolveAddresses runtime cluster model want draw =
      if runtime then
        (c.put ((c.client cluster).subscribe model), .ok ((Replica.new model).sample want draw))
      else (c.put (c.client cluster), .error Client.noRuntime) := by
  simp only [resolveAddresses, getOrCreate_eq (h.keyed cluster), Client.resolveAddresses,
    Client.lookup_of_not_mem hm]
  cases runtime with
  | false => rfl
  | true => exact congrArg (·, _) (c.put_put rfl)

end Cache

namespace Surroundings

variable {s : Surroundings} {cluster : ClusterId} {now : Nat} {cache : Cache} {a : Affairs}
  {r : Cache × Affairs}

theorem sound_perform (h : cache.Sound) (d : Demand) : (perform cluster now cache a d).1.Sound := by
  cases d with
  | openClient => exact h.getOrCreate cluster
  | resolve runtime model want draw =>
    rw [perform]
    by_cases hm : model ∈ (cache.client cluster).trackedModels
    · obtain ⟨addresses, heq⟩ := h.resolveAddresses_of_mem hm want draw
      rw [heq]
      exact h.put (h.tracks cluster) (h.makes cluster)
    · rw [h.resolveAddresses_of_not_mem hm]
      cases runtime with
      | false => exact h.put (h.tracks cluster) (h.makes cluster)
      | true => exact h.put ((h.tracks cluster).subscribe hm) (h.makes cluster)
  | request q => exact h.getOrCreate cluster
  | poison =>
    have hsame : (cache.getOrCreate cluster).2 = cache.client cluster := by
      rw [Cache.getOrCreate_eq (h.keyed cluster)]
    have htracks := h.tracks cluster
    have hmakes := h.makes cluster
    rw [← hsame] at htracks hmakes
    exact (h.getOrCreate cluster).put ⟨htracks.kept, htracks.known⟩ hmakes

theorem sound_errand (h : cache.Sound) {k : Nat} {e : Errand}
    (hr : s.errand cluster now cache a k e = some r) : r.1.Sound := by
  unfold errand at hr
  split at hr
  next => cases hr
  next =>
    obtain rfl := Option.some.inj hr
    exact h
  next =>
    obtain rfl := Option.some.inj hr
    exact h.put ⟨(h.tracks cluster).kept, (h.tracks cluster).known⟩ (h.makes cluster)

theorem sound_produce (h : cache.Sound) {n : Nat} (hr : s.produce cluster now cache a n = some r) :
    r.1.Sound := by
  unfold produce at hr
  simp only at hr
  split at hr
  next => cases hr
  next =>
    split at hr
    next => cases hr
    next =>
      obtain rfl := Option.some.inj hr
      exact h
    next =>
      obtain rfl := Option.some.inj hr
      have hcontinues := Client.continues_produce (cache.client cluster) now s.draws n
      exact h.put (Client.tracks_produce (h.tracks cluster) ..)
        ((hcontinues _).registry ▸ h.makes cluster)

theorem sound_act (h : cache.Sound) {actor : Actor}
    (hr : s.act cluster now cache a actor = some r) :
    r.1.Sound := by
  cases actor with
  | owner =>
    simp only [act] at hr
    split at hr
    next =>
      split at hr
      next =>
        obtain rfl := Option.some.inj hr
        exact sound_perform h _
      next => cases hr
    next => cases hr
  | errand k =>
    simp only [act] at hr
    split at hr
    next => exact sound_errand h hr
    next => cases hr
  | producer n => exact sound_produce h hr
  | consumer n =>
    obtain ⟨x, hx, rfl⟩ := Option.map_eq_some_iff.1 hr
    exact h.put (Client.tracks_consume (h.tracks cluster) hx)
      ((Client.continues_consume hx).registry ▸ h.makes cluster)

theorem sound_move (h : cache.Sound) (hr : s.move cluster now cache a = some r) : r.1.Sound := by
  obtain ⟨⟨cache', a'⟩, hchosen, rfl⟩ := Option.map_eq_some_iff.1 hr
  obtain ⟨actor, -, hact⟩ := List.mem_filterMap.1 (List.mem_of_getElem? hchosen)
  have hsound := sound_act h hact
  exact hsound

end Surroundings

namespace Fleet

def asked (s : Fleet) (cluster : ClusterId) (d : Demand) : Fleet :=
  let a := s.affairs cluster
  s.moved cluster
    (Surroundings.perform cluster s.now s.cache { a with performed := a.performed + 1 } d)

def abandoned (s : Fleet) (cluster : ClusterId) (k : Nat) (e : Errand) : Fleet :=
  let a := s.affairs cluster
  let c := s.cache.client cluster
  s.moved cluster (s.cache.put { c with connection := e.call.cancel c.connection },
    { a with errands := a.errands.set k none })

/-- What may come of a fleet when anything is asked for at any time, by lookups that are made where
tasks can run or where none can, and the surroundings are such at one time and others at another. -/
inductive Becomes (s : Fleet) : Fleet → Prop
  | refl : Becomes s s
  | ask {t : Fleet} (cluster : ClusterId) (d : Demand) : Becomes s t → Becomes s (t.asked cluster d)
  | abandon {t : Fleet} (cluster : ClusterId) {k : Nat} {e : Errand} : Becomes s t →
      (t.affairs cluster).errands[k]? = some (some e) → Becomes s (t.abandoned cluster k e)
  | run {t u : Fleet} (around : ClusterId → Surroundings) : Becomes s t → Runs around t u →
      Becomes s u

variable {registry : RegistrySettings} {retry : RetrySettings}
  {around : ClusterId → Surroundings} {s t u : Fleet} {cluster : ClusterId}

theorem Becomes.trans (h : s.Becomes t) (h' : t.Becomes u) : s.Becomes u := by
  induction h' with
  | refl => exact h
  | ask cluster d _ ih => exact ih.ask cluster d
  | abandon cluster _ he ih => exact ih.abandon cluster he
  | run around _ hr ih => exact ih.run around hr

theorem sound_of_runs (h : s.cache.Sound) (hr : Runs around s t) : t.cache.Sound := by
  induction hr with
  | refl => exact h
  | move cluster _ hm ih => exact Surroundings.sound_move ih hm
  | tick _ _ ih => exact ih

theorem sound_of_becomes (h : s.cache.Sound) (hb : s.Becomes t) : t.cache.Sound := by
  induction hb with
  | refl => exact h
  | ask cluster d _ ih => exact Surroundings.sound_perform ih d
  | abandon cluster _ _ ih =>
    exact ih.put ⟨(ih.tracks cluster).kept, (ih.tracks cluster).known⟩ (ih.makes cluster)
  | run _ _ hr ih => exact sound_of_runs ih hr

structure OnlyOpens (cluster : ClusterId) (s t : Fleet) : Prop where
  now : t.now = s.now
  client : t.cache.clients[cluster]? = some (s.cache.client cluster)
  opened : s.cache.clients[cluster]? = none →
    t.cache.clients[cluster]? = some (.new cluster s.cache.registry s.cache.retry)
  others : ∀ other, other ≠ cluster → t.cache.clients[other]? = s.cache.clients[other]?
  deeds : ∀ other, (t.affairs other).deeds = (s.affairs other).deeds
  errands : ∀ other, (t.affairs other).errands = (s.affairs other).errands
  questions : ∀ other, (t.affairs other).questions = (s.affairs other).questions

structure LooksUp (s : Fleet) (cluster : ClusterId) (model : ModelId) : Prop where
  made : ∀ runtime, (s.cache.client cluster).checkedLookup runtime model =
    some ((s.cache.client cluster).lookup runtime model)
  fails_iff : ∀ runtime want draw,
    (∃ e, (s.cache.resolveAddresses runtime cluster model want draw).2 = .error e) ↔
      runtime = false ∧ model ∉ (s.cache.client cluster).trackedModels
  internal : ∀ runtime want draw e,
    (s.cache.resolveAddresses runtime cluster model want draw).2 = .error e → e.kind = .internal
  fails : model ∉ (s.cache.client cluster).trackedModels → ∀ want draw,
    OnlyOpens cluster s (s.asked cluster (.resolve false model want draw))
  begins : model ∉ (s.cache.client cluster).trackedModels → ∀ want draw,
    Client.Begins model (s.cache.client cluster)
      ((s.asked cluster (.resolve true model want draw)).cache.client cluster)
  once : model ∈ (s.cache.client cluster).trackedModels → ∀ runtime want draw,
    OnlyOpens cluster s (s.asked cluster (.resolve runtime model want draw))

theorem onlyOpens_asked {model : ModelId} {want : Nat} {draw : Draws} {runtime : Bool}
    {found : Except Error (List String)} (h : s.cache.Sound)
    (hr : s.cache.resolveAddresses runtime cluster model want draw =
      (s.cache.put (s.cache.client cluster), found)) :
    OnlyOpens cluster s (s.asked cluster (.resolve runtime model want draw)) := by
  have hcache : (s.asked cluster (.resolve runtime model want draw)).cache =
      s.cache.put (s.cache.client cluster) := congrArg Prod.fst hr
  have hclient : (s.cache.put (s.cache.client cluster)).clients[cluster]? =
      some (s.cache.client cluster) := by
    rw [Cache.getElem?_put, if_pos (h.keyed cluster)]
  constructor
  · rfl
  · rw [hcache, hclient]
  · intro hnone
    rw [hcache, hclient, Cache.client_eq, hnone]
    rfl
  · intro other hne
    rw [hcache, Cache.getElem?_put, if_neg]
    rw [h.keyed cluster]
    exact hne.symm
  all_goals
    intro other
    simp only [asked, moved]
    split
    · subst other
      rfl
    · rfl

theorem looksUp_of_mem {model : ModelId} (h : s.cache.Sound)
    (hm : model ∈ (s.cache.client cluster).trackedModels) : s.LooksUp cluster model := by
  constructor
  · exact fun runtime => Client.checkedLookup_eq (h.makes cluster) runtime model
  · intro runtime want draw
    obtain ⟨addresses, heq⟩ := h.resolveAddresses_of_mem hm want draw
    simp [heq, hm]
  · intro runtime want draw e he
    obtain ⟨addresses, heq⟩ := h.resolveAddresses_of_mem hm want draw
    rw [heq] at he
    cases he
  · intro hno
    exact absurd hm hno
  · intro hno
    exact absurd hm hno
  · intro _ runtime want draw
    obtain ⟨addresses, heq⟩ := h.resolveAddresses_of_mem hm want draw
    exact onlyOpens_asked h (heq runtime)

theorem looksUp_of_not_mem {model : ModelId} (h : s.cache.Sound)
    (hm : model ∉ (s.cache.client cluster).trackedModels) : s.LooksUp cluster model := by
  have heq := h.resolveAddresses_of_not_mem hm
  constructor
  · exact fun runtime => Client.checkedLookup_eq (h.makes cluster) runtime model
  · intro runtime want draw
    cases runtime <;> simp [heq, hm]
  · intro runtime want draw e he
    rw [heq] at he
    cases runtime with
    | false =>
      obtain rfl := Except.error.inj he
      rfl
    | true => cases he
  · intro _ want draw
    exact onlyOpens_asked h (heq false want draw)
  · intro _ want draw
    have hcache : (s.asked cluster (.resolve true model want draw)).cache =
        s.cache.put ((s.cache.client cluster).subscribe model) :=
      congrArg Prod.fst (heq true want draw)
    rw [hcache, Cache.client_put, if_pos]
    · exact Client.begins_subscribe ..
    · exact h.keyed cluster
  · intro hyes
    exact absurd hyes hm

theorem looksUp_of_sound (h : s.cache.Sound) (cluster : ClusterId) (model : ModelId) :
    s.LooksUp cluster model := by
  by_cases hm : model ∈ (s.cache.client cluster).trackedModels
  · exact looksUp_of_mem h hm
  · exact looksUp_of_not_mem h hm

structure FailsCleanly (s : Fleet) (cluster : ClusterId) (model : ModelId) (want : Nat)
    (draw : Draws) : Prop where
  now : s.LooksUp cluster model
  next : model ∉ (s.cache.client cluster).trackedModels → ∀ want' draw',
    Client.Begins model (s.cache.client cluster)
      (((s.asked cluster (.resolve false model want draw)).asked cluster
        (.resolve true model want' draw')).cache.client cluster)
  later : ∀ t, (s.asked cluster (.resolve false model want draw)).Becomes t →
    t.LooksUp cluster model

/-- A lookup fails only for want of a place to run the watch that it has to start, it leaves no
trace then, and the next one that has such a place starts the watch. -/
theorem Becomes.failsCleanly (h : (start registry retry around).Becomes s)
    (hmade : registry.MakesChannel) (cluster : ClusterId) (model : ModelId) (want : Nat)
    (draw : Draws) : s.FailsCleanly cluster model want draw := by
  have hsound := sound_of_becomes (Cache.sound_new hmade retry) h
  have hnow := looksUp_of_sound hsound cluster model
  have hlater (t : Fleet) (ht : (s.asked cluster (.resolve false model want draw)).Becomes t) :
      t.LooksUp cluster model :=
    looksUp_of_sound (sound_of_becomes hsound ((Becomes.refl.ask cluster _).trans ht)) ..
  refine ⟨hnow, ?_, hlater⟩
  intro hm want' draw'
  have hsame := client_of_getElem? (hnow.fails hm want draw).client
  have hbegins := (hlater _ .refl).begins
  rw [hsame] at hbegins
  exact hbegins hm want' draw'

def watching : Fleet :=
  (List.replicate 5 first).foldl (go fun _ => served)
    ((start .default .default fun _ => idle).asked first (.resolve true ⟨"lm"⟩ 1 fun _ => 0))

theorem becomes_watching : (start .default .default fun _ => idle).Becomes watching :=
  (Becomes.refl.ask first _).run _ (runs_go _ .refl)

theorem failsCleanly_watching :
    (start .default .default fun _ => idle).Becomes watching ∧
      RegistrySettings.default.MakesChannel ∧ (watching.cache.client first).connection = .ready 1 ∧
      (watching.cache.client first).trackedModels = [⟨"lm"⟩] ∧
      watching.FailsCleanly first ⟨"other"⟩ 3 (fun _ => 0) :=
  ⟨becomes_watching, by decide, by decide +kernel, by decide +kernel,
    becomes_watching.failsCleanly (by decide) ..⟩

end Fleet

end ModelRegistry
