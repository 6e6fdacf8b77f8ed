import ModelRegistry.Simulation.Move

/-!
The clients of any number of clusters in one process, with collaborators that answer each cluster
from its own questions alone. Those that can move do so one at a time, and time passes when none
can. What a cluster can do does not depend on what the cache knows of others.
-/

namespace ModelRegistry

open Simulation (Wait Heard Cause)

namespace Cache

variable (c : Cache) {cluster other : ClusterId} {x : Client}

theorem getElem?_put : (c.put x).clients[other]? =
    if x.cluster = other then some x else c.clients[other]? := by
  rw [put, Std.ExtTreeMap.getElem?_insert]
  simp only [Std.LawfulEqOrd.compare_eq_iff_eq]

def only (cluster : ClusterId) (c : Cache) : Cache :=
  { c with clients := match c.clients[cluster]? with
    | some x => Std.ExtTreeMap.empty.insert cluster x
    | none => ∅ }

theorem getElem?_only : (c.only cluster).clients[other]? =
    if cluster = other then c.clients[cluster]? else none := by
  unfold only
  cases c.clients[cluster]? with
  | none => simp
  | some x =>
    rw [Std.ExtTreeMap.getElem?_insert]
    simp only [Std.LawfulEqOrd.compare_eq_iff_eq]
    rfl

theorem eq_of_getElem? {c c' : Cache} (hregistry : c.registry = c'.registry)
    (hretry : c.retry = c'.retry)
    (h : ∀ cluster : ClusterId, c.clients[cluster]? = c'.clients[cluster]?) : c = c' := by
  obtain ⟨registry, retry, clients⟩ := c
  obtain ⟨registry', retry', clients'⟩ := c'
  obtain rfl : registry = registry' := hregistry
  obtain rfl : retry = retry' := hretry
  obtain rfl : clients = clients' := Std.ExtTreeMap.ext_getElem? h
  rfl

theorem client_eq : c.client cluster =
    (c.clients[cluster]?).getD (.new cluster c.registry c.retry) :=
  Std.ExtTreeMap.getD_eq_getD_getElem? ..

theorem client_only : (c.only cluster).client cluster = c.client cluster := by
  rw [client_eq, client_eq, getElem?_only, if_pos rfl]
  rfl

theorem only_put (hx : x.cluster = cluster) : (c.put x).only cluster = (c.only cluster).put x := by
  refine eq_of_getElem? rfl rfl fun other => ?_
  rw [getElem?_only, getElem?_put, getElem?_put, getElem?_only, hx, if_pos rfl]
  split <;> rfl

theorem only_put_of_ne (hx : x.cluster ≠ cluster) : (c.put x).only cluster = c.only cluster := by
  refine eq_of_getElem? rfl rfl fun other => ?_
  rw [getElem?_only, getElem?_put, getElem?_only, if_neg hx]

theorem put_put {y : Client} (h : y.cluster = x.cluster) : (c.put x).put y = c.put y := by
  refine eq_of_getElem? rfl rfl fun other => ?_
  rw [getElem?_put, getElem?_put, getElem?_put, h]
  split <;> rfl

variable {c}

theorem getOrCreate_eq (hkey : (c.client cluster).cluster = cluster) :
    c.getOrCreate cluster = (c.put (c.client cluster), c.client cluster) := by
  rw [client_eq] at hkey ⊢
  unfold getOrCreate
  cases h : c.clients[cluster]? with
  | none => rfl
  | some x =>
    rw [h] at hkey
    have hsame : c.put x = c := by
      refine eq_of_getElem? rfl rfl fun other => ?_
      rw [getElem?_put]
      split
      · next he => rw [← he, show x.cluster = cluster from hkey, h]
      · rfl
    simp [hsame]

theorem getOrCreate_only (hkey : (c.client cluster).cluster = cluster) :
    (c.only cluster).getOrCreate cluster =
      ((c.getOrCreate cluster).1.only cluster, (c.getOrCreate cluster).2) := by
  rw [getOrCreate_eq hkey, getOrCreate_eq (by rwa [client_only]), client_only, only_put c hkey]

end Cache

namespace Client

structure Continues (c c' : Client) : Prop where
  cluster : c'.cluster = c.cluster
  registry : c'.registry = c.registry
  retry : c'.retry = c.retry
  drawn : c.drawn ≤ c'.drawn
  started : c.started ≤ c'.started
  subscriptions : c.subscriptions.size ≤ c'.subscriptions.size

theorem Continues.refl (c : Client) : c.Continues c :=
  ⟨rfl, rfl, rfl, Nat.le_refl _, Nat.le_refl _, Nat.le_refl _⟩

theorem Continues.trans {c c' c'' : Client} (h : c.Continues c') (h' : c'.Continues c'') :
    c.Continues c'' :=
  ⟨h'.cluster.trans h.cluster, h'.registry.trans h.registry, h'.retry.trans h.retry,
    Nat.le_trans h.drawn h'.drawn, Nat.le_trans h.started h'.started,
    Nat.le_trans h.subscriptions h'.subscriptions⟩

theorem continues_call (c : Client) (now : Nat) (draws : Draws) (k : Call Answer)
    (signal : Call.Signal Answer) : c.Continues (c.call now draws k signal).1 :=
  ⟨rfl, rfl, rfl, Nat.le_succ _, Nat.le_refl _, Nat.le_refl _⟩

theorem continues_produce (c : Client) (now : Nat) (draws : Draws) (n : Nat)
    (signal : Call.Signal Response) : c.Continues (c.produce now draws n signal) := by
  unfold produce
  split
  · exact .refl c
  · exact ⟨rfl, rfl, rfl, Nat.le_succ _, Nat.le_refl _, by simp⟩

theorem continues_consume {c c' : Client} {n : Nat} (h : c.consume n = some c') :
    c.Continues c' := by
  unfold consume at h
  simp only [Option.bind_eq_bind, Option.bind_eq_some_iff] at h
  obtain ⟨s, -, ⟨u, s'⟩, -, h⟩ := h
  cases u with
  | batch b =>
    obtain rfl := Option.some.inj h
    exact ⟨rfl, rfl, rfl, Nat.le_refl _, Nat.le_refl _, by simp⟩
  | gone e =>
    obtain rfl := Option.some.inj h
    split
    · exact ⟨rfl, rfl, rfl, Nat.le_refl _, Nat.le_refl _, by simp⟩
    · exact ⟨rfl, rfl, rfl, Nat.le_refl _, Nat.le_refl _, by simp⟩

theorem continues_lookup {c c' : Client} {runtime : Bool} {model : ModelId} {r : Replica}
    (h : c.lookup runtime model = .ok (c', r)) : c.Continues c' := by
  unfold lookup at h
  split at h
  · cases h
    exact .refl c
  · split at h
    · cases h
      exact ⟨rfl, rfl, rfl, Nat.le_refl _, Nat.le_succ _, by simp [subscribe]⟩
    · cases h

theorem continues_resolveAddresses {c c' : Client} {runtime : Bool} {model : ModelId} {want : Nat}
    {draw : Draws} {addresses : List String}
    (h : c.resolveAddresses runtime model want draw = .ok (c', addresses)) : c.Continues c' := by
  unfold resolveAddresses at h
  cases hl : c.lookup runtime model with
  | error e => simp [hl, bind, Except.bind] at h
  | ok r =>
    obtain ⟨c'', replica⟩ := r
    obtain ⟨rfl, -⟩ : c'' = c' ∧ _ := by
      simpa [hl, bind, Except.bind, pure, Except.pure] using h
    exact continues_lookup hl

end Client

inductive Demand
  | openClient
  | resolve (runtime : Bool) (model : ModelId) (want : Nat) (draw : Draws)
  | request (r : Request)
  | poison

inductive Deed
  | asked (q : Query)
  | dropped (question : Nat)
  | closed (link : Link)

inductive Outcome
  | opened
  | found (r : Except Error (List String))
  | answered (errand : Nat) (r : Except Error Answer)

structure Errand where
  request : Request
  call : Call Answer
  question : Option Nat

structure Affairs where
  demands : List (Nat × Demand)
  performed : Nat
  errands : List (Option Errand)
  questions : Std.ExtTreeMap Nat Nat
  deeds : List (Nat × Deed)
  outcomes : List (Nat × Outcome)
  moves : Nat

/-- What a cluster meets with: the demands on its client, the replies to its questions, and chance,
which also decides who moves next. -/
structure Surroundings where
  demands : List (Nat × Demand)
  reply : List (Nat × Deed) → Nat → Nat → Option Reply
  draws : Draws
  order : Draws

inductive Actor
  | owner
  | errand (k : Nat)
  | producer (n : Nat)
  | consumer (n : Nat)

inductive Turn
  | rests
  | asks (q : Query)
  | hears (deeds : List Deed) (h : Heard)

namespace Affairs

def start (demands : List (Nat × Demand)) : Affairs := ⟨demands, 0, [], ∅, [], [], 0⟩

def note (a : Affairs) (now : Nat) (deeds : List Deed) : Affairs :=
  { a with deeds := a.deeds ++ deeds.map (now, ·) }

def tell (a : Affairs) (now : Nat) (o : Outcome) : Affairs :=
  { a with outcomes := a.outcomes ++ [(now, o)] }

def actors (a : Affairs) (c : Client) : List Actor :=
  .owner :: ((List.range a.errands.length).map .errand ++
    (List.range c.subscriptions.size).flatMap fun n => [.producer n, .consumer n])

end Affairs

namespace Surroundings

variable (s : Surroundings) (cluster : ClusterId) (now : Nat) (cache : Cache) (a : Affairs)

def turn (question : Option Nat) : Wait → Turn
  | .nothing => .hears [] .proceed
  | .close link => .hears [.closed link] .proceed
  | .reply q limits =>
    match question with
    | none => .asks q
    | some k =>
      match s.reply a.deeds now k with
      | some r => .hears [] (.reply r)
      | none =>
        match limits.find? (fun l => l.2 ≤ now) with
        | some (cause, _) => .hears [.dropped k] (.limit cause)
        | none => .rests
  | .clock due => if due ≤ now then .hears [] .proceed else .rests
  | .idle | .ended => .rests

def perform : Demand → Cache × Affairs
  | .openClient => ((cache.getOrCreate cluster).1, a.tell now .opened)
  | .resolve runtime model want draw =>
    let (cache, r) := cache.resolveAddresses runtime cluster model want draw
    (cache, a.tell now (.found r))
  | .request r =>
    let (cache, c) := cache.getOrCreate cluster
    let call := .start c.retry (some (c.adminDeadline now))
    (cache, { a with errands := a.errands ++ [some ⟨r, call, none⟩] })
  | .poison =>
    let (cache, c) := cache.getOrCreate cluster
    let (connection, discarded) := c.connection.discard (fun _ => true)
    (cache.put { c with connection }, a.note now (discarded.toList.map .closed))

def errand (k : Nat) (e : Errand) : Option (Cache × Affairs) :=
  match s.turn now a e.question
      (Wait.ofCall cluster (fun link => .request link e.request) e.call) with
  | .rests => none
  | .asks q =>
    let e := { e with question := some a.deeds.length }
    some (cache, { a.note now [.asked q] with errands := a.errands.set k (some e) })
  | .hears deeds h =>
    let (c, call) := (cache.client cluster).call now s.draws e.call
      (h.signal Simulation.Run.answer?)
    let a := a.note now deeds
    some (cache.put c, match call.stage with
      | .finished result =>
        { a with errands := a.errands.set k none }.tell now
          (.answered k (result.bind e.request.conclude))
      | _ => { a with errands := a.errands.set k (some ⟨e.request, call, none⟩) })

def produce (n : Nat) : Option (Cache × Affairs) :=
  let c := cache.client cluster
  match c.subscriptions[n]? with
  | none => none
  | some subscription =>
    match s.turn now a a.questions[n]? (Wait.ofProducer c subscription) with
    | .rests => none
    | .asks q =>
      some (cache, { a.note now [.asked q] with
        questions := a.questions.insert n a.deeds.length })
    | .hears deeds h =>
      some (cache.put (c.produce now s.draws n (h.signal Simulation.Run.response?)),
        { a.note now deeds with questions := a.questions.erase n })

def act : Actor → Option (Cache × Affairs)
  | .owner =>
    match a.demands with
    | (time, d) :: demands =>
      if time ≤ now then
        some (perform cluster now cache { a with demands, performed := a.performed + 1 } d)
      else none
    | [] => none
  | .errand k =>
    match a.errands[k]? with
    | some (some e) => s.errand cluster now cache a k e
    | _ => none
  | .producer n => s.produce cluster now cache a n
  | .consumer n => ((cache.client cluster).consume n).map fun c => (cache.put c, a)

def choices : List (Cache × Affairs) :=
  (a.actors (cache.client cluster)).filterMap (s.act cluster now cache a)

def move : Option (Cache × Affairs) :=
  let choices := s.choices cluster now cache a
  choices[s.order a.moves % choices.length]?.map fun (cache, a') =>
    (cache, { a' with moves := a.moves + 1 })

end Surroundings

namespace Surroundings

variable {s : Surroundings} {cluster other : ClusterId} {now : Nat} {cache : Cache} {a : Affairs}

theorem resolveAddresses_only (hkey : (cache.client cluster).cluster = cluster) (runtime : Bool)
    (model : ModelId) (want : Nat) (draw : Draws) :
    (cache.only cluster).resolveAddresses runtime cluster model want draw =
      ((cache.resolveAddresses runtime cluster model want draw).1.only cluster,
        (cache.resolveAddresses runtime cluster model want draw).2) := by
  unfold Cache.resolveAddresses
  rw [Cache.getOrCreate_only hkey, Cache.getOrCreate_eq hkey]
  simp only
  cases h : (cache.client cluster).resolveAddresses runtime model want draw with
  | error e => rfl
  | ok r =>
    obtain ⟨x, addresses⟩ := r
    have hx := (Client.continues_resolveAddresses h).cluster.trans hkey
    simp only
    rw [Cache.only_put _ hx]

theorem perform_only (hkey : (cache.client cluster).cluster = cluster) (d : Demand) :
    perform cluster now (cache.only cluster) a d =
      ((perform cluster now cache a d).1.only cluster, (perform cluster now cache a d).2) := by
  cases d with
  | openClient => simp only [perform, Cache.getOrCreate_only hkey]
  | resolve runtime model want draw => simp only [perform, resolveAddresses_only hkey]
  | request r => simp only [perform, Cache.getOrCreate_only hkey]
  | poison =>
    have hput : ((cache.getOrCreate cluster).2).cluster = cluster := by
      rw [Cache.getOrCreate_eq hkey]
      exact hkey
    simp only [perform, Cache.getOrCreate_only hkey]
    rw [Cache.only_put]
    exact hput

theorem errand_only (hkey : (cache.client cluster).cluster = cluster) (k : Nat) (e : Errand) :
    s.errand cluster now (cache.only cluster) a k e =
      (s.errand cluster now cache a k e).map (Prod.map (Cache.only cluster) id) := by
  unfold errand
  split
  · rfl
  · rfl
  · rw [Cache.client_only]
    simp only [Option.map_some, Prod.map]
    rw [Cache.only_put]
    · rfl
    · exact hkey

theorem produce_only (hkey : (cache.client cluster).cluster = cluster) (n : Nat) :
    s.produce cluster now (cache.only cluster) a n =
      (s.produce cluster now cache a n).map (Prod.map (Cache.only cluster) id) := by
  unfold produce
  rw [Cache.client_only]
  simp only
  split
  · rfl
  · split
    · rfl
    · rfl
    · simp only [Option.map_some, Prod.map]
      rw [Cache.only_put]
      · rfl
      · exact (Client.continues_produce ..).cluster.trans hkey

theorem act_only (hkey : (cache.client cluster).cluster = cluster) (actor : Actor) :
    s.act cluster now (cache.only cluster) a actor =
      (s.act cluster now cache a actor).map (Prod.map (Cache.only cluster) id) := by
  cases actor with
  | owner =>
    cases hd : a.demands with
    | nil => simp [act, hd]
    | cons demand demands =>
      obtain ⟨time, d⟩ := demand
      by_cases htime : time ≤ now
      · simp only [act, hd, htime, if_true, perform_only hkey]
        rfl
      · simp [act, hd, htime]
  | errand k =>
    cases he : a.errands[k]? with
    | none => simp [act, he]
    | some e =>
      cases e with
      | none => simp [act, he]
      | some e =>
        simp only [act, he]
        exact errand_only hkey k e
  | producer n => exact produce_only hkey n
  | consumer n =>
    simp only [act, Cache.client_only]
    cases h : (cache.client cluster).consume n with
    | none => rfl
    | some x =>
      have hx := (Client.continues_consume h).cluster.trans hkey
      simp only [Option.map_some, Prod.map]
      rw [Cache.only_put _ hx]
      rfl

theorem move_only (hkey : (cache.client cluster).cluster = cluster) :
    s.move cluster now (cache.only cluster) a =
      (s.move cluster now cache a).map (Prod.map (Cache.only cluster) id) := by
  -- the next move is drawn by its place among the choices, and these correspond one to one
  have hchoices : s.choices cluster now (cache.only cluster) a =
      (s.choices cluster now cache a).map (Prod.map (Cache.only cluster) id) := by
    unfold choices
    rw [Cache.client_only, List.map_filterMap]
    exact congrArg (List.filterMap · _) (funext fun actor => act_only hkey actor)
  unfold move
  simp only [hchoices, List.length_map, List.getElem?_map, Option.map_map]
  rfl

end Surroundings

structure Fleet where
  now : Nat
  cache : Cache
  affairs : ClusterId → Affairs

namespace Fleet

def start (registry : RegistrySettings) (retry : RetrySettings)
    (around : ClusterId → Surroundings) : Fleet :=
  ⟨0, .new registry retry, fun cluster => .start (around cluster).demands⟩

def Rests (around : ClusterId → Surroundings) (s : Fleet) (cluster : ClusterId) : Prop :=
  (around cluster).move cluster s.now s.cache (s.affairs cluster) = none

def moved (s : Fleet) (cluster : ClusterId) (r : Cache × Affairs) : Fleet :=
  ⟨s.now, r.1, fun other => if other = cluster then r.2 else s.affairs other⟩

inductive Runs (around : ClusterId → Surroundings) (s : Fleet) : Fleet → Prop
  | refl : Runs around s s
  | move {t : Fleet} {r : Cache × Affairs} (cluster : ClusterId) : Runs around s t →
      (around cluster).move cluster t.now t.cache (t.affairs cluster) = some r →
      Runs around s (t.moved cluster r)
  | tick {t : Fleet} : Runs around s t → (∀ cluster, t.Rests around cluster) →
      Runs around s { t with now := t.now + 1 }

end Fleet

end ModelRegistry
