import ModelRegistry.Proofs.Convergence

/-!
A model that is published over itself gets a new log, which counts from 0 again under the identity
of the same registry process. Watches that hold a cursor beyond the new log are given the new set;
one that the new log has reached again when they next ask leaves them with what they have.
-/

namespace ModelRegistry.Simulation.Run

open MemoryRegistry

variable {start s : Run}

/-- If no log comes to reach a cursor that someone holds of an earlier log of the same process, then
whenever nothing is left to do, every parked watch has what the registry has, however often models
have been published anew. -/
theorem converged_of_renewed (settings : RegistrySettings × RetrySettings)
    (table : Option AddressTable) {identities : Nat → String} (hd : Distinct identities)
    (draws : ClusterId → Draws)
    (h : Reachable (LetsWork True) (fresh settings table identities draws) none s)
    (hq : s.IsQuiet) : s.Converged :=
  (h.inOrder (orderly_fresh settings table hd draws)).converged hq

def holdings (s : Run) : List (ModelId × Cursor) :=
  s.cache.clients.toList.flatMap fun p => p.2.subscriptions.toList.filterMap fun x =>
    x.producer.held.map (x.replica.model, ·)

theorem mem_holdings {model : ModelId} {c : Cursor} (h : Holds s.sub model c) :
    (model, c) ∈ s.holdings := by
  obtain ⟨cluster, n, x, hx, rfl, hc⟩ := h
  unfold Run.sub Cache.client at hx
  rw [Std.ExtTreeMap.getD_eq_getD_getElem?] at hx
  cases hclient : s.cache.clients[cluster]? with
  | none => simp [hclient, Client.new] at hx
  | some client =>
    have hsub : client.subscriptions[n]? = some x := by simpa [hclient] using hx
    refine List.mem_flatMap.mpr ⟨(cluster, client), ?_, List.mem_filterMap.mpr ⟨x, ?_, ?_⟩⟩
    · exact Std.ExtTreeMap.mem_toList_iff_getElem?_eq_some.mpr hclient
    · exact Array.mem_toList_iff.mpr (Array.mem_of_getElem? hsub)
    · rw [hc]
      rfl

def avoids (s : Run) (r : MemoryRegistry) (id : ModelId) (seqno : Nat) : Bool :=
  s.holdings.all fun p => p.1 != id || p.2.instanceId != r.identity || p.2.seqno != seqno

theorem ne_of_avoids {r : MemoryRegistry} {id : ModelId} {seqno : Nat} {c : Cursor}
    (h : s.avoids r id seqno) (hc : Holds s.sub id c) (hi : c.instanceId = r.identity) :
    c.seqno ≠ seqno := by
  have hall := List.all_eq_true.mp h (id, c) (mem_holdings hc)
  simpa [hi] using hall

def changes (r : MemoryRegistry) : Command → Option (ModelId × Nat)
  | .publish model _ => some (model.id, 0)
  | .addAddress id address => r.entries[id]?.map fun e => (id, (e.add address).next)
  | .removeAddress id address => r.entries[id]?.map fun e => (id, (e.remove address).next)
  | _ => none

def isTimely (s : Run) (c : Command) : Bool :=
  s.memory?.all fun r => (changes r c).all fun p => s.avoids r p.1 p.2

theorem lets_of_isTimely {c : Command} (h : s.isTimely c) : s.Lets True c := by
  intro r hr
  have hall : (changes r c).all (fun p => s.avoids r p.1 p.2) := by simpa [isTimely, hr] using h
  have hshort : ∀ id f, (∀ e, r.entries[id]? = some e → s.avoids r id (f e).next) →
      StopsShort (Holds s.sub) r id f :=
    fun id f hf e he _ c hc hi => ne_of_avoids (hf e he) hc hi
  cases c with
  | publish model addresses =>
    intro c hc hi
    exact ⟨trivial, Nat.pos_of_ne_zero (ne_of_avoids hall hc hi)⟩
  | addAddress id address =>
    refine fun _ => hshort id _ fun e he => ?_
    simpa [changes, he] using hall
  | removeAddress id address =>
    refine fun _ => hshort id _ fun e he => ?_
    simpa [changes, he] using hall
  | _ => exact trivial

def keepsTime (s : Run) : Work → Bool
  | .step (.command c) => s.isTimely c
  | .step (.batch _) | .step (.ask _ _) | .request _ _ _ => false
  | _ => true

theorem letsWork_of_keepsTime {w : Work} (h : s.keepsTime w) : s.LetsWork True w := by
  cases w with
  | step step =>
    cases step with
    | command c => exact lets_of_isTimely h
    | batch | ask => cases h
    | _ => exact trivial
  | request => cases h
  | _ => exact trivial

def movesInTime : Nat → Run → TaskId → Bool
  | 0, _, _ => true
  | n + 1, s, id => s.tasks[id]?.all (s.keepsTime ·.work) &&
      (!(s.move id).2 || movesInTime n (s.move id).1 id)

theorem admitsMoves_of_movesInTime {n : Nat} {id : TaskId} (h : movesInTime n s id) :
    AdmitsMoves (LetsWork True) n s id := by
  induction n generalizing s with
  | zero => exact trivial
  | succ n ih =>
    simp only [movesInTime, Bool.and_eq_true, Bool.or_eq_true, Bool.not_eq_true'] at h
    refine ⟨fun t ht => letsWork_of_keepsTime (by simpa [ht] using h.1), fun hm => ih ?_⟩
    exact h.2.resolve_left (by simp [hm])

def carryThrough (s : Run) (step : Step) : Run := ((s.carryOut step).serve 1).serve 2

def runsInTime (s : Run) (step : Step) : Bool :=
  let s₁ := s.carryOut step
  let s₂ := s₁.serve 1
  movesInTime 3 { s.setWork main (.step step) with mainReady := false } main &&
    (decide (1 ∈ s₁.ready) && movesInTime 8 { s₁ with ready := s₁.ready.erase 1 } 1) &&
      (decide (2 ∈ s₂.ready) && movesInTime 8 { s₂ with ready := s₂.ready.erase 2 } 2)

theorem Reachable.carryThrough (h : Reachable (LetsWork True) start none s)
    (hm : s.hasEnded Run.main) {step : Step} (hs : s.runsInTime step) :
    Reachable (LetsWork True) start none (s.carryThrough step) := by
  simp only [runsInTime, Bool.and_eq_true, decide_eq_true_eq] at hs
  obtain ⟨⟨hmain, hready, hmoves⟩, hready', hmoves'⟩ := hs
  have hout := h.carryOut (rests_of_hasEnded hm) (admitsMoves_of_movesInTime hmain)
  have hserve := hout.serve 1 hready (admitsMoves_of_movesInTime hmoves)
  exact hserve.serve 2 hready' (admitsMoves_of_movesInTime hmoves')

def extended : Run :=
  ((small.carryOut (published ["a:1"])).carryThrough (.resolve cell ⟨"lm"⟩ 5)).carryThrough
    (.command (.addAddress ⟨"lm"⟩ "b:1"))

def renewed : Run := extended.carryThrough (published ["c:1"])

theorem reachable_renewed : Reachable (LetsWork True) small none renewed := by
  have hpublish : Reachable (LetsWork True) small none (small.carryOut (published ["a:1"])) :=
    Reachable.carryOut .start rests_small (admitsMoves_of_movesInTime (by decide +kernel))
  have hfollow : Reachable (LetsWork True) small none
      ((small.carryOut (published ["a:1"])).carryThrough (.resolve cell ⟨"lm"⟩ 5)) :=
    hpublish.carryThrough (by decide +kernel) (by decide +kernel)
  have hextend : Reachable (LetsWork True) small none extended :=
    hfollow.carryThrough (by decide +kernel) (by decide +kernel)
  exact hextend.carryThrough (by decide +kernel) (by decide +kernel)

theorem converged_of_renewed_extended : renewed.IsQuiet ∧
    renewed.memory?.map (fun r => (r.parked.length, r.restarts,
      r.entries[(⟨"lm"⟩ : ModelId)]?.map (·.addresses))) = some (1, 0, some ["c:1"]) ∧
        renewed.Converged := by
  have hquiet : renewed.IsQuiet := ⟨by decide +kernel, by decide +kernel⟩
  exact ⟨hquiet, by decide +kernel,
    converged_of_renewed _ _ distinct_lengthening _ reachable_renewed hquiet⟩

def republished : Run :=
  let s := (small.perform (published [])).1
  let s := (s.perform (.resolve cell ⟨"lm"⟩ 5)).1
  (s.perform (published ["b:1"])).1

theorem reachable_republished : Reachable (fun _ _ => True) small none republished := by
  have hpublish := Reachable.perform (fun _ _ => trivial) .start rests_small (published [])
  have hresolve := hpublish.performed (by decide +kernel) (.resolve cell ⟨"lm"⟩ 5)
  exact hresolve.performed (by decide +kernel) _

theorem not_converged_of_parked {model : ModelId} {id : TaskId} {cluster : ClusterId} {n : Nat}
    {addresses : List String} {a : String} (ha : a ∈ addresses)
    (hmemory : s.memory?.map (fun r => (r.parked.map (fun w => (w.caller, w.model)),
      r.entries[model]?.map (·.addresses))) = some ([(id, model)], some addresses))
    (htask : s.tasks[id]?.map produced? = some (some (cluster, n)))
    (hreplica : (s.sub cluster n).map (·.replica.toList) = some []) : ¬ s.Converged := by
  intro h
  obtain ⟨r, hr, hparked⟩ := Option.map_eq_some_iff.mp hmemory
  obtain ⟨hwatches, hentry⟩ := Prod.mk.inj hparked
  obtain ⟨w, hw, hcaller, hmodel⟩ : ∃ w ∈ r.parked, w.caller = id ∧ w.model = model := by
    have hmem : (id, model) ∈ r.parked.map (fun w => (w.caller, w.model)) := by
      rw [hwatches]
      exact List.mem_singleton_self _
    obtain ⟨w, hw, he⟩ := List.mem_map.mp hmem
    exact ⟨w, hw, congrArg Prod.fst he, congrArg Prod.snd he⟩
  obtain ⟨-, e, he, ⟨givesUp, ht⟩ | ⟨cluster', n', j, x, ht, hx, -, -, hset⟩⟩ := h r hr w hw
  · rw [hcaller] at ht
    simp [ht, produced?] at htask
  · rw [hcaller] at ht
    obtain ⟨rfl, rfl⟩ : cluster' = cluster ∧ n' = n := by simpa [ht, produced?] using htask
    rw [hmodel] at he
    have haddresses : e.addresses = addresses := by simpa [he] using hentry
    have hempty : x.replica.toList = [] := by simpa [hx] using hreplica
    have hmem := (hset a).mpr (haddresses ▸ ha)
    rw [hempty] at hmem
    cases hmem

/-- The new log ends where the old one began, so the watch is not told of the new set. -/
theorem not_converged_republished : Distinct lengthening ∧
    Reachable (fun _ _ => True) small none republished ∧ republished.IsQuiet ∧
      ¬ republished.Converged := by
  refine ⟨distinct_lengthening, reachable_republished, ⟨by decide +kernel, by decide +kernel⟩, ?_⟩
  have hmemory : republished.memory?.map (fun r => (r.parked.map (fun w => (w.caller, w.model)),
      r.entries[(⟨"lm"⟩ : ModelId)]?.map (·.addresses))) =
        some ([(1, ⟨"lm"⟩)], some ["b:1"]) := by decide +kernel
  have htask : republished.tasks[(1 : TaskId)]?.map produced? = some (some (cell, 0)) := by
    decide +kernel
  have hreplica : (republished.sub cell 0).map (·.replica.toList) = some [] := by decide +kernel
  exact not_converged_of_parked (List.mem_singleton_self "b:1") hmemory htask hreplica

end ModelRegistry.Simulation.Run
