import ModelRegistry.Proofs.Runs

namespace ModelRegistry.Simulation.Run

open MemoryRegistry

variable {lax : Prop}

def IsQuiet (s : Run) : Prop := s.ready = [] ∧ s.mainReady = false

/-- Every parked watch sits on an open link, its model is published, and if a client's producer made
it then the replica holds the model's addresses, each once. -/
def Converged (s : Run) : Prop :=
  ∀ r, s.memory? = some r → ∀ w ∈ r.parked, r.isOpen w.link ∧ ∃ e, r.entries[w.model]? = some e ∧
    ((∃ givesUp, s.tasks[w.caller]? = some ⟨.watch w.link w.model w.cursor givesUp, some .parked⟩) ∨
      ∃ cluster n j x, s.tasks[w.caller]? = some ⟨.produce cluster n j, some .parked⟩ ∧
        s.sub cluster n = some x ∧ x.replica.model = w.model ∧ x.replica.toList.Nodup ∧
          ∀ a, a ∈ x.replica.toList ↔ a ∈ e.addresses)

theorem not_awake_of_isQuiet {s : Run} (h : s.IsQuiet) (id : TaskId) : ¬ s.Awake none id := by
  rintro (ha | ⟨-, ha⟩ | ha)
  · rw [h.1] at ha
    cases ha
  · rw [h.2] at ha
    cases ha
  · cases ha

theorem Orderly.converged {s : Run} (h : s.Orderly lax none) (hq : s.IsQuiet) : s.Converged := by
  intro r hr w hw
  obtain ⟨r₀, hr₀, -, hi⟩ := h.order
  obtain rfl : r₀ = r := Option.some.inj ((memory?_of_order hr₀).symm.trans hr)
  have hasleep := not_awake_of_isQuiet hq
  obtain ⟨work, htask, ha⟩ := hi.parked w hw
  have hlook := (hi.told w hw).resolve_left (hasleep w.caller)
  cases work with
  | produce cluster n j =>
    obtain ⟨x, k, hx, hcall, hk, hmodel, hcursor⟩ := ha
    obtain ⟨x', hx', -, hqueue⟩ := hi.producer _ cluster n j _ htask
    obtain rfl : x = x' := Option.some.inj (hx.symm.trans hx')
    rw [hmodel, hcursor] at hlook
    obtain ⟨hopen, hnodup, e, he, hmembers⟩ :=
      (hi.follows cluster n x hx).converged hcall hk (hqueue.resolve_left (hasleep j)) hlook
    refine ⟨hopen, e, hmodel ▸ he, .inr ⟨cluster, n, j, x, htask, hx, hmodel.symm, hnodup, ?_⟩⟩
    intro a
    rw [Replica.toList, ← AddressSet.mem_members, hmembers, List.mem_toFinset]
  | watch link model cursor givesUp =>
    obtain ⟨rfl, rfl, rfl⟩ := ha
    obtain ⟨hopen, e, he, -⟩ := look_eq_none_iff.mp hlook
    exact ⟨hopen, e, he, .inl ⟨givesUp, htask⟩⟩
  | _ => exact ha.elim

variable {admits : Run → Work → Prop} {start s : Run}

/-- If nobody who follows a model misses that it is published anew, then whenever nothing is left to
do, every parked watch has what the registry has. -/
theorem converged_of_isQuiet (settings : RegistrySettings × RetrySettings)
    (table : Option AddressTable) {identities : Nat → String} (hd : Distinct identities)
    (draws : ClusterId → Draws)
    (h : Reachable AdmitsWork (fresh settings table identities draws) none s) (hq : s.IsQuiet) :
    s.Converged :=
  (h.orderly (orderly_fresh settings table hd draws)).converged hq

def isHarmless : Work → Bool
  | .step (.command (.publish _ _)) | .step (.batch _) | .step (.ask _ _) | .request _ _ _ => false
  | _ => true

theorem admitsWork_of_isHarmless (s : Run) {w : Work} (h : isHarmless w) : s.AdmitsWork w := by
  cases w with
  | step step =>
    cases step with
    | command c =>
      cases c with
      | publish model addresses => cases h
      | _ => exact trivial
    | batch cs => cases h
    | ask stub q => cases h
    | _ => exact trivial
  | request cluster q call => cases h
  | _ => exact trivial

def movesHarmlessly : Nat → Run → TaskId → Bool
  | 0, _, _ => true
  | n + 1, s, id => (s.tasks[id]?.all (isHarmless ·.work)) &&
      (!(s.move id).2 || movesHarmlessly n (s.move id).1 id)

theorem admitsMoves_of_movesHarmlessly {n : Nat} {s : Run} {id : TaskId}
    (h : movesHarmlessly n s id) : AdmitsMoves AdmitsWork n s id := by
  induction n generalizing s with
  | zero => exact trivial
  | succ n ih =>
    simp only [movesHarmlessly, Bool.and_eq_true, Bool.or_eq_true, Bool.not_eq_true'] at h
    refine ⟨fun t ht => admitsWork_of_isHarmless s (by simpa [ht] using h.1), fun hm => ih ?_⟩
    exact h.2.resolve_left (by simp [hm])

def lengthening (k : Nat) : String := String.ofList (.replicate (k + 1) 'i')

def small : Run := fresh (⟨50, 20, 10, 4⟩, ⟨1, 4, .two⟩) none lengthening (fun _ _ => 0)

def cell : ClusterId := ⟨"/cells/test"⟩

def published (addresses : List String) : Step :=
  .command (.publish (.conventional ⟨"lm"⟩) addresses)

theorem distinct_lengthening : Distinct lengthening where
  injective := by
    intro j k h
    have hlength := congrArg String.length h
    simpa [lengthening] using hlength
  nonempty := by
    intro k h
    have hlength := congrArg String.length h
    simp [lengthening] at hlength

def carryOut (s : Run) (step : Step) : Run :=
  poll 3 { s.setWork main (.step step) with mainReady := false } main

def serve (s : Run) (id : TaskId) : Run := poll 8 { s with ready := s.ready.erase id } id

def followed : Run :=
  (((small.carryOut (published ["a:1"])).carryOut (.resolve cell ⟨"lm"⟩ 5)).serve 1).serve 2

theorem rests_of_hasEnded (h : s.hasEnded main) : s.Rests := by
  intro t ht
  obtain ⟨work, flight⟩ := t
  cases work with
  | ended result time => exact ⟨result, time, rfl⟩
  | _ => simp [hasEnded, ht] at h

theorem rests_small : small.Rests := by
  intro t ht
  simp [small, fresh, Run.new] at ht

theorem Reachable.carryOut (h : Reachable admits start none s) (hm : s.Rests) {step : Step}
    (ha : AdmitsMoves admits 3 { s.setWork Run.main (.step step) with mainReady := false }
      Run.main) :
    Reachable admits start none (s.carryOut step) :=
  ((h.begin step hm).main rfl).poll ha

theorem Reachable.serve (h : Reachable admits start none s) (id : TaskId) (hid : id ∈ s.ready)
    (ha : AdmitsMoves admits 8 { s with ready := s.ready.erase id } id) :
    Reachable admits start none (s.serve id) :=
  (h.wake hid).poll ha

theorem reachable_followed : Reachable AdmitsWork small none followed := by
  have hpublish : Reachable AdmitsWork small none (small.carryOut (published ["a:1"])) := by
    refine Reachable.carryOut .start rests_small ⟨?_, fun _ => ?_⟩
    · intro t ht
      obtain rfl : ⟨.step (published ["a:1"]), none⟩ = t := by
        simpa [setWork, tasks_setTask] using ht
      rintro r - c ⟨cluster, n, x, hx, -⟩
      have hnone : small.sub cluster n = none := sub_fresh _ _ _ _ cluster n
      exact absurd (hnone.symm.trans hx) (by simp)
    · exact admitsMoves_of_movesHarmlessly (by decide +kernel)
  have hresolve : Reachable AdmitsWork small none
      ((small.carryOut (published ["a:1"])).carryOut (.resolve cell ⟨"lm"⟩ 5)) :=
    hpublish.carryOut (rests_of_hasEnded (by decide +kernel))
      (admitsMoves_of_movesHarmlessly (by decide +kernel))
  have hproduce := hresolve.serve 1 (by decide +kernel)
    (admitsMoves_of_movesHarmlessly (by decide +kernel))
  exact hproduce.serve 2 (by decide +kernel) (admitsMoves_of_movesHarmlessly (by decide +kernel))

theorem converged_followed : followed.IsQuiet ∧ followed.memory?.map (·.parked.length) = some 1 ∧
    followed.Converged := by
  have hquiet : followed.IsQuiet := ⟨by decide +kernel, by decide +kernel⟩
  exact ⟨hquiet, by decide +kernel,
    converged_of_isQuiet _ _ distinct_lengthening _ reachable_followed hquiet⟩

def overtaken : Run :=
  let s := (small.perform (published [])).1
  let s := (s.perform (.resolve cell ⟨"lm"⟩ 5)).1
  (s.perform (.batch [.unpublish ⟨"lm"⟩, .publish (.conventional ⟨"lm"⟩) ["b:1"]])).1

def produced? (t : Task) : Option (ClusterId × Nat) :=
  match t.work with
  | .produce cluster n _ => some (cluster, n)
  | _ => none

theorem Reachable.performed (h : Reachable (fun _ _ => True) start none s)
    (hm : s.hasEnded Run.main) (step : Step) :
    Reachable (fun _ _ => True) start none (s.perform step).1 :=
  h.perform (fun _ _ => trivial) (rests_of_hasEnded hm) step

theorem reachable_overtaken : Reachable (fun _ _ => True) small none overtaken := by
  have hpublish := Reachable.perform (fun _ _ => trivial) .start rests_small (published [])
  have hresolve := hpublish.performed (by decide +kernel) (.resolve cell ⟨"lm"⟩ 5)
  exact hresolve.performed (by decide +kernel) _

theorem not_converged_overtaken : Distinct lengthening ∧
    Reachable (fun _ _ => True) small none overtaken ∧ overtaken.IsQuiet ∧
      ¬ overtaken.Converged := by
  refine ⟨distinct_lengthening, reachable_overtaken, ⟨by decide +kernel, by decide +kernel⟩,
    fun h => ?_⟩
  have hmemory : overtaken.memory?.map (fun r => (r.parked.map (fun w => (w.caller, w.model)),
      r.entries[(⟨"lm"⟩ : ModelId)]?.map (·.addresses))) =
        some ([(1, ⟨"lm"⟩)], some ["b:1"]) := by decide +kernel
  have htask : overtaken.tasks[(1 : TaskId)]?.map produced? = some (some (cell, 0)) := by
    decide +kernel
  have hreplica : (overtaken.sub cell 0).map (·.replica.toList) = some [] := by decide +kernel
  obtain ⟨r, hr, hparked⟩ := Option.map_eq_some_iff.mp hmemory
  obtain ⟨hwatches, hentry⟩ := Prod.mk.inj hparked
  obtain ⟨w, hw, hcaller, hmodel⟩ : ∃ w ∈ r.parked, w.caller = 1 ∧ w.model = ⟨"lm"⟩ := by
    have hmem : ((1 : Nat), (⟨"lm"⟩ : ModelId)) ∈ r.parked.map (fun w => (w.caller, w.model)) := by
      rw [hwatches]
      exact List.mem_singleton_self _
    obtain ⟨w, hw, he⟩ := List.mem_map.mp hmem
    exact ⟨w, hw, congrArg Prod.fst he, congrArg Prod.snd he⟩
  obtain ⟨-, e, he, ⟨givesUp, ht⟩ | ⟨cluster, n, j, x, ht, hx, -, -, hset⟩⟩ := h r hr w hw
  · rw [hcaller] at ht
    simp [ht, produced?] at htask
  · rw [hcaller] at ht
    obtain ⟨rfl, rfl⟩ : cluster = cell ∧ n = 0 := by simpa [ht, produced?] using htask
    rw [hmodel] at he
    have haddresses : e.addresses = ["b:1"] := by simpa [he] using hentry
    have hempty : x.replica.toList = [] := by simpa [hx] using hreplica
    have hb := (hset "b:1").mpr (by rw [haddresses]; exact List.mem_singleton_self _)
    rw [hempty] at hb
    cases hb

end ModelRegistry.Simulation.Run
