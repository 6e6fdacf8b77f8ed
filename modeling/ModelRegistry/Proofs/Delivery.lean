import ModelRegistry.Proofs.Disappearance

namespace ModelRegistry

namespace Update

def batch? : Update → Option DiffBatch
  | batch b => some b
  | gone _ => none

def isGone : Update → Bool
  | batch _ => false
  | gone _ => true

end Update

def sentOff : List Note → List Update
  | [] => []
  | .queued u _ :: J => sentOff J ++ [u]
  | _ :: J => sentOff J

def fetched : List Note → List DiffBatch
  | [] => []
  | .answered (.ok r) :: J => fetched J ++ [r.batch]
  | _ :: J => fetched J

theorem sentOff_append (n : Option Note) (J : List Note) :
    sentOff (n.toList ++ J) = sentOff J ++ sentOff n.toList := by
  cases n with
  | none => simp [sentOff]
  | some n => cases n <;> simp [sentOff]

theorem fetched_append (n : Option Note) (J : List Note) :
    fetched (n.toList ++ J) = fetched J ++ fetched n.toList := by
  cases n with
  | none => simp [fetched]
  | some n =>
    cases n with
    | answered r => cases r <;> simp [fetched]
    | _ => simp [fetched]

theorem sentOff_of_misses {n : Note} {e : Error} (h : n.Misses e) : sentOff [n] = [] := by
  cases n <;> first | rfl | exact h.elim

theorem fetched_of_misses {n : Note} {e : Error} (h : n.Misses e) : fetched [n] = [] := by
  cases n <;> first | rfl | exact h.elim

def Producer.Stage.held? : Producer.Stage → List DiffBatch
  | .sending (.batch b) _ => [b]
  | _ => []

namespace Subscription

theorem Moved.queue_eq {s s' : Subscription} {n : Option Note} (h : s.Moved n s') :
    s'.queue = s.queue ++ sentOff n.toList := by
  cases h with
  | miss _ _ _ _ hmiss => simp [staged, sentOff_of_misses hmiss]
  | queue _ hl => simp [send, hl, sentOff]
  | _ => simp [staged, sentOff]

structure Delivers (s : Subscription) (J : List Note) : Prop where
  complete : fetched J = (sentOff J).filterMap Update.batch? ++ s.producer.stage.held?
  ended : s.producer.stage = .stopped → ∃ e next earlier, J = .queued (.gone e) next :: earlier

theorem delivers_start (retry : RetrySettings) (model : ModelId) :
    (start retry model).Delivers [] := by
  refine ⟨rfl, ?_⟩
  intro h
  cases h

theorem Delivers.pass {s s' : Subscription} {J : List Note} {n : Option Note} (h : s.Delivers J)
    (hsent : sentOff n.toList = []) (hfetched : fetched n.toList = [])
    (hheld : s'.producer.stage.held? = s.producer.stage.held?)
    (hstage : s'.producer.stage ≠ .stopped) : s'.Delivers (n.toList ++ J) := by
  refine ⟨?_, fun hs => absurd hs hstage⟩
  rw [fetched_append, sentOff_append, hsent, hfetched, List.append_nil, List.append_nil, hheld]
  exact h.complete

theorem Delivers.produce {s s' : Subscription} {J : List Note} {n : Option Note} (h : s.Delivers J)
    (he : s.Ends J) (hm : s.Moved n s') : s'.Delivers (n.toList ++ J) := by
  have hall := h.complete
  cases hm with
  | stay => exact h
  | miss hst hk ho hk' hmiss =>
    exact h.pass (sentOff_of_misses hmiss) (fetched_of_misses hmiss)
      (by simp [staged, hst, Producer.Stage.held?]) (by simp)
  | succeed hst hk =>
    rw [hst] at hall
    refine ⟨?_, by simp⟩
    simpa [fetched, sentOff, Producer.Stage.held?, staged] using hall
  | resume hst =>
    exact h.pass rfl rfl (by simp [Producer.resume, hst, Producer.Stage.held?])
      (by simp [Producer.resume])
  | @queue update next retry hst hl =>
    rw [hst] at hall
    cases update with
    | batch b =>
      refine ⟨?_, by simp [send, hl, Producer.resume]⟩
      simpa [fetched, sentOff, send, hl, Producer.resume, Producer.Stage.held?, Update.batch?]
        using hall
    | gone e =>
      refine ⟨?_, fun _ => ⟨e, next, J, rfl⟩⟩
      have hnone : [Update.gone e].filterMap Update.batch? = [] := rfl
      simpa [fetched, sentOff, send, hl, Producer.Stage.held?, hnone] using hall
  | stop hst hl =>
    have hstop := he.told (.inl hl)
    simp [hst] at hstop
  | _ => exact h.pass rfl rfl (by simp_all [staged, Producer.Stage.held?]) (by simp)

end Subscription

theorem Watch.Reachable.delivers {answers : Cursor → Response → Prop} {w : Watch}
    (h : Watch.Reachable answers w) : w.subscription.Delivers w.journal := by
  have hboth := h.invariant (P := fun s J => s.Ends J ∧ s.Delivers J)
    (fun retry model =>
      ⟨Subscription.ends_start retry model, Subscription.delivers_start retry model⟩)
    (fun _ _ _ _ hm _ hs _ => ⟨hs.1.produce hm, hs.2.produce hs.1 hm⟩)
    (fun s J u s' hc hs => ⟨hs.1.consume hc, by
      have hp := (Subscription.consume_producer hc).1
      exact ⟨by rw [hp]; exact hs.2.complete, by rw [hp]; exact hs.2.ended⟩⟩)
  exact hboth.2

end ModelRegistry
