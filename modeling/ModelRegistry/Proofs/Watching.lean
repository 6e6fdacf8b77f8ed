import ModelRegistry.Proofs.Subscribing

namespace ModelRegistry

structure Watch where
  connection : Connection
  subscription : Subscription
  journal : List Note

namespace Watch

def produce (env : Env) (w : Watch) (signal : Call.Signal Response) : Watch where
  connection := (w.subscription.produce env w.connection signal).1
  subscription := (w.subscription.produce env w.connection signal).2
  journal := (w.subscription.note env w.connection signal).toList ++ w.journal

/-- The states of a watch. `answers` says which responses the registry may give to a request from a
cursor. A call of a producer has no deadline, so nothing cuts it off. -/
inductive Reachable (answers : Cursor → Response → Prop) : Watch → Prop
  | start (c : Connection) (retry : RetrySettings) (model : ModelId) :
      Reachable answers ⟨c, .start retry model, []⟩
  | share {w : Watch} (c : Connection) :
      Reachable answers w → Reachable answers { w with connection := c }
  | produce {w : Watch} (env : Env) (signal : Call.Signal Response) :
      Reachable answers w → signal ≠ .cutOff →
      (∀ r, w.subscription.note env w.connection signal = some (.answered (.ok r)) →
        answers w.subscription.producer.asked r) →
      Reachable answers (w.produce env signal)
  | consume {w : Watch} {u : Update} {s : Subscription} :
      Reachable answers w → w.subscription.consume = some (u, s) →
      Reachable answers { w with subscription := s }

theorem Reachable.proper {answers : Cursor → Response → Prop} {w : Watch}
    (h : Reachable answers w) : w.subscription.Proper := by
  induction h with
  | start c retry model => exact Subscription.proper_start retry model
  | share c _ ih => exact ih
  | produce env signal _ hsig _ ih => exact (Subscription.produce_moved env _ ih hsig).proper ih
  | consume _ hc ih =>
    intro k hk
    rw [(Subscription.consume_producer hc).1] at hk
    exact ih k hk

theorem Reachable.invariant {answers : Cursor → Response → Prop}
    {P : Subscription → List Note → Prop} (hstart : ∀ retry model, P (.start retry model) [])
    (hproduce : ∀ s J n s', s.Moved n s' → s.Proper → P s J →
      (∀ r, n = some (.answered (.ok r)) → answers s.producer.asked r) → P s' (n.toList ++ J))
    (hconsume : ∀ s J u s', s.consume = some (u, s') → P s J → P s' J)
    {w : Watch} (h : Reachable answers w) : P w.subscription w.journal := by
  induction h with
  | start c retry model => exact hstart retry model
  | share c _ ih => exact ih
  | produce env signal hw hsig hans ih =>
    exact hproduce _ _ _ _ (Subscription.produce_moved env _ hw.proper hsig) hw.proper ih hans
  | consume _ hc ih => exact hconsume _ _ _ _ hc ih

def drive (env : Env) (w : Watch) (signals : List (Call.Signal Response)) : Watch :=
  signals.foldl (produce env) w

theorem Reachable.drive {answers : Cursor → Response → Prop} (env : Env) {w : Watch}
    (h : Reachable answers w) {signals : List (Call.Signal Response)}
    (hsig : ∀ signal ∈ signals, signal ≠ .cutOff)
    (hans : ∀ c r, .answered (.ok r) ∈ signals → answers c r) :
    Reachable answers (w.drive env signals) := by
  induction signals generalizing w with
  | nil => exact h
  | cons signal signals ih =>
    have hstep : Reachable answers (w.produce env signal) := by
      refine .produce env signal h (hsig signal (List.mem_cons_self ..)) ?_
      intro r hr
      have hr' := Subscription.signal_of_note_answered hr
      exact hans _ r (hr' ▸ List.mem_cons_self ..)
    exact ih hstep (fun s hs => hsig s (List.mem_cons_of_mem _ hs))
      (fun c r hr => hans c r (List.mem_cons_of_mem _ hr))

end Watch

end ModelRegistry
