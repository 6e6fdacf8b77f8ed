import ModelRegistry.Proofs.AddressSet
import ModelRegistry.Proofs.Watching

/-!
A replica in step with its registry. The registry is honest about a function `S` from cursors to
sets; then the replica, once the queue is drained, holds the set at the cursor of the last response
that was queued, and every request asks from that cursor or for the whole set.
-/

namespace ModelRegistry

/-- Every answer leads to the set at its own cursor: from its snapshot, or from the set at the
cursor that was asked from. The empty cursor gets a snapshot. -/
structure Honest (S : String → Nat → Finset String) (answers : Cursor → Response → Prop) :
    Prop where
  of_snapshot : ∀ {c r addresses}, answers c r → r.batch.snapshot = some addresses →
    replay addresses.toFinset r.batch.log = S r.instanceId r.batch.next
  of_log : ∀ {c r}, answers c r → r.batch.snapshot = none →
    r.instanceId = c.instanceId ∧
      replay (S c.instanceId c.seqno) r.batch.log = S r.instanceId r.batch.next
  of_empty : ∀ {r}, answers .empty r → r.batch.isFull

def lastQueued : List Note → Option Response
  | [] => none
  | .queued (.batch _) _ :: J => lastAnswer J
  | _ :: J => lastQueued J

theorem lastQueued_of_misses {n : Note} {e : Error} (h : n.Misses e) (J : List Note) :
    lastQueued (n :: J) = lastQueued J := by
  cases n <;> first | rfl | exact h.elim

def Update.deliver (r : Replica) : Update → Replica
  | .batch b => r.apply b
  | .gone _ => r

namespace Subscription

def drained (s : Subscription) : Replica := s.queue.foldl Update.deliver s.replica

def Resumes (J : List Note) (c : Cursor) : Prop :=
  c = .empty ∨ ∃ r, lastQueued J = some r ∧ c = r.next

structure InStep (S : String → Nat → Finset String) (s : Subscription) (J : List Note) : Prop where
  coherent : s.replica.addresses.Coherent
  members : ∀ r, lastQueued J = some r →
    s.drained.addresses.members = S r.instanceId r.batch.next
  asked : AskedWith Resumes J
  producer : match s.producer.stage with
    | .calling k => Resumes J s.producer.cursor ∧
        ∀ link, k.stage = .operating link → Resumes J s.producer.asked
    | .sending (.batch b) next => ∃ r, lastAnswer J = some r ∧ b = r.batch ∧ next = r.next ∧
        b.act s.drained.addresses.members = S r.instanceId r.batch.next
    | .sending (.gone _) _ => True
    | .pausing _ => s.producer.cursor = .empty
    | .stopped => True

variable {S : String → Nat → Finset String} {answers : Cursor → Response → Prop}

theorem resumes_of_misses {J : List Note} {n : Note} {e : Error} (hn : n.Misses e) {c : Cursor} :
    Resumes (n :: J) c ↔ Resumes J c := by
  rw [Resumes, lastQueued_of_misses hn, Resumes]

theorem coherent_foldl_deliver {r : Replica} (h : r.addresses.Coherent) (queue : List Update) :
    (queue.foldl Update.deliver r).addresses.Coherent := by
  induction queue generalizing r with
  | nil => exact h
  | cons u queue ih =>
    cases u with
    | batch b => exact ih (h.apply b)
    | gone e => exact ih h

theorem drained_send {s : Subscription} (hl : s.listening) (retry : RetrySettings) (u : Update)
    (next : Cursor) : (s.send retry u next).drained = u.deliver s.drained := by
  simp [send, hl, drained]

theorem InStep.act_of_answers {s : Subscription} {J : List Note} (h : s.InStep S J)
    (hS : Honest S answers) {c : Cursor} (hc : Resumes J c) {r : Response} (hr : answers c r) :
    r.batch.act s.drained.addresses.members = S r.instanceId r.batch.next := by
  unfold DiffBatch.act
  cases hsnap : r.batch.snapshot with
  | some addresses => exact hS.of_snapshot hr hsnap
  | none =>
    rcases hc with rfl | ⟨last, hlast, rfl⟩
    · have hfull := hS.of_empty hr
      simp [DiffBatch.isFull, hsnap] at hfull
    · obtain ⟨hi, hlog⟩ := hS.of_log hr hsnap
      rw [← hlog, h.members last hlast]
      rfl

theorem inStep_start (retry : RetrySettings) (model : ModelId) :
    (start retry model).InStep S [] where
  coherent := AddressSet.coherent_empty
  members := by intro r hr; cases hr
  asked := by
    intro later c earlier he
    cases later <;> cases he
  producer := ⟨.inl rfl, by intro link hk; cases hk⟩

theorem InStep.produce {s s' : Subscription} {J : List Note} {n : Option Note}
    (hS : Honest S answers) (h : s.InStep S J) (hm : s.Moved n s')
    (hans : ∀ r, n = some (.answered (.ok r)) → answers s.producer.asked r) :
    s'.InStep S (n.toList ++ J) := by
  have hp := h.producer
  cases hm with
  | stay => exact h
  | connect hst hk ho hk' =>
    rw [hst] at hp
    exact ⟨h.coherent, h.members, h.asked, hp.1, by simp [hk']⟩
  | miss hst hk ho hk' hmiss =>
    rw [hst] at hp
    refine ⟨h.coherent, ?_, h.asked.append ?_, (resumes_of_misses hmiss).mpr hp.1, by simp [hk']⟩
    · intro r hr
      exact h.members r ((lastQueued_of_misses hmiss J) ▸ hr)
    · rintro c hc
      cases hc
      exact hmiss.elim
  | ask hst hk ho hk' =>
    rw [hst] at hp
    have hask : Resumes J s.producer.ask.asked := by
      by_cases hf : s.producer.fresh
      · simpa [Producer.ask, hf] using hp.1
      · exact .inl (by simp [Producer.ask, hf])
    refine ⟨h.coherent, h.members, h.asked.append ?_, hp.1, ?_⟩
    · rintro c hc
      cases hc
      exact hask
    · intro link hl
      exact hask
  | @succeed k link r hst hk =>
    rw [hst] at hp
    refine ⟨h.coherent, h.members, h.asked.append (by simp), r, rfl, rfl, rfl, ?_⟩
    exact h.act_of_answers hS (hp.2 link hk) (hans r rfl)
  | fail hst hk ho hk' =>
    rw [hst] at hp
    exact ⟨h.coherent, h.members, h.asked.append (by simp), hp.1, by simp [hk']⟩
  | close hst hk ho hk' =>
    rw [hst] at hp
    exact ⟨h.coherent, h.members, h.asked, hp.1, by simp [hk']⟩
  | retry hst hk hr ho hk' =>
    rw [hst] at hp
    exact ⟨h.coherent, h.members, h.asked, hp.1, by simp [hk']⟩
  | leave => exact ⟨h.coherent, h.members, h.asked, trivial⟩
  | reset => exact ⟨h.coherent, h.members, h.asked, rfl⟩
  | again hst hk ho hk' =>
    rw [hst] at hp
    exact ⟨h.coherent, h.members, h.asked, hp.1, by simp [hk']⟩
  | resume hst =>
    rw [hst] at hp
    exact ⟨h.coherent, h.members, h.asked, .inl hp, by intro link hk; cases hk⟩
  | @queue update next retry hst hl =>
    rw [hst] at hp
    cases update with
    | gone e =>
      refine ⟨?_, ?_, h.asked.append (by simp), ?_⟩
      · simpa [send, hl] using h.coherent
      · intro r hr
        rw [drained_send hl]
        exact h.members r hr
      · simp [send, hl]
    | batch b =>
      obtain ⟨r, hlast, rfl, rfl, hact⟩ := hp
      refine ⟨?_, ?_, h.asked.append (by simp), ?_⟩
      · simpa [send, hl] using h.coherent
      · intro r' hr'
        obtain rfl : r = r' := Option.some.inj (hlast.symm.trans hr')
        rw [drained_send hl, ← hact]
        exact AddressSet.members_apply (coherent_foldl_deliver h.coherent s.queue) _
      · simp only [send, hl, ↓reduceIte, Producer.resume]
        exact ⟨.inr ⟨r, hlast, rfl⟩, by intro link hk; cases hk⟩
  | stop => exact ⟨h.coherent, h.members, h.asked, trivial⟩

theorem InStep.consume {s s' : Subscription} {J : List Note} {u : Update} (h : s.InStep S J)
    (hc : s.consume = some (u, s')) : s'.InStep S J := by
  obtain ⟨_, ⟨b, rest, -, hq, rfl⟩ | ⟨e, rest, -, hq, rfl⟩⟩ := consume_cases hc
  · have hd : (drained { s with replica := s.replica.apply b, queue := rest }) = s.drained := by
      simp [drained, hq, Update.deliver]
    exact ⟨h.coherent.apply b, hd ▸ h.members, h.asked, by simpa only [hd] using h.producer⟩
  · have hd : (drained { s with queue := rest, listening := false }) = s.drained := by
      simp [drained, hq, Update.deliver]
    exact ⟨h.coherent, hd ▸ h.members, h.asked, by simpa only [hd] using h.producer⟩

end Subscription

namespace Watch

theorem Reachable.inStep {S : String → Nat → Finset String} {answers : Cursor → Response → Prop}
    (hS : Honest S answers) {w : Watch} (h : Reachable answers w) :
    w.subscription.InStep S w.journal :=
  h.invariant (P := fun s J => s.InStep S J) Subscription.inStep_start
    (fun _ _ _ _ hm _ hs hans => hs.produce hS hm hans) (fun _ _ _ _ hc hs => hs.consume hc)

/-- Once a batch has been queued, the replica with the queue drained holds the set at the cursor of
the last response queued; every request asks for the whole set or from that cursor. -/
theorem drained_in_step {S : String → Nat → Finset String} {answers : Cursor → Response → Prop}
    (hS : Honest S answers) {w : Watch} (h : Reachable answers w) :
    (∀ r, lastQueued w.journal = some r →
      w.subscription.drained.addresses.members = S r.next.instanceId r.next.seqno) ∧
    AskedWith (fun earlier c => c = .empty ∨ ∃ r, lastQueued earlier = some r ∧ c = r.next)
      w.journal :=
  ⟨(h.inStep hS).members, (h.inStep hS).asked⟩

def whole : Response := ⟨"i", .full ["a", "b"] 1⟩

def change : Response := ⟨"i", .incremental [.remove "a", .add "c"] 3⟩

def changing (_ : String) (seqno : Nat) : Finset String :=
  if seqno = 1 then {"a", "b"} else {"b", "c"}

def answersChange (c : Cursor) (r : Response) : Prop := r = whole ∨ c = whole.next ∧ r = change

theorem honest_change : Honest changing answersChange where
  of_snapshot := by
    rintro c r addresses (rfl | ⟨-, rfl⟩) hs
    · cases hs
      decide
    · cases hs
  of_log := by
    rintro c r (rfl | ⟨rfl, rfl⟩) hs
    · cases hs
    · exact ⟨rfl, by decide⟩
  of_empty := by
    rintro r (rfl | ⟨hc, -⟩)
    · rfl
    · exact absurd hc (by decide)

def changed : Watch :=
  let env : Env := ⟨⟨"c"⟩, .default, .default, 0, 0⟩
  let w := drive env ⟨.idle, .start .default ⟨"m"⟩, []⟩
    [.proceed, .connect (.resolved (.ok "a")), .connect (.dialed (.ok 1)), .answered (.ok whole),
      .proceed, .proceed]
  (w.produce env (.answered (.ok change))).produce env .proceed

theorem reachable_changed : Reachable answersChange changed := by
  refine .produce _ _ (.produce _ _ (.drive _ (.start _ _ _) ?_ ?_) ?_ ?_) ?_ ?_
  · simp
  · intro c r hr
    exact .inl (by simpa using hr)
  · simp
  · intro r hr
    cases hr
    exact .inr ⟨rfl, rfl⟩
  · simp
  · intro r hr
    cases hr

theorem drained_in_step_changed : Honest changing answersChange ∧
    Reachable answersChange changed ∧
    changed.subscription.drained.addresses.members = {"b", "c"} :=
  ⟨honest_change, reachable_changed,
    ((drained_in_step honest_change reachable_changed).1 change rfl).trans (by decide)⟩

end Watch

end ModelRegistry
