import ModelRegistry.Proofs.Inquiry
import ModelRegistry.Proofs.Synchrony

namespace ModelRegistry

def Producer.held (p : Producer) : Option Cursor :=
  match p.stage with
  | .calling k => match k.stage with
    | .operating _ => some p.asked
    | _ => some p.ask.asked
  | .sending (.batch _) next => some next
  | _ => none

theorem Producer.held_of_calling {p : Producer} {k : Call Response} (hp : p.stage = .calling k)
    (hk : ∀ link, k.stage ≠ .operating link) : p.held = some p.ask.asked := by
  cases hs : k.stage with
  | operating link => exact absurd hs (hk link)
  | _ => simp [held, hp, hs]

theorem Producer.held_of_operating {p : Producer} {k : Call Response} {link : Link}
    (hp : p.stage = .calling k) (hk : k.stage = .operating link) : p.held = some p.asked := by
  simp [held, hp, hk]

namespace Subscription

def reached (s : Subscription) : Finset String :=
  match s.producer.stage with
  | .sending (.batch b) _ => b.act s.drained.addresses.members
  | _ => s.drained.addresses.members

structure Follows (lax : Prop) (r : MemoryRegistry) (s : Subscription) : Prop where
  proper : s.Proper
  coherent : s.replica.addresses.Coherent
  used : ∀ k link, s.producer.stage = .calling k → k.stage = .operating link →
    s.producer.fresh = false
  reset : ∀ resumes, s.producer.stage = .pausing resumes → s.producer.cursor = .empty
  told : (s.listening = false ∨ ∃ e, .gone e ∈ s.queue) → s.producer.stage = .stopped
  inStep : ∀ c, s.producer.held = some c → r.InStep lax s.replica.model c s.reached

open MemoryRegistry

variable {lax : Prop}

theorem follows_start {r : MemoryRegistry} (hr : Distinct r.identities) (retry : RetrySettings)
    (model : ModelId) : (start retry model).Follows lax r where
  proper := proper_start retry model
  coherent := AddressSet.coherent_empty
  used := by
    intro k link hk hop
    cases hk
    cases hop
  reset := by
    intro resumes h
    cases h
  told := by
    rintro (h | ⟨e, h⟩)
    · cases h
    · cases h
  inStep := by
    intro c hc
    obtain rfl : Cursor.empty = c := Option.some.inj hc
    exact inStep_empty hr _ _

theorem Follows.keeps {H : ModelId → Cursor → Prop} {r r' : MemoryRegistry} {s : Subscription}
    (h : s.Follows lax r) (hk : Keeps lax H r r')
    (hH : ∀ c, s.producer.held = some c → H s.replica.model c) : s.Follows lax r' :=
  ⟨h.proper, h.coherent, h.used, h.reset, h.told,
    fun c hc => hk.inStep _ _ _ (hH c hc) (h.inStep c hc)⟩

theorem follows_unpark_iff {r : MemoryRegistry} {caller : Nat} {s : Subscription} :
    s.Follows lax (r.unpark caller) ↔ s.Follows lax r := by
  constructor
  · intro h
    exact ⟨h.proper, h.coherent, h.used, h.reset, h.told,
      fun c hc => ⟨(h.inStep c hc).agrees, (h.inStep c hc).issued⟩⟩
  · intro h
    exact ⟨h.proper, h.coherent, h.used, h.reset, h.told,
      fun c hc => ⟨(h.inStep c hc).agrees, (h.inStep c hc).issued⟩⟩

theorem Follows.call {r : MemoryRegistry} {s s' : Subscription} {k k' : Call Response}
    (h : s.Follows lax r) (hs : s.producer.stage = .calling k)
    (hs' : s'.producer.stage = .calling k')
    (hq : s'.queue = s.queue) (hl : s'.listening = s.listening) (hr : s'.replica = s.replica)
    (hk : k'.Ongoing) (hu : ∀ link, k'.stage = .operating link → s'.producer.fresh = false)
    (hc : s'.producer.held = s.producer.held) : s'.Follows lax r where
  proper := by
    intro k₁ h₁
    obtain rfl : k' = k₁ := by simpa [hs'] using h₁
    exact hk
  coherent := hr ▸ h.coherent
  used := by
    intro k₁ link h₁ hop
    obtain rfl : k' = k₁ := by simpa [hs'] using h₁
    exact hu link hop
  reset := by
    intro resumes h₁
    simp [hs'] at h₁
  told := by
    rw [hl, hq]
    intro ht
    have hstop := h.told ht
    simp [hs] at hstop
  inStep := by
    intro c hheld
    have hreach : s'.reached = s.reached := by
      simp [reached, hs, hs', drained, hq, hr]
    rw [hreach, hr]
    exact h.inStep c (hc ▸ hheld)

theorem Follows.resume {r : MemoryRegistry} {s : Subscription} {p : Producer}
    {retry : RetrySettings} (hp : s.producer = p.resume retry)
    (hcoherent : s.replica.addresses.Coherent)
    (ht : ¬ (s.listening = false ∨ ∃ e, .gone e ∈ s.queue))
    (hc : r.InStep lax s.replica.model p.cursor s.drained.addresses.members) : s.Follows lax r := by
  have hst : s.producer.stage = .calling (.start retry none) := by rw [hp, Producer.resume]
  have hheld : s.producer.held = some p.cursor := by
    rw [Producer.held_of_calling hst (by simp [Call.start]), hp]
    rfl
  constructor
  · intro k hk
    obtain rfl : Call.start retry none = k := by simpa [hst] using hk
    exact Call.ongoing_start retry
  · exact hcoherent
  · intro k link hk hop
    obtain rfl : Call.start retry none = k := by simpa [hst] using hk
    cases hop
  · intro resumes hpause
    simp [hst] at hpause
  · exact fun h => absurd h ht
  · intro c hheld'
    obtain rfl : p.cursor = c := Option.some.inj (hheld.symm.trans hheld')
    simpa [reached, hst] using hc

theorem Follows.rest {r : MemoryRegistry} {s s' : Subscription} (h : s.Follows lax r)
    (hr : s'.replica = s.replica) (hk : ∀ k, s'.producer.stage ≠ .calling k)
    (hp : ∀ resumes, s'.producer.stage = .pausing resumes → s'.producer.cursor = .empty)
    (ht : (s'.listening = false ∨ ∃ e, .gone e ∈ s'.queue) → s'.producer.stage = .stopped)
    (hc : s'.producer.held = none) : s'.Follows lax r where
  proper := fun k h₁ => absurd h₁ (hk k)
  coherent := hr ▸ h.coherent
  used := fun k link h₁ _ => absurd h₁ (hk k)
  reset := hp
  told := ht
  inStep := by
    intro c hheld
    simp [hc] at hheld

theorem Follows.pass {r : MemoryRegistry} {s : Subscription} {k k' : Call Response}
    (h : s.Follows lax r) (hs : s.producer.stage = .calling k)
    (hk : ∀ link, k.stage ≠ .operating link)
    (ho : k'.Ongoing) (hk' : ∀ link, k'.stage ≠ .operating link) :
    (s.staged (.calling k')).Follows lax r := by
  refine h.call hs (staged_stage ..) rfl rfl rfl ho (fun link hop => absurd hop (hk' link)) ?_
  rw [Producer.held_of_calling hs hk, Producer.held_of_calling (staged_stage ..) hk',
    staged_ask_asked]

theorem Follows.not_told {r : MemoryRegistry} {s : Subscription} (h : s.Follows lax r)
    (hs : s.producer.stage ≠ .stopped) : ¬ (s.listening = false ∨ ∃ e, .gone e ∈ s.queue) :=
  fun ht => hs (h.told ht)

theorem Follows.succeed {r : MemoryRegistry} {s : Subscription} {k : Call Response} {link : Link}
    {response : Response} (h : s.Follows lax r) (hs : s.producer.stage = .calling k)
    (hk : k.stage = .operating link)
    (ha : r.answer s.replica.model s.producer.asked = .ok (some response)) :
    (s.staged (.sending (.batch response.batch) response.next)).Follows lax r where
  proper := by
    intro k' hk'
    simp at hk'
  coherent := h.coherent
  used := by
    intro k' link' hk'
    simp at hk'
  reset := by
    intro resumes hpause
    simp at hpause
  told := fun ht => absurd ht (h.not_told (by simp [hs]))
  inStep := by
    intro c hc
    obtain rfl : response.next = c := Option.some.inj hc
    have hstep := h.inStep _ (Producer.held_of_operating hs hk)
    have hreach : s.reached = s.drained.addresses.members := by simp [reached, hs]
    rw [hreach] at hstep
    exact hstep.of_answer ha

theorem Follows.fail {r : MemoryRegistry} (hr : Distinct r.identities) {s : Subscription}
    {k k' : Call Response} {link : Link} {e : Error} (h : s.Follows lax r)
    (hs : s.producer.stage = .calling k) (hk : k.stage = .operating link) (ho : k'.Ongoing)
    (hk' : k'.stage = .failed (some link) e) : (s.staged (.calling k')).Follows lax r where
  proper := by
    intro k₁ h₁
    obtain rfl : k' = k₁ := by simpa using h₁
    exact ho
  coherent := h.coherent
  used := by
    intro k₁ link₁ h₁ hop
    obtain rfl : k' = k₁ := by simpa using h₁
    simp [hk'] at hop
  reset := by
    intro resumes hpause
    simp at hpause
  told := fun ht => absurd ht (h.not_told (by simp [hs]))
  inStep := by
    have hempty : (s.staged (.calling k')).producer.held = some .empty := by
      rw [Producer.held_of_calling (staged_stage ..) (by simp [hk']), staged_ask_asked]
      simp [Producer.ask, h.used k link hs hk]
    intro c hc
    obtain rfl : Cursor.empty = c := by simpa [hempty] using hc
    exact inStep_empty hr _ _

theorem Follows.send {r : MemoryRegistry} {s : Subscription} {update : Update} {next : Cursor}
    (h : s.Follows lax r) (hs : s.producer.stage = .sending update next) (hl : s.listening)
    (retry : RetrySettings) : (s.send retry update next).Follows lax r := by
  cases update with
  | gone e =>
    have hstop : (s.send retry (.gone e) next).producer.stage = .stopped := by
      simp [Subscription.send, hl]
    exact h.rest (by simp [Subscription.send, hl]) (by simp [hstop]) (by simp [hstop])
      (fun _ => hstop) (by simp [Producer.held, hstop])
  | batch b =>
    have hp : (s.send retry (.batch b) next).producer =
        { s.producer with cursor := next }.resume retry := by simp [Subscription.send, hl]
    have hrep : (s.send retry (.batch b) next).replica = s.replica := by
      simp [Subscription.send, hl]
    refine .resume hp (hrep ▸ h.coherent) ?_ ?_
    · intro ht
      exact h.not_told (by simp [hs]) (by simpa [Subscription.send, hl] using ht)
    · have hstep := h.inStep next (by simp [Producer.held, hs])
      have hdrained : s.drained.addresses.Coherent := coherent_foldl_deliver h.coherent s.queue
      have hset : s.reached = (s.drained.addresses.apply b).members := by
        rw [AddressSet.members_apply hdrained]
        simp only [reached, hs]
      rw [hrep, drained_send hl]
      rw [hset] at hstep
      exact hstep

theorem Follows.produce {r : MemoryRegistry} (hr : Distinct r.identities) {s s' : Subscription}
    {n : Option Note} (h : s.Follows lax r) (hm : s.Moved n s')
    (hans : ∀ response, n = some (.answered (.ok response)) →
      r.answer s.replica.model s.producer.asked = .ok (some response)) : s'.Follows lax r := by
  cases hm with
  | stay => exact h
  | connect hst hk ho hk' => exact h.pass hst (by simp [hk]) ho (by simp [hk'])
  | miss hst hk ho hk' => exact h.pass hst (by simp [hk]) ho (by simp [hk'])
  | ask hst hk ho hk' =>
    refine h.call hst (staged_stage ..) rfl rfl rfl ho (fun _ _ => rfl) ?_
    rw [Producer.held_of_calling hst (by simp [hk]),
      Producer.held_of_operating (staged_stage ..) hk']
    rfl
  | succeed hst hk => exact h.succeed hst hk (hans _ rfl)
  | fail hst hk ho hk' => exact h.fail hr hst hk ho hk'
  | close hst hk ho hk' => exact h.pass hst (by simp [hk]) ho (by simp [hk'])
  | retry hst hk he ho hk' =>
    exact h.pass hst (by rcases hk with hk | hk <;> simp [hk]) ho (by simp [hk'])
  | leave hst hk he =>
    refine h.rest rfl (by simp) (by simp) ?_ rfl
    exact fun ht => absurd ht (h.not_told (by simp [hst]))
  | reset hst hk he hn =>
    refine h.rest rfl (by simp) (fun _ _ => rfl) ?_ rfl
    exact fun ht => absurd ht (h.not_told (by simp [hst]))
  | again hst hk ho hk' => exact h.pass hst (by simp [hk]) ho (by simp [hk'])
  | @resume resumes retry hst =>
    refine .resume rfl h.coherent (h.not_told (by simp [hst])) ?_
    rw [h.reset resumes hst]
    exact inStep_empty hr _ _
  | queue hst hl => exact h.send hst hl _
  | stop hst hl => exact absurd (h.told (.inl hl)) (by simp [hst])

theorem Follows.consume {r : MemoryRegistry} {s s' : Subscription} {u : Update}
    (h : s.Follows lax r) (hc : s.consume = some (u, s')) : s'.Follows lax r := by
  have hreach : s'.reached = s.reached := by
    have hp := (consume_producer hc).1
    have hd : s'.drained = s.drained := by
      obtain ⟨-, ⟨b, rest, -, hq, rfl⟩ | ⟨e, rest, -, hq, rfl⟩⟩ := consume_cases hc <;>
        simp [drained, hq, Update.deliver]
    simp only [reached, hp, hd]
  have hstep : ∀ c, s'.producer.held = some c → r.InStep lax s'.replica.model c s'.reached := by
    rw [hreach, (consume_producer hc).1, (consume_producer hc).2]
    exact h.inStep
  obtain ⟨-, ⟨b, rest, -, hq, rfl⟩ | ⟨e, rest, -, hq, rfl⟩⟩ := consume_cases hc
  · refine ⟨h.proper, h.coherent.apply b, h.used, h.reset, ?_, hstep⟩
    rintro (hf | ⟨e, he⟩)
    · exact h.told (.inl hf)
    · exact h.told (.inr ⟨e, by rw [hq]; exact List.mem_cons_of_mem _ he⟩)
  · refine ⟨h.proper, h.coherent, h.used, h.reset, fun _ => ?_, hstep⟩
    exact h.told (.inr ⟨e, by rw [hq]; exact List.mem_cons_self ..⟩)

theorem Follows.converged {r : MemoryRegistry} {s : Subscription} {k : Call Response} {link : Link}
    (h : s.Follows lax r) (hs : s.producer.stage = .calling k) (hk : k.stage = .operating link)
    (hq : s.queue = [] ∨ s.listening = false)
    (hl : r.look link s.replica.model s.producer.asked = .ok none) :
    r.isOpen link ∧ s.replica.toList.Nodup ∧ ∃ e, r.entries[s.replica.model]? = some e ∧
      s.replica.addresses.members = e.addresses.toFinset := by
  have hempty : s.queue = [] := by
    refine hq.resolve_right fun hf => ?_
    have hstop := h.told (.inl hf)
    simp [hs] at hstop
  have hstep := h.inStep _ (Producer.held_of_operating hs hk)
  obtain ⟨hopen, e, he, hset⟩ := hstep.of_look hl
  refine ⟨hopen, h.coherent.nodup, e, he, ?_⟩
  rw [← hset]
  simp [reached, hs, drained, hempty]

end Subscription

end ModelRegistry
