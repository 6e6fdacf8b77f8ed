import ModelRegistry.MemoryRegistry
import ModelRegistry.Proofs.AddressSet

namespace ModelRegistry

namespace Entry

/-- `A` was the set of the entry at `seqno`: what has been logged since leads to the present one. -/
structure Dates (e : Entry) (seqno : Nat) (A : Finset String) : Prop where
  start_le : e.logStart ≤ seqno
  le_next : seqno ≤ e.next
  replay_eq : replay A (e.logFrom seqno) = e.addresses.toFinset

theorem dates_next (e : Entry) : e.Dates e.next e.addresses.toFinset where
  start_le := Nat.le_add_right _ _
  le_next := Nat.le_refl _
  replay_eq := by simp [logFrom, next, replay]

theorem Dates.eq_of_next {e : Entry} {A : Finset String} (h : e.Dates e.next A) :
    A = e.addresses.toFinset := by
  rw [← h.replay_eq]
  simp [logFrom, next, replay]

theorem Dates.append {e e' : Entry} {seqno : Nat} {A : Finset String} {m : Mutation}
    (h : e.Dates seqno A) (hstart : e'.logStart = e.logStart) (hlog : e'.log = e.log ++ [m])
    (hm : m.act e.addresses.toFinset = e'.addresses.toFinset) : e'.Dates seqno A := by
  have hle := h.start_le
  have hnext := h.le_next
  simp only [next] at hnext
  have hfrom : e'.logFrom seqno = e.logFrom seqno ++ [m] := by
    rw [logFrom, hlog, hstart, List.drop_append_of_le_length (by omega), logFrom]
  constructor
  · omega
  · simp only [next, hstart, hlog, List.length_append, List.length_singleton]
    omega
  · rw [hfrom, replay_append, h.replay_eq, ← hm]
    rfl

theorem Dates.add {e : Entry} {seqno : Nat} {A : Finset String} (h : e.Dates seqno A)
    (address : String) : (e.add address).Dates seqno A := by
  unfold Entry.add
  split
  · exact h
  · refine h.append rfl rfl ?_
    simp only [Mutation.act, Mutation.add, List.toFinset_append, List.toFinset_cons,
      List.toFinset_nil]
    ext a
    simp

theorem next_add_le (e : Entry) (address : String) : (e.add address).next ≤ e.next + 1 := by
  unfold Entry.add next
  split
  · exact Nat.le_succ _
  · simp [Nat.add_assoc]

theorem next_remove_le (e : Entry) (address : String) :
    (e.remove address).next ≤ e.next + 1 := by
  unfold Entry.remove next
  split
  · simp [Nat.add_assoc]
  · exact Nat.le_succ _

theorem Dates.remove {e : Entry} {seqno : Nat} {A : Finset String} (h : e.Dates seqno A)
    (address : String) : (e.remove address).Dates seqno A := by
  unfold Entry.remove
  split
  · refine h.append rfl rfl ?_
    simp only [Mutation.act, Mutation.remove]
    ext a
    simp [and_comm]
  · exact h

def Fits (lax : Prop) (e : Entry) (seqno : Nat) (A : Finset String) : Prop :=
  e.Dates seqno A ∨ lax ∧ e.next < seqno

theorem Fits.dates {lax : Prop} {e : Entry} {seqno : Nat} {A : Finset String}
    (h : e.Fits lax seqno A) (hle : seqno ≤ e.next) : e.Dates seqno A := by
  refine h.resolve_right fun hlt => ?_
  omega

theorem Fits.mono {lax : Prop} {e e' : Entry} {seqno : Nat} {A : Finset String}
    (h : e.Fits lax seqno A) (hd : e.Dates seqno A → e'.Dates seqno A)
    (hl : lax → e.next < seqno → e'.next < seqno) : e'.Fits lax seqno A :=
  Or.imp hd (fun hlt => ⟨hlt.1, hl hlt.1 hlt.2⟩) h

theorem answer_eq_none_iff {identity : String} {e : Entry} {c : Cursor} :
    e.answer identity c = none ↔ c.instanceId = identity ∧ c.seqno = e.next := by
  unfold answer
  have hle : e.logStart ≤ e.next := Nat.le_add_right _ _
  split
  · rename_i h
    simp only [reduceCtorEq, false_iff, not_and]
    intro hi hs
    rcases h with h | h | h
    · exact h hi
    · omega
    · omega
  · rename_i h
    simp only [not_or, ne_eq, not_not] at h
    split
    · simp only [reduceCtorEq, false_iff, not_and]
      omega
    · simp only [true_iff]
      exact ⟨h.1, by omega⟩

theorem act_of_answer {identity : String} {e : Entry} {c : Cursor} {A : Finset String}
    (h : c.instanceId = identity → e.logStart ≤ c.seqno → c.seqno ≤ e.next → e.Dates c.seqno A)
    {b : DiffBatch} (hb : e.answer identity c = some b) :
    b.act A = e.addresses.toFinset ∧ b.next = e.next := by
  unfold answer at hb
  split at hb
  · cases hb
    exact ⟨rfl, rfl⟩
  · rename_i hc
    simp only [not_or, ne_eq, not_not, Nat.not_lt] at hc
    split at hb
    · cases hb
      exact ⟨(h hc.1 hc.2.1 hc.2.2).replay_eq, rfl⟩
    · cases hb

end Entry

namespace MemoryRegistry

variable {lax : Prop}

def Matches (lax : Prop) (r : MemoryRegistry) (model : ModelId) (c : Cursor)
    (A : Finset String) : Prop :=
  c.instanceId = r.identity → ∀ e, r.entries[model]? = some e → e.Fits lax c.seqno A

def Issued (r : MemoryRegistry) (c : Cursor) : Prop :=
  c.instanceId = "" ∨ ∃ k ≤ r.restarts, c.instanceId = r.identities k

structure Distinct (identities : Nat → String) : Prop where
  injective : ∀ j k, identities j = identities k → j = k
  nonempty : ∀ k, identities k ≠ ""

structure InStep (lax : Prop) (r : MemoryRegistry) (model : ModelId) (c : Cursor)
    (A : Finset String) : Prop where
  agrees : r.Matches lax model c A
  issued : r.Issued c

theorem inStep_empty {r : MemoryRegistry} (hr : Distinct r.identities) (model : ModelId)
    (A : Finset String) : r.InStep lax model .empty A where
  agrees := fun h => absurd h.symm (hr.nonempty _)
  issued := .inl rfl

theorem InStep.of_answer {r : MemoryRegistry} {model : ModelId} {c : Cursor} {A : Finset String}
    (h : r.InStep lax model c A) {response : Response}
    (ha : r.answer model c = .ok (some response)) :
    r.InStep lax model response.next (response.batch.act A) := by
  unfold answer at ha
  split at ha
  · rename_i e he
    obtain ⟨b, hb, rfl⟩ : ∃ b, e.answer r.identity c = some b ∧ ⟨r.identity, b⟩ = response := by
      simpa using ha
    obtain ⟨hact, hnext⟩ := Entry.act_of_answer (fun hi _ hle => (h.agrees hi e he).dates hle) hb
    constructor
    · intro _ e' he'
      obtain rfl : e = e' := Option.some.inj (he.symm.trans he')
      simp only [Response.next, hact, hnext]
      exact .inl e.dates_next
    · exact .inr ⟨r.restarts, Nat.le_refl _, rfl⟩
  · cases ha

theorem look_eq_none_iff {r : MemoryRegistry} {link : Link} {model : ModelId} {c : Cursor} :
    r.look link model c = .ok none ↔ r.isOpen link ∧ ∃ e, r.entries[model]? = some e ∧
      c.instanceId = r.identity ∧ c.seqno = e.next := by
  unfold look checkOpen answer
  cases hopen : r.isOpen link with
  | false => simp [bind, Except.bind]
  | true =>
    cases he : r.entries[model]? with
    | none => simp [bind, Except.bind]
    | some e => simp [bind, Except.bind, Entry.answer_eq_none_iff]

theorem look_eq_some {r : MemoryRegistry} {link : Link} {model : ModelId} {c : Cursor}
    {response : Response} (h : r.look link model c = .ok (some response)) :
    r.answer model c = .ok (some response) := by
  unfold look checkOpen at h
  cases hopen : r.isOpen link with
  | false => simp [hopen, bind, Except.bind] at h
  | true => simpa [hopen, bind, Except.bind] using h

theorem InStep.of_look {r : MemoryRegistry} {link : Link} {model : ModelId} {c : Cursor}
    {A : Finset String} (h : r.InStep lax model c A) (hl : r.look link model c = .ok none) :
    r.isOpen link ∧ ∃ e, r.entries[model]? = some e ∧ A = e.addresses.toFinset := by
  obtain ⟨hopen, e, he, hi, hs⟩ := look_eq_none_iff.mp hl
  refine ⟨hopen, e, he, ?_⟩
  have hd := (h.agrees hi e he).dates (Nat.le_of_eq hs)
  rw [hs] at hd
  exact hd.eq_of_next

end MemoryRegistry

end ModelRegistry
