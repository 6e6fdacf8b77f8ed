import Mathlib.Data.Finset.Card
import ModelRegistry.Proofs.Storage

namespace ModelRegistry

def lastWord (log : List Mutation) (a : String) : Option Mutation :=
  (log.filter fun m => m = .add a ∨ m = .remove a).getLast?

theorem Mutation.eq_add_iff {m : Mutation} {a : String} :
    m = .add a ↔ m.kind = .add ∧ m.address = a := by
  cases m
  simp [add]

theorem Mutation.eq_remove_iff {m : Mutation} {a : String} :
    m = .remove a ↔ m.kind = .remove ∧ m.address = a := by
  cases m
  simp [remove]

theorem lastWord_concat (log : List Mutation) (m : Mutation) (a : String) :
    lastWord (log ++ [m]) a = if m = .add a ∨ m = .remove a then some m else lastWord log a := by
  by_cases h : m = .add a ∨ m = .remove a <;> simp [lastWord, List.filter_append, h]

theorem Mutation.mem_act_iff {m : Mutation} {A : Finset String} {a : String} :
    a ∈ m.act A ↔ m = .add a ∨ m ≠ .remove a ∧ a ∈ A := by
  rw [ne_eq, eq_add_iff, eq_remove_iff]
  cases hk : m.kind with
  | add => simp [act, hk, eq_comm]
  | remove => simp [act, hk, eq_comm]
  | unknown tag => simp [act, hk]

theorem mem_replay_iff {A : Finset String} {log : List Mutation} {a : String} :
    a ∈ replay A log ↔ lastWord log a = some (.add a) ∨ lastWord log a = none ∧ a ∈ A := by
  induction log using List.reverseRecOn with
  | nil => simp [replay, lastWord]
  | append_singleton log m ih =>
    rw [replay_append, lastWord_concat]
    change a ∈ m.act (replay A log) ↔ _
    rw [Mutation.mem_act_iff, ih]
    by_cases hadd : m = .add a
    · simp [hadd]
    · by_cases hremove : m = .remove a
      · simp [hremove, Mutation.add, Mutation.remove]
      · simp [hadd, hremove]

theorem lastWord_swap {m m' : Mutation} (h : m.address ≠ m'.address)
    (before after : List Mutation) (a : String) :
    lastWord (before ++ m' :: m :: after) a = lastWord (before ++ m :: m' :: after) a := by
  have hone : (m ≠ .add a ∧ m ≠ .remove a) ∨ m' ≠ .add a ∧ m' ≠ .remove a := by
    by_cases ha : m.address = a
    · have ha' : m'.address ≠ a := fun ha' => h (ha.trans ha'.symm)
      exact .inr ⟨fun he => ha' (he ▸ rfl), fun he => ha' (he ▸ rfl)⟩
    · exact .inl ⟨fun he => ha (he ▸ rfl), fun he => ha (he ▸ rfl)⟩
  unfold lastWord
  congr 1
  obtain hm | hm' := hone
  · simp [List.filter_append, List.filter_cons, hm]
  · simp [List.filter_append, List.filter_cons, hm']

theorem DiffBatch.mem_act_iff {A : Finset String} {b : DiffBatch} {a : String} :
    a ∈ b.act A ↔ lastWord b.log a = some (.add a) ∨
      lastWord b.log a = none ∧ (match b.snapshot with
        | some addresses => a ∈ addresses
        | none => a ∈ A) := by
  unfold act
  rw [mem_replay_iff]
  cases b.snapshot with
  | none => rfl
  | some addresses => simp only [List.mem_toFinset]

theorem DiffBatch.act_act (A : Finset String) (b : DiffBatch) : b.act (b.act A) = b.act A := by
  ext a
  rw [mem_act_iff, mem_act_iff]
  cases b.snapshot with
  | none => tauto
  | some addresses => rfl

theorem DiffBatch.act_swap (A : Finset String) {b : DiffBatch} {before after : List Mutation}
    {m m' : Mutation} (hb : b.log = before ++ m :: m' :: after) (h : m.address ≠ m'.address) :
    { b with log := before ++ m' :: m :: after }.act A = b.act A := by
  ext a
  rw [mem_act_iff, mem_act_iff, hb]
  simp only [lastWord_swap h]

namespace Replica

variable {r : Replica}

theorem contains_iff (h : r.addresses.Coherent) {a : String} :
    r.contains a ↔ a ∈ r.addresses.members := by
  rw [AddressSet.mem_members]
  exact h.contains_iff_mem

theorem contains_eq_of_members {r' : Replica} (h : r.addresses.Coherent)
    (h' : r'.addresses.Coherent) (heq : r'.addresses.members = r.addresses.members) (a : String) :
    r'.contains a = r.contains a := by
  rw [Bool.eq_iff_iff, contains_iff h, contains_iff h', heq]

structure Lists (r : Replica) : Prop where
  mem : ∀ a, a ∈ r.toList ↔ r.contains a
  nodup : r.toList.Nodup
  size : ∃ A : Finset String, (∀ a, a ∈ A ↔ r.contains a) ∧ r.size = A.card
  isEmpty : r.isEmpty ↔ ∀ a, ¬ r.contains a

theorem lists_of_coherent (h : r.addresses.Coherent) : r.Lists := by
  have hmem (a : String) : a ∈ r.toList ↔ r.contains a := h.contains_iff_mem.symm
  constructor
  · exact hmem
  · exact h.nodup
  · refine ⟨r.addresses.members, fun a => (contains_iff h).symm, ?_⟩
    rw [AddressSet.members, List.toFinset_card_of_nodup h.nodup]
    exact Array.length_toList.symm
  · have hempty : r.isEmpty ↔ r.toList = [] := by
      rw [isEmpty, beq_iff_eq, ← List.length_eq_zero_iff]
      exact Eq.congr_left Array.length_toList.symm
    rw [hempty, List.eq_nil_iff_forall_not_mem]
    exact forall_congr' fun a => not_congr (hmem a)

structure Heeds (r : Replica) (b : DiffBatch) : Prop where
  contains : ∀ a, (r.apply b).contains a ↔ lastWord b.log a = some (.add a) ∨
    lastWord b.log a = none ∧ (match b.snapshot with
      | some addresses => a ∈ addresses
      | none => r.contains a)
  lists : (r.apply b).Lists
  again : ∀ a, ((r.apply b).apply b).contains a = (r.apply b).contains a
  swap : ∀ before m m' after, b.log = before ++ m :: m' :: after → m.address ≠ m'.address →
    ∀ a, (r.apply { b with log := before ++ m' :: m :: after }).contains a =
      (r.apply b).contains a

theorem heeds_of_coherent (h : r.addresses.Coherent) (b : DiffBatch) : r.Heeds b := by
  have hmembers (b : DiffBatch) : (r.apply b).addresses.members = b.act r.addresses.members :=
    AddressSet.members_apply h b
  constructor
  · intro a
    rw [contains_iff (h.apply b), hmembers, DiffBatch.mem_act_iff]
    cases b.snapshot with
    | none => simp only [contains_iff h]
    | some addresses => rfl
  · exact lists_of_coherent (h.apply b)
  · apply contains_eq_of_members (h.apply b) ((h.apply b).apply b)
    rw [hmembers, ← DiffBatch.act_act, ← hmembers]
    exact AddressSet.members_apply (h.apply b) b
  · intro before m m' after hb hne
    apply contains_eq_of_members (h.apply b) (h.apply _)
    rw [hmembers, hmembers]
    exact DiffBatch.act_swap _ hb hne

theorem fed_heeds (model : ModelId) (batches : List DiffBatch) (b : DiffBatch) :
    (fed model batches).Lists ∧ (fed model batches).Heeds b :=
  ⟨lists_of_coherent (coherent_fed model batches), heeds_of_coherent (coherent_fed model batches) b⟩

end Replica

end ModelRegistry
