import Mathlib.Data.Finset.Erase
import Mathlib.Data.Finset.Lattice.Lemmas
import Mathlib.Data.List.Nodup
import ModelRegistry.Replica

namespace ModelRegistry

def Mutation.act (A : Finset String) (m : Mutation) : Finset String :=
  match m.kind with
  | .add => insert m.address A
  | .remove => A.erase m.address
  | .unknown _ => A

def replay (A : Finset String) (log : List Mutation) : Finset String := log.foldl Mutation.act A

def DiffBatch.act (A : Finset String) (b : DiffBatch) : Finset String :=
  replay (match b.snapshot with
    | some addresses => addresses.toFinset
    | none => A) b.log

theorem replay_append (A : Finset String) (log more : List Mutation) :
    replay A (log ++ more) = replay (replay A log) more := by
  simp [replay]

namespace AddressSet

/-- The index gives each slot of the array its address, and nothing else. -/
def Coherent (s : AddressSet) : Prop :=
  ∀ (a : String) (i : Nat), s.index[a]? = some i ↔ s.addrs[i]? = some a

def members (s : AddressSet) : Finset String := s.toList.toFinset

theorem mem_toList_iff {s : AddressSet} {a : String} :
    a ∈ s.toList ↔ ∃ i : Nat, s.addrs[i]? = some a := by
  simp only [toList, Array.mem_toList_iff, Array.mem_iff_getElem?]

theorem mem_members {s : AddressSet} {a : String} : a ∈ s.members ↔ a ∈ s.toList := by
  simp [members]

theorem contains_iff {s : AddressSet} {a : String} :
    s.contains a ↔ ∃ i, s.index[a]? = some i := by
  rw [contains, Std.HashMap.contains_eq_isSome_getElem?, Option.isSome_iff_exists]

theorem Coherent.contains_iff_mem {s : AddressSet} (h : s.Coherent) {a : String} :
    s.contains a ↔ a ∈ s.toList := by
  rw [contains_iff, mem_toList_iff]
  exact exists_congr (h a)

theorem Coherent.nodup {s : AddressSet} (h : s.Coherent) : s.toList.Nodup := by
  rw [List.nodup_iff_getElem?_ne_getElem?]
  intro i j hij hj he
  have hi : i < s.toList.length := hij.trans hj
  have ha : s.toList[i]? = some s.toList[i] := List.getElem?_eq_getElem hi
  have hb : s.toList[j]? = some s.toList[i] := he ▸ ha
  simp only [toList, Array.getElem?_toList] at ha hb
  have hia := (h _ _).mpr ha
  have hib := (h _ _).mpr hb
  have heq : i = j := Option.some.inj (hia.symm.trans hib)
  omega

theorem coherent_empty : empty.Coherent := by
  intro a i
  simp [empty]

theorem Coherent.insert {s : AddressSet} (h : s.Coherent) (a : String) : (s.insert a).Coherent := by
  unfold AddressSet.insert
  split
  · exact h
  · rename_i ha
    intro b i
    have hb := h b i
    have hn : ∀ j : Nat, s.addrs[j]? ≠ some a := by
      intro j hj
      exact ha (contains_iff.mpr ⟨j, (h a j).mpr hj⟩)
    simp only [Std.HashMap.getElem?_insert, Array.getElem?_push]
    grind

theorem mem_toList_insert {s : AddressSet} (h : s.Coherent) (a b : String) :
    b ∈ (s.insert a).toList ↔ b = a ∨ b ∈ s.toList := by
  unfold AddressSet.insert
  split
  · rename_i ha
    have hm := h.contains_iff_mem.mp ha
    grind
  · simp [toList, or_comm]

def vacate (addrs : Array String) (i : Nat) : Array String :=
  (addrs.swapIfInBounds i (addrs.size - 1)).pop

theorem getElem?_vacate (addrs : Array String) {i : Nat} (hi : i < addrs.size) (j : Nat) :
    (vacate addrs i)[j]? =
      if j < addrs.size - 1 then (if j = i then addrs[addrs.size - 1]? else addrs[j]?)
      else none := by
  have hl : addrs.size - 1 < addrs.size := by omega
  simp only [vacate, Array.getElem?_pop, Array.swapIfInBounds, hi, hl,
    ↓reduceDIte, Array.getElem?_swap]
  grind

theorem remove_of_slot {s : AddressSet} {a : String} {i : Nat} (h : s.index[a]? = some i) :
    s.remove a = ⟨vacate s.addrs i, match (vacate s.addrs i)[i]? with
      | some moved => (s.index.erase a).insert moved i
      | none => s.index.erase a⟩ := by
  unfold AddressSet.remove
  split
  · rename_i hnone
    rw [hnone] at h
    cases h
  · rename_i j hj
    obtain rfl : i = j := Option.some.inj (h.symm.trans hj)
    rfl

theorem remove_of_absent {s : AddressSet} {a : String} (h : s.index[a]? = none) :
    s.remove a = s := by
  simp [remove, h]

theorem Coherent.remove {s : AddressSet} (h : s.Coherent) (a : String) : (s.remove a).Coherent := by
  cases hs : s.index[a]? with
  | none => rw [remove_of_absent hs]; exact h
  | some i =>
    rw [remove_of_slot hs]
    have ha := (h a i).mp hs
    have hi : i < s.addrs.size := (Array.getElem?_eq_some_iff.mp ha).1
    intro b j
    have hb := h b j
    by_cases hlast : i = s.addrs.size - 1
    · have hnone : (vacate s.addrs i)[i]? = none := by
        rw [getElem?_vacate s.addrs hi, if_neg (by omega)]
      simp only [hnone, getElem?_vacate s.addrs hi, Std.HashMap.getElem?_erase]
      grind
    · have hlt : i < s.addrs.size - 1 := by omega
      obtain ⟨m, hm⟩ : ∃ m, s.addrs[s.addrs.size - 1]? = some m :=
        ⟨_, Array.getElem?_eq_getElem (by omega)⟩
      have hmoved : (vacate s.addrs i)[i]? = some m := by simp [getElem?_vacate s.addrs hi, hlt, hm]
      have hmi := (h m _).mpr hm
      simp only [hmoved, getElem?_vacate s.addrs hi, Std.HashMap.getElem?_insert,
        Std.HashMap.getElem?_erase]
      grind

theorem mem_toList_remove {s : AddressSet} (h : s.Coherent) (a b : String) :
    b ∈ (s.remove a).toList ↔ b ≠ a ∧ b ∈ s.toList := by
  cases hs : s.index[a]? with
  | none =>
    have hn : a ∉ s.toList := by
      intro ha
      obtain ⟨i, hi⟩ := mem_toList_iff.mp ha
      simp [(h a i).mpr hi] at hs
    rw [remove_of_absent hs]
    grind
  | some i =>
    have ha := (h a i).mp hs
    have hi : i < s.addrs.size := (Array.getElem?_eq_some_iff.mp ha).1
    have hinj : ∀ j : Nat, s.addrs[j]? = some a → j = i := by
      intro j hj
      exact Option.some.inj (((h a j).mpr hj).symm.trans hs)
    rw [remove_of_slot hs, mem_toList_iff, mem_toList_iff]
    simp only [getElem?_vacate s.addrs hi]
    constructor
    · rintro ⟨j, hj⟩
      grind
    · rintro ⟨hne, j, hj⟩
      have hj' : j < s.addrs.size := (Array.getElem?_eq_some_iff.mp hj).1
      by_cases hl : j = s.addrs.size - 1
      · exact ⟨i, by grind⟩
      · exact ⟨j, by grind⟩

theorem members_insert {s : AddressSet} (h : s.Coherent) (a : String) :
    (s.insert a).members = Insert.insert a s.members := by
  ext b
  rw [mem_members, mem_toList_insert h, Finset.mem_insert, mem_members]

theorem members_remove {s : AddressSet} (h : s.Coherent) (a : String) :
    (s.remove a).members = s.members.erase a := by
  ext b
  rw [mem_members, mem_toList_remove h, Finset.mem_erase, mem_members]

theorem Coherent.mutate {s : AddressSet} (h : s.Coherent) (m : Mutation) :
    (s.mutate m).Coherent := by
  unfold AddressSet.mutate
  split
  · exact h.insert _
  · exact h.remove _
  · exact h

theorem members_mutate {s : AddressSet} (h : s.Coherent) (m : Mutation) :
    (s.mutate m).members = m.act s.members := by
  cases hk : m.kind with
  | add => simpa only [AddressSet.mutate, Mutation.act, hk] using members_insert h _
  | remove => simpa only [AddressSet.mutate, Mutation.act, hk] using members_remove h _
  | unknown tag => simp only [AddressSet.mutate, Mutation.act, hk]

theorem Coherent.foldl_mutate {s : AddressSet} (h : s.Coherent) (log : List Mutation) :
    (log.foldl AddressSet.mutate s).Coherent ∧
      (log.foldl AddressSet.mutate s).members = replay s.members log := by
  induction log generalizing s with
  | nil => exact ⟨h, rfl⟩
  | cons m log ih =>
    obtain ⟨hc, hm⟩ := ih (h.mutate m)
    exact ⟨hc, hm.trans (by rw [members_mutate h]; rfl)⟩

theorem Coherent.foldl_insert {s : AddressSet} (h : s.Coherent) (addresses : List String) :
    (addresses.foldl AddressSet.insert s).Coherent ∧
      (addresses.foldl AddressSet.insert s).members = s.members ∪ addresses.toFinset := by
  induction addresses generalizing s with
  | nil => exact ⟨h, by simp⟩
  | cons a addresses ih =>
    obtain ⟨hc, hm⟩ := ih (h.insert a)
    refine ⟨hc, hm.trans ?_⟩
    rw [members_insert h, List.toFinset_cons, Finset.insert_union, Finset.union_insert]

theorem coherent_ofList (addresses : List String) : (ofList addresses).Coherent :=
  (coherent_empty.foldl_insert addresses).1

theorem members_ofList (addresses : List String) :
    (ofList addresses).members = addresses.toFinset := by
  have h := (coherent_empty.foldl_insert addresses).2
  rwa [show empty.members = ∅ from rfl, Finset.empty_union] at h

theorem Coherent.apply {s : AddressSet} (h : s.Coherent) (b : DiffBatch) :
    (s.apply b).Coherent := by
  unfold AddressSet.apply
  cases b.snapshot with
  | none => exact (h.foldl_mutate b.log).1
  | some addresses => exact ((coherent_ofList addresses).foldl_mutate b.log).1

theorem members_apply {s : AddressSet} (h : s.Coherent) (b : DiffBatch) :
    (s.apply b).members = b.act s.members := by
  unfold AddressSet.apply DiffBatch.act
  cases b.snapshot with
  | none => exact (h.foldl_mutate b.log).2
  | some addresses =>
    simp only [← members_ofList addresses]
    exact ((coherent_ofList addresses).foldl_mutate b.log).2

end AddressSet

end ModelRegistry
