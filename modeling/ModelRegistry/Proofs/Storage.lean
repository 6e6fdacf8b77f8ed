import Mathlib.Data.List.Basic
import Mathlib.Data.List.Perm.Basic
import ModelRegistry.Proofs.AddressSet

namespace ModelRegistry

abbrev Roster := List String

namespace Roster

def insert (l : Roster) (a : String) : Roster := if a ∈ l then l else l ++ [a]

def remove (l : Roster) (a : String) : Roster :=
  match l.getLast? with
  | some last => if a ∈ l then (l.set (l.idxOf a) last).dropLast else l
  | none => l

def mutate (l : Roster) (m : Mutation) : Roster :=
  match m.kind with
  | .add => insert l m.address
  | .remove => remove l m.address
  | .unknown _ => l

def apply (l : Roster) (b : DiffBatch) : Roster :=
  b.log.foldl mutate (match b.snapshot with
    | some addresses => addresses.foldl insert []
    | none => l)

theorem remove_of_mem {l : Roster} {a last : String} (ha : a ∈ l) (hlast : l.getLast? = some last) :
    remove l a = (l.set (l.idxOf a) last).dropLast := by
  simp only [remove, hlast, if_pos ha]

theorem remove_of_not_mem {l : Roster} {a : String} (ha : a ∉ l) : remove l a = l := by
  unfold remove
  split
  · exact if_neg ha
  · rfl

end Roster

namespace AddressSet

variable {s : AddressSet}

def checkedSwapRemove (addrs : Array String) (i : Nat) : Option (Array String) := do
  let _ ← addrs[i]?
  let last ← addrs.back?
  return (addrs.setIfInBounds i last).pop

def checkedRemove (s : AddressSet) (a : String) : Option AddressSet :=
  match s.index[a]? with
  | none => some s
  | some i => do
    let addrs ← checkedSwapRemove s.addrs i
    let index := s.index.erase a
    return ⟨addrs, match addrs[i]? with
      | some moved => index.insert moved i
      | none => index⟩

def checkedMutate (s : AddressSet) (m : Mutation) : Option AddressSet :=
  match m.kind with
  | .add => some (s.insert m.address)
  | .remove => s.checkedRemove m.address
  | .unknown _ => some s

def checkedApply (s : AddressSet) (b : DiffBatch) : Option AddressSet :=
  b.log.foldlM checkedMutate (match b.snapshot with
    | some addresses => ofList addresses
    | none => s)

theorem vacate_eq {addrs : Array String} {i : Nat} {last : String} (hi : i < addrs.size)
    (hlast : addrs[addrs.size - 1]? = some last) :
    vacate addrs i = (addrs.setIfInBounds i last).pop := by
  apply Array.ext_getElem?
  intro j
  rw [getElem?_vacate addrs hi, hlast, Array.getElem?_pop, Array.getElem?_setIfInBounds]
  simp only [Array.size_setIfInBounds]
  grind

theorem toList_vacate {addrs : Array String} {i : Nat} {last : String} (hi : i < addrs.size)
    (hlast : addrs[addrs.size - 1]? = some last) :
    (vacate addrs i).toList = (addrs.toList.set i last).dropLast := by
  rw [vacate_eq hi hlast, Array.toList_pop, Array.toList_setIfInBounds]

theorem checkedSwapRemove_eq {addrs : Array String} {i : Nat} (hi : i < addrs.size) :
    checkedSwapRemove addrs i = some (vacate addrs i) := by
  have hlast : addrs.back? = some (addrs[addrs.size - 1]) := by
    rw [Array.back?_eq_getElem?]
    exact Array.getElem?_eq_getElem _
  have hvacate := vacate_eq hi (Array.back?_eq_getElem? ▸ hlast)
  simp [checkedSwapRemove, Array.getElem?_eq_getElem hi, hlast, hvacate]

theorem Coherent.lt_size (h : s.Coherent) {a : String} {i : Nat} (hi : s.index[a]? = some i) :
    i < s.addrs.size :=
  (Array.getElem?_eq_some_iff.1 ((h a i).1 hi)).1

theorem Coherent.checkedRemove_eq (h : s.Coherent) (a : String) :
    s.checkedRemove a = some (s.remove a) := by
  unfold checkedRemove
  split
  next hnone => rw [remove_of_absent hnone]
  next i hi =>
    rw [checkedSwapRemove_eq (h.lt_size hi), remove_of_slot hi]
    rfl

theorem Coherent.checkedMutate_eq (h : s.Coherent) (m : Mutation) :
    s.checkedMutate m = some (s.mutate m) := by
  cases hk : m.kind with
  | remove => simpa only [checkedMutate, AddressSet.mutate, hk] using h.checkedRemove_eq m.address
  | _ => simp only [checkedMutate, AddressSet.mutate, hk]

theorem Coherent.foldlM_checkedMutate (h : s.Coherent) (log : List Mutation) :
    log.foldlM checkedMutate s = some (log.foldl AddressSet.mutate s) := by
  induction log generalizing s with
  | nil => rfl
  | cons m log ih =>
    rw [List.foldlM_cons, h.checkedMutate_eq]
    exact ih (h.mutate m)

theorem Coherent.checkedApply_eq (h : s.Coherent) (b : DiffBatch) :
    s.checkedApply b = some (s.apply b) := by
  unfold checkedApply AddressSet.apply
  cases b.snapshot with
  | none => exact h.foldlM_checkedMutate b.log
  | some addresses => exact (coherent_ofList addresses).foldlM_checkedMutate b.log

theorem Coherent.foldlM_checkedApply (h : s.Coherent) (batches : List DiffBatch) :
    batches.foldlM checkedApply s = some (batches.foldl AddressSet.apply s) := by
  induction batches generalizing s with
  | nil => rfl
  | cons b batches ih =>
    rw [List.foldlM_cons, h.checkedApply_eq]
    exact ih (h.apply b)

theorem Coherent.toList_insert (h : s.Coherent) (a : String) :
    (s.insert a).toList = Roster.insert s.toList a := by
  unfold AddressSet.insert Roster.insert
  have hmem : s.index.contains a ↔ a ∈ s.toList := h.contains_iff_mem
  by_cases ha : a ∈ s.toList
  · rw [if_pos (hmem.2 ha), if_pos ha]
  · rw [if_neg (mt hmem.1 ha), if_neg ha]
    simp [toList]

theorem Coherent.idxOf_eq (h : s.Coherent) {a : String} {i : Nat} (hi : s.index[a]? = some i) :
    s.toList.idxOf a = i := by
  have ha : a ∈ s.toList := mem_toList_iff.2 ⟨i, (h a i).1 hi⟩
  have hfound : s.addrs[s.toList.idxOf a]? = some a := by
    rw [← Array.getElem?_toList]
    exact List.getElem?_idxOf ha
  exact Option.some.inj (((h a _).2 hfound).symm.trans hi)

theorem Coherent.toList_remove (h : s.Coherent) (a : String) :
    (s.remove a).toList = Roster.remove s.toList a := by
  cases hs : s.index[a]? with
  | none =>
    have ha : a ∉ s.toList := by
      intro ha
      obtain ⟨i, hi⟩ := mem_toList_iff.1 ha
      rw [(h a i).2 hi] at hs
      cases hs
    rw [remove_of_absent hs, Roster.remove_of_not_mem ha]
  | some i =>
    have hi := h.lt_size hs
    have ha : a ∈ s.toList := mem_toList_iff.2 ⟨i, (h a i).1 hs⟩
    obtain ⟨last, hlast⟩ : ∃ last, s.addrs[s.addrs.size - 1]? = some last :=
      ⟨_, Array.getElem?_eq_getElem (Nat.sub_one_lt_of_lt hi)⟩
    have hlist : s.toList.getLast? = some last := by
      rw [List.getLast?_eq_getElem?, toList, Array.length_toList, Array.getElem?_toList, hlast]
    rw [remove_of_slot hs, Roster.remove_of_mem ha hlist, h.idxOf_eq hs]
    exact toList_vacate hi hlast

theorem Coherent.toList_mutate (h : s.Coherent) (m : Mutation) :
    (s.mutate m).toList = Roster.mutate s.toList m := by
  cases hk : m.kind with
  | add => simpa only [AddressSet.mutate, Roster.mutate, hk] using h.toList_insert m.address
  | remove => simpa only [AddressSet.mutate, Roster.mutate, hk] using h.toList_remove m.address
  | unknown tag => simp only [AddressSet.mutate, Roster.mutate, hk]

theorem Coherent.toList_foldl_mutate (h : s.Coherent) (log : List Mutation) :
    (log.foldl AddressSet.mutate s).toList = log.foldl Roster.mutate s.toList := by
  induction log generalizing s with
  | nil => rfl
  | cons m log ih =>
    rw [List.foldl_cons, List.foldl_cons, ih (h.mutate m), h.toList_mutate]

theorem Coherent.toList_foldl_insert (h : s.Coherent) (addresses : List String) :
    (addresses.foldl AddressSet.insert s).toList = addresses.foldl Roster.insert s.toList := by
  induction addresses generalizing s with
  | nil => rfl
  | cons a addresses ih =>
    rw [List.foldl_cons, List.foldl_cons, ih (h.insert a), h.toList_insert]

theorem Coherent.toList_apply (h : s.Coherent) (b : DiffBatch) :
    (s.apply b).toList = Roster.apply s.toList b := by
  unfold AddressSet.apply Roster.apply
  cases b.snapshot with
  | none => exact h.toList_foldl_mutate b.log
  | some addresses =>
    have hlist : (ofList addresses).toList = addresses.foldl Roster.insert [] :=
      coherent_empty.toList_foldl_insert addresses
    simp only [← hlist]
    exact (coherent_ofList addresses).toList_foldl_mutate b.log

theorem Coherent.foldl_apply (h : s.Coherent) (batches : List DiffBatch) :
    (batches.foldl AddressSet.apply s).Coherent ∧
      (batches.foldl AddressSet.apply s).toList = batches.foldl Roster.apply s.toList := by
  induction batches generalizing s with
  | nil => exact ⟨h, rfl⟩
  | cons b batches ih =>
    obtain ⟨hcoherent, hlist⟩ := ih (h.apply b)
    exact ⟨hcoherent, by rw [List.foldl_cons, List.foldl_cons, hlist, h.toList_apply]⟩

theorem Coherent.size_index (h : s.Coherent) : s.index.size = s.size := by
  have hperm : s.index.keys.Perm s.toList := by
    rw [List.perm_ext_iff_of_nodup Std.HashMap.nodup_keys h.nodup]
    intro a
    rw [Std.HashMap.mem_keys, ← h.contains_iff_mem, contains, Std.HashMap.mem_iff_contains]
  rw [← Std.HashMap.length_keys, hperm.length_eq, toList, Array.length_toList, size]

end AddressSet

namespace Replica

def fed (model : ModelId) (batches : List DiffBatch) : Replica := batches.foldl apply (.new model)

theorem addresses_fed (model : ModelId) (batches : List DiffBatch) :
    (fed model batches).addresses = batches.foldl AddressSet.apply .empty := by
  have hfold (r : Replica) :
      (batches.foldl apply r).addresses = batches.foldl AddressSet.apply r.addresses := by
    induction batches generalizing r with
    | nil => rfl
    | cons b batches ih => exact ih (r.apply b)
  exact hfold (.new model)

theorem coherent_fed (model : ModelId) (batches : List DiffBatch) :
    (fed model batches).addresses.Coherent := by
  rw [addresses_fed]
  exact (AddressSet.coherent_empty.foldl_apply batches).1

structure Stores (r : Replica) (batches : List DiffBatch) : Prop where
  nodup : r.toList.Nodup
  keys : ∀ a, a ∈ r.addresses.index ↔ a ∈ r.toList
  slots : ∀ (a : String) (i : Nat), r.addresses.index[a]? = some i → r.addresses.addrs[i]? = some a
  size : r.addresses.index.size = r.size
  inRange : batches.foldlM AddressSet.checkedApply .empty = some r.addresses
  order : r.toList = batches.foldl Roster.apply []

theorem stores_fed (model : ModelId) (batches : List DiffBatch) :
    (fed model batches).Stores batches := by
  have hcoherent := coherent_fed model batches
  constructor
  · exact hcoherent.nodup
  · intro a
    rw [Std.HashMap.mem_iff_contains]
    exact hcoherent.contains_iff_mem
  · intro a i hi
    exact (hcoherent a i).1 hi
  · exact hcoherent.size_index
  · rw [addresses_fed]
    exact AddressSet.coherent_empty.foldlM_checkedApply batches
  · rw [toList, addresses_fed]
    exact (AddressSet.coherent_empty.foldl_apply batches).2

end Replica

end ModelRegistry
