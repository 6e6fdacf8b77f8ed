import Mathlib.Data.List.OfFn
import Mathlib.Logic.Function.Basic
import ModelRegistry.Proofs.Storage

namespace ModelRegistry

namespace AddressSet

variable {s : AddressSet} {want : Nat} {draw : Nat → Nat}

def checkedDraw (n d : Nat) : Option Nat := if n = 0 then none else some (d % n)

def checkedSample (s : AddressSet) (want : Nat) (draw : Nat → Nat) : Option (List String) :=
  if s.addrs.size = 0 then some []
  else if s.addrs.size ≤ want then some s.toList
  else (List.range want).mapM fun k => do s.addrs[← checkedDraw s.addrs.size (draw k)]?

theorem length_toList (s : AddressSet) : s.toList.length = s.size := Array.length_toList

def hit (s : AddressSet) (h : 0 < s.size) (d : Nat) : String :=
  s.toList.get ⟨d % s.size, s.length_toList.symm ▸ Nat.mod_lt d h⟩

theorem getElem?_hit (h : 0 < s.size) (d : Nat) : s.addrs[d % s.size]? = some (s.hit h d) := by
  rw [← Array.getElem?_toList]
  exact List.getElem?_eq_getElem _

theorem hit_mem (h : 0 < s.size) (d : Nat) : s.hit h d ∈ s.toList := List.get_mem _ _

theorem exists_hit_of_mem (h : 0 < s.size) {a : String} (ha : a ∈ s.toList) :
    ∃ slot : Fin s.size, s.hit h slot = a := by
  obtain ⟨i, rfl⟩ := List.get_of_mem ha
  have hi : i.val < s.size := s.length_toList ▸ i.isLt
  refine ⟨⟨i, hi⟩, ?_⟩
  simp only [hit, Nat.mod_eq_of_lt hi]

theorem Coherent.hit_inj (hs : s.Coherent) (h : 0 < s.size) {d e : Nat} :
    s.hit h d = s.hit h e ↔ d % s.size = e % s.size := by
  refine (List.Nodup.get_inj_iff hs.nodup).trans ?_
  simp

theorem sample_of_le (h : s.size ≤ want) : s.sample want draw = s.toList := if_pos h

theorem sample_of_lt (h : want < s.size) :
    s.sample want draw =
      (List.range want).map fun k => s.hit (Nat.zero_lt_of_lt h) (draw k) := by
  have hslot (k : Nat) :
      s.addrs[draw k % s.size]? = some (s.hit (Nat.zero_lt_of_lt h) (draw k)) :=
    getElem?_hit _ _
  rw [sample, if_neg (Nat.not_le.2 h), slots, List.filterMap_map]
  simp only [Function.comp_def, hslot, List.filterMap_eq_map']

theorem checkedSample_eq (s : AddressSet) (want : Nat) (draw : Nat → Nat) :
    s.checkedSample want draw = some (s.sample want draw) := by
  unfold checkedSample
  split
  next hempty =>
    have hnil : s.toList = [] := List.length_eq_zero_iff.1 (s.length_toList.trans hempty)
    rw [sample_of_le (by rw [size, hempty]; exact Nat.zero_le want), hnil]
  next hne =>
    split
    next hle => rw [sample_of_le hle]
    next hlt =>
      have h : want < s.size := Nat.not_le.1 hlt
      have hslot (k : Nat) : (checkedDraw s.addrs.size (draw k)).bind (s.addrs[·]?) =
          some (s.hit (Nat.zero_lt_of_lt h) (draw k)) := by
        rw [checkedDraw, if_neg hne]
        exact getElem?_hit _ _
      rw [sample_of_lt h]
      simp only [Option.bind_eq_bind, hslot]
      exact List.mapM_pure

theorem length_sample (s : AddressSet) (want : Nat) (draw : Nat → Nat) :
    (s.sample want draw).length = min want s.size := by
  obtain h | h := Nat.lt_or_ge want s.size
  · rw [sample_of_lt h, List.length_map, List.length_range, Nat.min_eq_left h.le]
  · rw [sample_of_le h, length_toList, Nat.min_eq_right h]

theorem mem_of_mem_sample {a : String} (ha : a ∈ s.sample want draw) : a ∈ s.toList := by
  obtain h | h := Nat.lt_or_ge want s.size
  · rw [sample_of_lt h] at ha
    obtain ⟨k, -, rfl⟩ := List.mem_map.1 ha
    exact hit_mem _ _
  · rwa [sample_of_le h] at ha

theorem sample_update (h : want < s.size) (draw : Nat → Nat) (k d : Nat) :
    s.sample want (Function.update draw k d) =
      (s.sample want draw).set k (s.hit (Nat.zero_lt_of_lt h) d) := by
  rw [sample_of_lt h, sample_of_lt h]
  apply List.ext_getElem
  · rw [List.length_set, List.length_map, List.length_map]
  · intro i _ _
    rw [List.getElem_set, List.getElem_map, List.getElem_map, List.getElem_range]
    by_cases hik : k = i
    · rw [if_pos hik, hik, Function.update_self]
    · rw [if_neg hik, Function.update_of_ne (Ne.symm hik)]

theorem Coherent.sample_eq_iff (hs : s.Coherent) (h : want < s.size) {l : List String}
    (hlength : l.length = want) (hl : ∀ a ∈ l, a ∈ s.toList) :
    ∃ slot : Fin want → Fin s.size,
      ∀ draw, s.sample want draw = l ↔ ∀ k : Fin want, draw k % s.size = slot k := by
  subst hlength
  have hpos : 0 < s.size := Nat.zero_lt_of_lt h
  choose slot hslot using fun k : Fin l.length => exists_hit_of_mem hpos (hl _ (l.get_mem k))
  refine ⟨slot, fun draw => ?_⟩
  have hplace (k : Fin l.length) :
      s.hit hpos (draw k) = l.get k ↔ draw k % s.size = slot k := by
    rw [← hslot k, hs.hit_inj, Nat.mod_eq_of_lt (slot k).isLt]
  have hlengths : ((List.range l.length).map fun k => s.hit hpos (draw k)).length = l.length := by
    rw [List.length_map, List.length_range]
  rw [sample_of_lt h, List.ext_getElem_iff]
  constructor
  · rintro ⟨-, hget⟩ k
    have hk := hget k (hlengths.symm ▸ k.isLt) k.isLt
    rw [List.getElem_map, List.getElem_range] at hk
    exact (hplace k).1 hk
  · intro hdraw
    refine ⟨hlengths, fun k _ hk => ?_⟩
    rw [List.getElem_map, List.getElem_range]
    exact (hplace ⟨k, hk⟩).2 (hdraw ⟨k, hk⟩)

end AddressSet

namespace Replica

structure Samples (r : Replica) : Prop where
  inRange : ∀ want draw, r.addresses.checkedSample want draw = some (r.sample want draw)
  length : ∀ want draw, (r.sample want draw).length = min want r.size
  contained : ∀ want draw, ∀ a ∈ r.sample want draw, r.contains a
  whole : ∀ want draw, r.size ≤ want → r.sample want draw = r.toList
  nodup : r.toList.Nodup
  covers : ∀ a, r.contains a ↔ a ∈ r.toList
  attains : ∀ want l, want < r.size →
    ((∃ draw, r.sample want draw = l) ↔ l.length = want ∧ ∀ a ∈ l, r.contains a)
  redraws : ∀ want draw k (slot : Fin r.toList.length), want < r.size →
    ∃ d, r.sample want (Function.update draw k d) =
      (r.sample want draw).set k (r.toList.get slot)
  chosen : ∀ want l, want < r.size → l.length = want → (∀ a ∈ l, r.contains a) →
    ∃ slot : Fin want → Fin r.size,
      ∀ draw, r.sample want draw = l ↔ ∀ k : Fin want, draw k % r.size = slot k

theorem samples_fed (model : ModelId) (batches : List DiffBatch) :
    (fed model batches).Samples := by
  have hcoherent := coherent_fed model batches
  have hcontains (a : String) : (fed model batches).contains a ↔ a ∈ (fed model batches).toList :=
    hcoherent.contains_iff_mem
  have hchosen {want : Nat} {l : List String} (h : want < (fed model batches).size)
      (hlength : l.length = want) (hl : ∀ a ∈ l, (fed model batches).contains a) :=
    hcoherent.sample_eq_iff h hlength fun a ha => (hcontains a).1 (hl a ha)
  constructor
  · exact AddressSet.checkedSample_eq _
  · exact AddressSet.length_sample _
  · intro want draw a ha
    exact (hcontains a).2 (AddressSet.mem_of_mem_sample ha)
  · intro want draw h
    exact AddressSet.sample_of_le h
  · exact hcoherent.nodup
  · exact hcontains
  · intro want l h
    constructor
    · rintro ⟨draw, rfl⟩
      refine ⟨?_, fun a ha => (hcontains a).2 (AddressSet.mem_of_mem_sample ha)⟩
      exact (AddressSet.length_sample _ want draw).trans (Nat.min_eq_left h.le)
    · rintro ⟨hlength, hl⟩
      obtain ⟨slot, hslot⟩ := hchosen h hlength hl
      refine ⟨fun k => if hk : k < want then slot ⟨k, hk⟩ else 0, (hslot _).2 fun k => ?_⟩
      rw [dif_pos k.isLt, Nat.mod_eq_of_lt (slot k).isLt]
  · intro want draw k slot h
    obtain ⟨d, hd⟩ := AddressSet.exists_hit_of_mem (Nat.zero_lt_of_lt h) (List.get_mem _ slot)
    exact ⟨d, hd ▸ AddressSet.sample_update h draw k d⟩
  · intro want l h
    exact hchosen h

end Replica

end ModelRegistry
