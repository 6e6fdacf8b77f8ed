import ModelRegistry.Proofs.Storage

namespace ModelRegistry

inductive Edit
  | replace (addresses : List String)
  | mutate (m : Mutation)
  deriving DecidableEq, Repr

def Edit.isReplace : Edit → Bool
  | replace _ => true
  | mutate _ => false

def DiffBatch.edits (b : DiffBatch) : List Edit :=
  b.snapshot.toList.map .replace ++ b.log.map .mutate

def edits (batches : List DiffBatch) : List Edit := batches.flatMap DiffBatch.edits

def sinceSnapshot : List Edit → List Edit
  | [] => []
  | e :: rest => if rest.any Edit.isReplace then sinceSnapshot rest else e :: rest

theorem any_sinceSnapshot (es : List Edit) :
    (sinceSnapshot es).any Edit.isReplace = es.any Edit.isReplace := by
  induction es with
  | nil => rfl
  | cons e rest ih =>
    by_cases h : rest.any Edit.isReplace <;> simp [sinceSnapshot, h, ih]

example : sinceSnapshot (edits [.incremental [.add "a"] 1, ⟨some ["b"], [.remove "b"], 2⟩]) =
    [.replace ["b"], .mutate (.remove "b")] := by decide

namespace Roster

variable {es es' : List Edit} {l l' : Roster}

def edit (l : Roster) : Edit → Roster
  | .replace addresses => addresses.foldl insert []
  | .mutate m => mutate l m

theorem apply_eq_foldl_edit (l : Roster) (b : DiffBatch) : apply l b = b.edits.foldl edit l := by
  obtain ⟨snapshot, log, next⟩ := b
  rw [DiffBatch.edits, List.foldl_append, List.foldl_map]
  cases snapshot <;> rfl

theorem foldl_apply_eq_foldl_edit (l : Roster) (batches : List DiffBatch) :
    batches.foldl apply l = (edits batches).foldl edit l := by
  induction batches generalizing l with
  | nil => rfl
  | cons b batches ih =>
    rw [edits, List.flatMap_cons, List.foldl_append, ← apply_eq_foldl_edit]
    exact ih (apply l b)

theorem foldl_edit_of_any (h : es.any Edit.isReplace) (l l' : Roster) :
    es.foldl edit l = es.foldl edit l' := by
  induction es generalizing l l' with
  | nil => cases h
  | cons e rest ih =>
    cases e with
    | replace addresses => rfl
    | mutate m => exact ih h _ _

theorem foldl_edit_sinceSnapshot (es : List Edit) (l : Roster) :
    (sinceSnapshot es).foldl edit l = es.foldl edit l := by
  induction es generalizing l with
  | nil => rfl
  | cons e rest ih =>
    unfold sinceSnapshot
    split
    next h => rw [ih, List.foldl_cons, foldl_edit_of_any h]
    next => rfl

theorem foldl_edit_eq (hsame : sinceSnapshot es = sinceSnapshot es')
    (hl : es.any Edit.isReplace = false → l = l') : es.foldl edit l = es'.foldl edit l' := by
  rw [← foldl_edit_sinceSnapshot es, ← foldl_edit_sinceSnapshot es', ← hsame]
  cases h : es.any Edit.isReplace with
  | true => exact foldl_edit_of_any (by rw [any_sinceSnapshot, h]) l l'
  | false => rw [hl h]

end Roster

namespace Replica

variable {r r' : Replica}

def applyAll (r : Replica) (batches : List DiffBatch) : Replica := batches.foldl apply r

theorem applyAll_fed (model : ModelId) (before batches : List DiffBatch) :
    (fed model before).applyAll batches = fed model (before ++ batches) :=
  (List.foldl_append ..).symm

structure Alike (r r' : Replica) : Prop where
  order : r.toList = r'.toList
  size : r.size = r'.size
  contains : ∀ a, r.contains a = r'.contains a
  slots : ∀ a : String, r.addresses.index[a]? = r'.addresses.index[a]?

theorem alike_of_toList (h : r.addresses.Coherent) (h' : r'.addresses.Coherent)
    (horder : r.toList = r'.toList) : r.Alike r' := by
  have haddrs : r.addresses.addrs = r'.addresses.addrs := Array.toList_inj.1 horder
  have hslots (a : String) : r.addresses.index[a]? = r'.addresses.index[a]? := by
    apply Option.ext
    intro i
    rw [h a i, h' a i, haddrs]
  refine ⟨horder, congrArg Array.size haddrs, fun a => ?_, hslots⟩
  simp only [contains, AddressSet.contains, Std.HashMap.contains_eq_isSome_getElem?, hslots]

theorem toList_applyAll_fed (model : ModelId) (before batches : List DiffBatch) :
    ((fed model before).applyAll batches).toList =
      (edits batches).foldl Roster.edit (fed model before).toList := by
  have hlist (batches : List DiffBatch) :
      (fed model batches).toList = batches.foldl Roster.apply [] := by
    rw [toList, addresses_fed]
    exact (AddressSet.coherent_empty.foldl_apply batches).2
  rw [applyAll_fed, hlist, hlist, List.foldl_append, Roster.foldl_apply_eq_foldl_edit]

theorem alike_applyAll (model model' : ModelId) {before before' batches batches' : List DiffBatch}
    (hsame : sinceSnapshot (edits batches) = sinceSnapshot (edits batches'))
    (hbefore : (edits batches).any Edit.isReplace = false →
      (fed model before).toList = (fed model' before').toList) :
    ((fed model before).applyAll batches).Alike ((fed model' before').applyAll batches') := by
  apply alike_of_toList
  · rw [applyAll_fed]
    exact coherent_fed model _
  · rw [applyAll_fed]
    exact coherent_fed model' _
  · rw [toList_applyAll_fed, toList_applyAll_fed]
    exact Roster.foldl_edit_eq hsame hbefore

/-- What a reachable replica makes of further batches depends on the edits since the last snapshot
alone. -/
structure Recuts (r : Replica) : Prop where
  same : ∀ (model : ModelId) (before batches batches' : List DiffBatch),
    sinceSnapshot (edits batches) = sinceSnapshot (edits batches') →
    ((edits batches).any Edit.isReplace = false → r.toList = (fed model before).toList) →
    (r.applyAll batches).Alike ((fed model before).applyAll batches')
  full : ∀ addresses log n n' n'' after,
    (r.applyAll (⟨some addresses, log, n⟩ :: after)).Alike
      (r.applyAll (.full addresses n' :: .incremental log n'' :: after))
  split : ∀ snapshot log more n n' n'' after,
    (r.applyAll (⟨snapshot, log ++ more, n⟩ :: after)).Alike
      (r.applyAll (⟨snapshot, log, n'⟩ :: .incremental more n'' :: after))
  forgets : ∀ (model : ModelId) (before earlier earlier' : List DiffBatch) (b : DiffBatch) after,
    b.isFull → (r.applyAll (earlier ++ b :: after)).Alike
      ((fed model before).applyAll (earlier' ++ b :: after))

theorem sinceSnapshot_append (es : List Edit) {rest : List Edit} (h : rest.any Edit.isReplace) :
    sinceSnapshot (es ++ rest) = sinceSnapshot rest := by
  induction es with
  | nil => rfl
  | cons e es ih =>
    have hany : (es ++ rest).any Edit.isReplace := by simp [h]
    rw [List.cons_append, sinceSnapshot, if_pos hany, ih]

theorem any_edits_cons {b : DiffBatch} (h : b.isFull) (after : List DiffBatch) :
    (edits (b :: after)).any Edit.isReplace := by
  obtain ⟨addresses, hsnapshot⟩ := Option.isSome_iff_exists.1 h
  simp [edits, DiffBatch.edits, hsnapshot, Edit.isReplace]

theorem fed_recuts (model : ModelId) (before : List DiffBatch) : (fed model before).Recuts := by
  constructor
  · intro model' before' batches batches' hsame hbefore
    exact alike_applyAll model model' hsame hbefore
  · intro addresses log n n' n'' after
    apply alike_applyAll model model _ fun _ => rfl
    simp [edits, DiffBatch.edits, DiffBatch.full, DiffBatch.incremental]
  · intro snapshot log more n n' n'' after
    apply alike_applyAll model model _ fun _ => rfl
    simp [edits, DiffBatch.edits, DiffBatch.incremental]
  · intro model' before' earlier earlier' b after hfull
    have hany := any_edits_cons hfull after
    have hsplit (earlier : List DiffBatch) :
        edits (earlier ++ b :: after) = edits earlier ++ edits (b :: after) := List.flatMap_append
    apply alike_applyAll model model'
    · rw [hsplit, hsplit, sinceSnapshot_append _ hany, sinceSnapshot_append _ hany]
    · intro hnone
      rw [hsplit, List.any_append, hany, Bool.or_true] at hnone
      cases hnone

end Replica

end ModelRegistry
