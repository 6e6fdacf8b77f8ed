import Std.Data.ExtTreeMap

namespace ModelRegistry

structure ClusterId where
  text : String
  deriving DecidableEq, Repr, Inhabited

structure ModelId where
  text : String
  deriving DecidableEq, Repr, Inhabited

instance : ToString ClusterId := ⟨ClusterId.text⟩

instance : ToString ModelId := ⟨ModelId.text⟩

instance : Ord ClusterId := ⟨compareOn ClusterId.text⟩

instance : Ord ModelId := ⟨compareOn ModelId.text⟩

instance : Std.TransOrd ClusterId := inferInstanceAs (Std.TransCmp (compareOn ClusterId.text))

instance : Std.TransOrd ModelId := inferInstanceAs (Std.TransCmp (compareOn ModelId.text))

instance : Std.LawfulEqOrd ClusterId where
  eq_of_compare {a b} h := by
    cases a
    cases b
    exact congrArg ClusterId.mk (Std.LawfulEqOrd.eq_of_compare h)

instance : Std.LawfulEqOrd ModelId where
  eq_of_compare {a b} h := by
    cases a
    cases b
    exact congrArg ModelId.mk (Std.LawfulEqOrd.eq_of_compare h)

def ascending {α : Type} [Ord α] (ids : List α) : List α :=
  ids.mergeSort (fun a b => (compare a b).isLE)

def distinct {α : Type} [BEq α] (ids : List α) : List α := ids.eraseDups

end ModelRegistry
