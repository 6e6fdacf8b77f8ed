import Std.Data.ExtTreeMap
import ModelRegistry.Ident
import ModelRegistry.Settings

namespace ModelRegistry

structure AddressTable where
  addresses : Std.ExtTreeMap ClusterId String

namespace AddressTable

def empty : AddressTable := ⟨∅⟩

def set (t : AddressTable) (cluster : ClusterId) (address : String) : AddressTable :=
  ⟨t.addresses.insert cluster address⟩

def ofList (entries : List (ClusterId × String)) : AddressTable :=
  entries.foldl (fun t e => t.set e.1 e.2) empty

def ofSettings (s : Settings) : AddressTable :=
  ofList (s.clusters.toList.map (fun e => (⟨e.1⟩, e.2)))

def resolve (t : AddressTable) (cluster : ClusterId) : Except Error String :=
  match t.addresses[cluster]? with
  | some address => .ok address
  | none => .error (.notFound s!"no registry address for cluster {cluster}")

theorem resolve_set_self (t : AddressTable) (cluster : ClusterId) (address : String) :
    (t.set cluster address).resolve cluster = .ok address := by
  simp [resolve, set]

theorem resolve_set_of_ne {t : AddressTable} {cluster other : ClusterId} {address : String}
    (h : other ≠ cluster) : (t.set cluster address).resolve other = t.resolve other := by
  have hc : ¬ compare cluster other = .eq := fun e => h (Std.LawfulEqOrd.eq_of_compare e).symm
  simp [resolve, set, Std.ExtTreeMap.getElem?_insert, hc]

end AddressTable

end ModelRegistry
