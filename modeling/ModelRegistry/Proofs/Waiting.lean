import ModelRegistry.Simulation.Move

namespace ModelRegistry

def Reply.Fits : Reply → Query → Prop
  | resolved _, .resolve _ | dialed _, .dial _ | answered _, .request _ _ | changed _, .watch _ _ _
  | tried _, .trial _ _ => True
  | _, _ => False

namespace Simulation

namespace Wait

def Lasts (t : Nat) : Wait → Prop
  | nothing | close _ => False
  | reply _ limits => ∀ l ∈ limits, t ≤ l.2
  | clock due => t ≤ due
  | idle | ended => True

def Ends (now : Nat) : Wait → Heard → Prop
  | nothing, .proceed | close _, .proceed => True
  | reply q _, .reply r => r.Fits q
  | reply _ limits, .limit cause => ∃ due ≤ now, (cause, due) ∈ limits
  | clock due, .proceed => due ≤ now
  | _, _ => False

theorem le_of_lasts_deadline {outer : Option Nat} {t d : Nat} (h : ∀ l ∈ deadline outer, t ≤ l.2)
    (hd : outer = some d) : t ≤ d := by
  subst hd
  exact h _ (List.mem_singleton.2 rfl)

theorem eq_of_mem_deadline {outer : Option Nat} {cause : Cause} {due : Nat}
    (h : (cause, due) ∈ deadline outer) : cause = .deadline ∧ outer = some due := by
  cases outer with
  | none => cases h
  | some d =>
    obtain ⟨rfl, rfl⟩ := Prod.mk.inj (List.mem_singleton.1 h)
    exact ⟨rfl, rfl⟩

end Wait

end Simulation

end ModelRegistry
