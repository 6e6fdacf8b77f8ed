import ModelRegistry.Settings

namespace ModelRegistry

structure Backoff where
  current : Nat
  max : Nat
  multiplier : Binary64
  deriving DecidableEq, Repr

namespace Backoff

def start (r : RetrySettings) : Backoff := ⟨r.initialDelay, r.maxDelay, r.multiplier⟩

def jitterRange (delay : Nat) : Nat := delay / 5

def bounds (b : Backoff) : Nat × Nat := (b.current, b.current + jitterRange b.current)

def pause (b : Backoff) (draw : Nat) : Nat := b.current + draw % (jitterRange b.current + 1)

def grown (b : Backoff) : Nat :=
  min (((Binary64.ofNat b.current).mul b.multiplier).toWord) b.max

def advance (b : Backoff) : Backoff := { b with current := b.grown }

def delays (b : Backoff) : Nat → List Nat × Backoff
  | 0 => ([], b)
  | n + 1 =>
    let (rest, last) := b.advance.delays n
    (b.current :: rest, last)

theorem pause_mem_bounds (b : Backoff) (draw : Nat) :
    b.bounds.1 ≤ b.pause draw ∧ b.pause draw ≤ b.bounds.2 := by
  have h := Nat.mod_lt draw (show 0 < jitterRange b.current + 1 by omega)
  simp only [bounds, pause]
  omega

theorem advance_current_le (b : Backoff) : b.advance.current ≤ b.max :=
  Nat.min_le_right _ _

end Backoff

end ModelRegistry
