namespace ModelRegistry

inductive Binary64
  | nan
  | infinite (negative : Bool)
  | finite (negative : Bool) (significand : Nat) (exponent : Int)
  deriving DecidableEq, Repr

namespace Binary64

def minExponent : Int := -1074

def maxExponent : Int := 971

def ofBits (bits : Nat) : Binary64 :=
  let negative := bits / Nat.pow 2 63 % 2 == 1
  let fraction := bits % Nat.pow 2 52
  match bits / Nat.pow 2 52 % Nat.pow 2 11 with
  | 0 => finite negative fraction minExponent
  | 2047 => if fraction = 0 then infinite negative else nan
  | biased => finite negative (Nat.pow 2 52 + fraction) (biased - 1075)

def signBit (negative : Bool) : Nat := if negative then Nat.pow 2 63 else 0

def bits? : Binary64 → Option Nat
  | nan => none
  | infinite negative => some (signBit negative + 2047 * Nat.pow 2 52)
  | finite negative significand exponent =>
    some (signBit negative +
      if significand < Nat.pow 2 52 then significand
      else (exponent + 1075).toNat * Nat.pow 2 52 + (significand - Nat.pow 2 52))

def nearest (num den : Nat) : Nat :=
  let q := num / den
  let r := num % den
  if den < 2 * r ∨ (2 * r = den ∧ q % 2 = 1) then q + 1 else q

def scaled (num den : Nat) (exponent : Int) : Nat × Nat :=
  (num * Nat.pow 2 (-exponent).toNat, den * Nat.pow 2 exponent.toNat)

def exponentFor (num den : Nat) : Int :=
  let guess : Int := (num.log2 : Int) - (den.log2 : Int) - 52
  let (n, d) := scaled num den guess
  max (if n / d < Nat.pow 2 52 then guess - 1 else guess) minExponent

def round (negative : Bool) (num den : Nat) : Binary64 :=
  if num = 0 then finite negative 0 minExponent
  else
    let exponent := exponentFor num den
    let (n, d) := scaled num den exponent
    let significand := nearest n d
    let (significand, exponent) :=
      if significand = Nat.pow 2 53 then (Nat.pow 2 52, exponent + 1) else (significand, exponent)
    if maxExponent < exponent then infinite negative else finite negative significand exponent

def ofNat (n : Nat) : Binary64 := round false n 1

def ofInt (i : Int) : Binary64 := round (decide (i < 0)) i.natAbs 1

def decimalReach : Int := 400

def ofDecimal (negative : Bool) (digits : Nat) (exponent : Int) : Binary64 :=
  let magnitude := (toString digits).length + exponent
  if digits = 0 ∨ magnitude < -decimalReach then finite negative 0 minExponent
  else if decimalReach < magnitude then infinite negative
  else round negative (digits * Nat.pow 10 exponent.toNat) (Nat.pow 10 (-exponent).toNat)

def one : Binary64 := ofNat 1

def two : Binary64 := ofNat 2

def mul : Binary64 → Binary64 → Binary64
  | nan, _ | _, nan => nan
  | infinite s, infinite t => infinite (s != t)
  | infinite s, finite t m _ | finite t m _, infinite s => if m = 0 then nan else infinite (s != t)
  | finite s m e, finite t n f =>
    let (num, den) := scaled (m * n) 1 (-(e + f))
    round (s != t) num den

def wordMax : Nat := Nat.pow 2 64 - 1

/-- The integer part as a 64-bit word: what is no number or negative gives 0, and too large a number
the largest word. -/
def toWord : Binary64 → Nat
  | nan | infinite true | finite true _ _ => 0
  | infinite false => wordMax
  | finite false m e =>
    let (num, den) := scaled m 1 (-e)
    min (num / den) wordMax

def isBelowOne : Binary64 → Bool
  | nan | infinite false => false
  | infinite true | finite true _ _ => true
  | finite false m e =>
    let (num, den) := scaled m 1 (-e)
    decide (num < den)

end Binary64

end ModelRegistry
