import ModelRegistry.Ident

namespace ModelRegistry

abbrev Draws := Nat → Nat

namespace Draws

def mix (x : UInt64) : UInt64 :=
  let x := (x ^^^ (x >>> 30)) * 0xbf58476d1ce4e5b9
  let x := (x ^^^ (x >>> 27)) * 0x94d049bb133111eb
  x ^^^ (x >>> 31)

def seeded (seed : Nat) : Draws := fun k =>
  (mix (seed.toUInt64 * 0x9e3779b97f4a7c15 + mix (k.toUInt64 + 0x632be59bd9b4e019))).toNat

end Draws

structure Survey where
  count : Nat
  sameCount : Bool
  seen : List String
  repeats : Bool
  deriving DecidableEq, Repr

namespace Survey

def ofSamples (samples : List (List String)) : Survey :=
  let count := (samples.head?.map List.length).getD 0
  { count
    sameCount := samples.all (·.length == count)
    seen := ascending (distinct samples.flatten)
    repeats := samples.any (fun s => (distinct s).length != s.length) }

end Survey

end ModelRegistry
