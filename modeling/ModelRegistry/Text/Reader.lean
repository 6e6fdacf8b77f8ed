namespace ModelRegistry.Text

abbrev Reader (α : Type) := StateT (List Char) Option α

namespace Reader

variable {α : Type}

def next : Reader Char
  | [] => none
  | c :: cs => some (c, cs)

def peek : Reader (Option Char) := fun cs => some (cs.head?, cs)

def oneOf (p : Char → Bool) : Reader Char
  | [] => none
  | c :: cs => if p c then some (c, cs) else none

def char (c : Char) : Reader Unit := do
  let _ ← oneOf (· == c)

def exactly : List Char → Reader Unit
  | [] => pure ()
  | c :: cs => do
    char c
    exactly cs

def text (s : String) : Reader Unit := exactly s.toList

def run (p : Char → Bool) : Reader (List Char) := fun cs => some (cs.takeWhile p, cs.dropWhile p)

def run1 (p : Char → Bool) : Reader (List Char) := do
  let c ← oneOf p
  return c :: (← run p)

def exactRun (p : Char → Bool) : Nat → Reader (List Char)
  | 0 => pure []
  | n + 1 => do
    let c ← oneOf p
    return c :: (← exactRun p n)

def finish : Reader Unit
  | [] => some ((), [])
  | _ :: _ => none

def option (r : Reader α) : Reader (Option α) := fun cs =>
  match r cs with
  | some (a, cs) => some (some a, cs)
  | none => some (none, cs)

def upTo (r : Reader α) : Nat → List α → Reader (List α)
  | 0, before => pure before.reverse
  | n + 1, before => fun cs =>
    match r cs with
    | some (a, cs) => upTo r n (a :: before) cs
    | none => some (before.reverse, cs)

def many (r : Reader α) : Reader (List α) := fun cs => upTo r cs.length [] cs

def separated (r : Reader α) (separator : Reader Unit) : Reader (List α) := do
  let first ← r
  let rest ← many (do
    separator
    r)
  return first :: rest

def whole (r : Reader α) (s : String) : Option α := do
  let (a, rest) ← r s.toList
  if rest.isEmpty then some a else none

end Reader

def ofDigits (base : Nat) (digit : Char → Nat) (cs : List Char) : Nat :=
  cs.foldl (fun n c => base * n + digit c) 0

def isHexDigit (c : Char) : Bool :=
  c.isDigit || ('a' ≤ c && c ≤ 'f') || ('A' ≤ c && c ≤ 'F')

def hexValue (c : Char) : Nat :=
  if c.isDigit then c.toNat - 48
  else if 'a' ≤ c then c.toNat - 87
  else c.toNat - 55

def decimal (cs : List Char) : Nat := ofDigits 10 hexValue cs

def hexadecimal (cs : List Char) : Nat := ofDigits 16 hexValue cs

def scalar? (n : Nat) : Option Char := if n.isValidChar then some (Char.ofNat n) else none

end ModelRegistry.Text
