import ModelRegistry.Json.Value

namespace ModelRegistry.Json

open Text Reader

def isSpace (c : Char) : Bool := c == ' ' || c == '\t' || c == '\n' || c == '\r'

def spaces : Reader Unit := do
  let _ ← run isSpace

inductive Unit16
  | char (c : Char)
  | unit (n : Nat)

def escaped : Reader Unit16 := do
  match ← next with
  | '"' => return .char '"'
  | '\\' => return .char '\\'
  | '/' => return .char '/'
  | 'b' => return .char '\x08'
  | 'f' => return .char '\x0c'
  | 'n' => return .char '\n'
  | 'r' => return .char '\r'
  | 't' => return .char '\t'
  | 'u' => return .unit (hexadecimal (← exactRun isHexDigit 4))
  | _ => failure

def stringElement : Reader Unit16 := do
  let c ← oneOf (fun c => ' ' ≤ c && c != '"')
  if c = '\\' then escaped else return .char c

def isHigh (n : Nat) : Bool := 0xd800 ≤ n && n < 0xdc00

def isLow (n : Nat) : Bool := 0xdc00 ≤ n && n < 0xe000

def assemble : List Unit16 → Option (List Char)
  | [] => some []
  | .char c :: rest => do return c :: (← assemble rest)
  | .unit n :: .unit m :: rest =>
    if isHigh n then
      if isLow m then do
        return Char.ofNat (0x10000 + (n - 0xd800) * 0x400 + (m - 0xdc00)) :: (← assemble rest)
      else none
    else do return (← scalar? n) :: (← assemble (.unit m :: rest))
  | .unit n :: rest => do return (← scalar? n) :: (← assemble rest)

def string : Reader (Option String) := do
  char '"'
  let elements ← many stringElement
  char '"'
  return (assemble elements).map String.ofList

def wholePart : Reader (List Char) := do
  match ← peek with
  | some '0' =>
    char '0'
    return ['0']
  | _ => run1 Char.isDigit

def fraction : Reader (List Char) := do
  char '.'
  return '.' :: (← run1 Char.isDigit)

def exponent : Reader (List Char) := do
  let e ← oneOf (fun c => c == 'e' || c == 'E')
  let sign ← option (oneOf (fun c => c == '+' || c == '-'))
  return e :: (sign.toList ++ (← run1 Char.isDigit))

def number : Reader Value := do
  let minus ← option (char '-')
  let whole ← wholePart
  let fraction ← option fraction
  let exponent ← option exponent
  let sign := if minus.isSome then ['-'] else []
  if fraction.isNone && exponent.isNone && !(minus.isSome && whole == ['0']) then
    let n : Int := decimal whole
    return .integer (if minus.isSome then -n else n)
  else
    return .real (String.ofList (sign ++ whole ++ fraction.getD [] ++ exponent.getD []))

def bracketed {α : Type} (opening closing : Char) (item : Reader α) : Reader (List α) := do
  char opening
  let items ← option (separated (do
    spaces
    let a ← item
    spaces
    return a) (char ','))
  if items.isNone then spaces
  char closing
  return items.getD []

def member (value : Reader Value) : Reader (Option String × Value) := do
  let key ← string
  spaces
  char ':'
  spaces
  return (key, ← value)

def word (s : String) (v : Value) : Reader Value := do
  text s
  return v

def valueWithin : Nat → Reader Value
  | 0 => failure
  | depth + 1 => do
    match ← peek with
    | some '"' => return (← string).elim .brokenText .text
    | some '[' => return .array (← bracketed '[' ']' (valueWithin depth))
    | some '\x7b' => return .object (← bracketed '\x7b' '\x7d' (member (valueWithin depth)))
    | some 'n' => word "null" .null
    | some 't' => word "true" (.boolean true)
    | some 'f' => word "false" (.boolean false)
    | _ => number

def value : Reader Value := fun cs => valueWithin (cs.length + 1) cs

def read (s : String) : Option Value :=
  whole (do
    spaces
    let v ← value
    spaces
    return v) s

end ModelRegistry.Json
