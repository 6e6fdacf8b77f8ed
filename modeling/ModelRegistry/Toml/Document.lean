import ModelRegistry.Toml.Scalar

namespace ModelRegistry.Toml

open Text Reader

inductive Statement
  | table (path : List String) (key : String)
  | element (path : List String) (key : String)
  | assign (path : List String) (key : String) (v : Value)

def depthLimit : Nat := 80

def isBareKeyChar (c : Char) : Bool := c.isAlphanum || c == '-' || c == '_'

def comment : Reader Unit := do
  char '#'
  let _ ← run isPlain

def keyPart : Reader String := do
  blanks
  let part ← Scalar.basic <|> Scalar.literal <|> (String.ofList <$> run1 isBareKeyChar)
  blanks
  return part

def key : Reader (List String × String) := do
  let parts ← separated keyPart (char '.')
  match parts.getLast? with
  | some last => if parts.length < depthLimit then return (parts.dropLast, last) else failure
  | none => failure

def gaps : Reader Unit := do
  let _ ← many ((do
    let _ ← run1 isBlank) <|> newline <|> (do
    comment
    newline))

def array (value : Reader Value) : Reader Value := do
  char '['
  let elements ← option (separated (do
    gaps
    let v ← value
    gaps
    return v) (char ','))
  if elements.isSome then
    let _ ← option (char ',')
  gaps
  char ']'
  return .array (elements.getD [])

def keyValue (value : Reader Value) : Reader (List String × String × Value) := do
  let (path, key) ← key
  char '='
  blanks
  let v ← value
  blanks
  return (path, key, v)

def inlineTable (value : Reader Value) : Reader Value := do
  char '\x7b'
  let pairs ← option (separated (keyValue value) (char ','))
  blanks
  char '\x7d'
  match (pairs.getD []).foldlM (fun m (path, key, v) => Members.assign path key v m) [] with
  | some members => return .table (Node.valuesOf members)
  | none => failure

def valueWithin : Nat → Reader Value
  | 0 => Scalar.read
  | depth + 1 => do
    match ← peek with
    | some '[' => array (valueWithin depth)
    | some '\x7b' => inlineTable (valueWithin depth)
    | _ => Scalar.read

def value : Reader Value := valueWithin (depthLimit - 1)

def lineRest : Reader Unit := do
  blanks
  let _ ← option comment
  newline <|> finish

def elementHeader : Reader Statement := do
  text "[["
  let (path, key) ← key
  text "]]"
  return .element path key

def tableHeader : Reader Statement := do
  char '['
  let (path, key) ← key
  char ']'
  return .table path key

def assignment : Reader Statement := do
  let (path, key, v) ← keyValue value
  return .assign path key v

def statement : Reader Statement := do
  let s ← elementHeader <|> tableHeader <|> assignment
  lineRest
  return s

def emptyLine : Reader Unit := newline <|> (do
  comment
  newline <|> finish)

def line : Reader (Option Statement) := do
  let s ← (some <$> statement) <|> (do
    emptyLine
    return none)
  blanks
  return s

def statements : Reader (List Statement) := do
  let _ ← option (char '\ufeff')
  blanks
  let lines ← many line
  finish
  return lines.filterMap id

structure Draft where
  root : Members
  current : List String

def Draft.add (d : Draft) : Statement → Option Draft
  | .table path key => do return ⟨← d.root.openTable path key, path ++ [key]⟩
  | .element path key => do return ⟨← d.root.openElement path key, path ++ [key]⟩
  | .assign path key v => do return { d with root := ← d.root.assignIn d.current path key v }

def document (s : String) : Option (List (String × Value)) := do
  let statements ← statements.whole s
  let draft ← statements.foldlM Draft.add ⟨[], []⟩
  return Node.valuesOf draft.root

end ModelRegistry.Toml
