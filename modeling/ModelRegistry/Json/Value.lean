import ModelRegistry.Text.Reader

namespace ModelRegistry.Json

inductive Value
  | null
  | boolean (b : Bool)
  | integer (i : Int)
  | real (spelling : String)
  | text (s : String)
  | brokenText
  | array (elements : List Value)
  | object (members : List (Option String × Value))

namespace Value

def record (members : List (String × Value)) : Value :=
  object (members.map (fun m => (some m.1, m.2)))

end Value

def hexDigit (n : Nat) : Char := if n < 10 then Char.ofNat (48 + n) else Char.ofNat (87 + n)

def escape (c : Char) : List Char :=
  if c = '"' then ['\\', '"']
  else if c = '\\' then ['\\', '\\']
  else if c = '\x08' then ['\\', 'b']
  else if c = '\t' then ['\\', 't']
  else if c = '\n' then ['\\', 'n']
  else if c = '\x0c' then ['\\', 'f']
  else if c = '\r' then ['\\', 'r']
  else if c.toNat < 32 then ['\\', 'u', '0', '0', hexDigit (c.toNat / 16), hexDigit (c.toNat % 16)]
  else [c]

def quote (s : String) : List Char := '"' :: s.toList.flatMap escape ++ ['"']

namespace Value

mutual

def chars : Value → List Char
  | null => "null".toList
  | boolean b => (if b then "true" else "false").toList
  | integer i => (toString i).toList
  | real spelling => spelling.toList
  | text s => quote s
  | brokenText => quote ""
  | array elements => '[' :: elementChars elements ++ [']']
  | object members => '\x7b' :: memberChars members ++ ['\x7d']

def elementChars : List Value → List Char
  | [] => []
  | [v] => v.chars
  | v :: rest => v.chars ++ ',' :: elementChars rest

def memberChars : List (Option String × Value) → List Char
  | [] => []
  | [(k, v)] => quote (k.getD "") ++ ':' :: v.chars
  | (k, v) :: rest => quote (k.getD "") ++ ':' :: (v.chars ++ ',' :: memberChars rest)

end

def compact (v : Value) : String := String.ofList v.chars

end Value

end ModelRegistry.Json
