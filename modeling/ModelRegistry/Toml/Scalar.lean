import ModelRegistry.Text.Reader
import ModelRegistry.Toml.Moment
import ModelRegistry.Toml.Value

namespace ModelRegistry.Toml

open Text Reader

def isBlank (c : Char) : Bool := c == ' ' || c == '\t'

def isPlain (c : Char) : Bool := c == '\t' || (' ' ≤ c && c != '\x7f')

def newline : Reader Unit := text "\n" <|> text "\r\n"

def blanks : Reader Unit := do
  let _ ← run isBlank

namespace Scalar

def codePoint (digits : Nat) : Reader Char := do
  match scalar? (hexadecimal (← exactRun isHexDigit digits)) with
  | some c => return c
  | none => failure

def escape : Reader Char := do
  match ← next with
  | 'b' => return '\x08'
  | 't' => return '\t'
  | 'n' => return '\n'
  | 'f' => return '\x0c'
  | 'r' => return '\r'
  | '"' => return '"'
  | '\\' => return '\\'
  | 'u' => codePoint 4
  | 'U' => codePoint 8
  | _ => failure

def basicChar : Reader Char := do
  let c ← oneOf (fun c => isPlain c && c != '"')
  if c = '\\' then escape else return c

def basic : Reader String := do
  char '"'
  let cs ← many basicChar
  char '"'
  return String.ofList cs

def literal : Reader String := do
  char '\''
  let cs ← run (fun c => isPlain c && c != '\'')
  char '\''
  return String.ofList cs

def lineJoin : Reader (List Char) := do
  char '\\'
  blanks
  newline
  let _ ← many ((do
    let _ ← run1 isBlank) <|> newline)
  return []

def innerQuotes (quote : Char) : Reader (List Char) := do
  let quotes ← run1 (· == quote)
  if quotes.length < 3 then return quotes else failure

def lineEnd : Reader (List Char) := do
  newline
  return ['\n']

def longBasicPart : Reader (List Char) :=
  lineEnd <|> lineJoin <|> (return [← basicChar]) <|> innerQuotes '"'

def longLiteralPart : Reader (List Char) :=
  lineEnd <|> run1 (fun c => isPlain c && c != '\'') <|> innerQuotes '\''

def closing (quote : Char) : Reader (List Char) := do
  let quotes ← run1 (· == quote)
  if 3 ≤ quotes.length ∧ quotes.length ≤ 5 then return quotes.drop 3 else failure

def long (quote : Char) (part : Reader (List Char)) : Reader String := do
  exactly [quote, quote, quote]
  let _ ← option newline
  let parts ← many part
  let last ← closing quote
  return String.ofList (parts.flatten ++ last)

def string : Reader String :=
  long '"' longBasicPart <|> basic <|> long '\'' longLiteralPart <|> literal

def digits (isDigit : Char → Bool) : Reader (List Char) := do
  let first ← oneOf isDigit
  let rest ← many (do
    let _ ← option (char '_')
    oneOf isDigit)
  return first :: rest

def sign : Reader Bool := do
  return (← option (oneOf (fun c => c == '+' || c == '-'))) == some '-'

def unsigned : Reader (List Char) := do
  match ← peek with
  | some '0' =>
    char '0'
    return ['0']
  | _ => digits Char.isDigit

def fraction : Reader (List Char) := do
  char '.'
  digits Char.isDigit

def exponent : Reader Int := do
  let _ ← oneOf (fun c => c == 'e' || c == 'E')
  let negative ← sign
  let n := decimal (← digits Char.isDigit)
  return if negative then -n else n

def decimalFloat : Reader Value := do
  let negative ← sign
  let whole ← unsigned
  let (fraction, exponent) ← (do
    return ([], ← exponent)) <|> (do
    let fraction ← fraction
    return (fraction, (← option exponent).getD 0))
  let x := Binary64.ofDecimal negative (decimal (whole ++ fraction)) (exponent - fraction.length)
  if x = .infinite false then failure
  return .float x

def specialFloat : Reader Value := do
  let negative ← sign
  (do
    text "inf"
    return .float (.infinite negative)) <|> (do
    text "nan"
    return .float .nan)

def inRange (i : Int) : Reader Value :=
  if -0x8000000000000000 ≤ i ∧ i ≤ 0x7fffffffffffffff then return .integer i else failure

def radix (mark : String) (base : Nat) (isDigit : Char → Bool) : Reader Value := do
  text mark
  inRange (ofDigits base hexValue (← digits isDigit))

def decimalInteger : Reader Value := do
  let negative ← sign
  let n := decimal (← unsigned)
  inRange (if negative then -n else n)

def integer : Reader Value :=
  radix "0x" 16 isHexDigit <|> radix "0o" 8 (fun c => '0' ≤ c && c ≤ '7') <|>
    radix "0b" 2 (fun c => c == '0' || c == '1') <|> decimalInteger

def boolean : Reader Value :=
  (do
    text "true"
    return .boolean true) <|> (do
    text "false"
    return .boolean false)

def read : Reader Value :=
  (Value.text <$> string) <|> boolean <|> (Value.moment <$> Moment.read) <|> decimalFloat <|>
    specialFloat <|> integer

end Scalar

end ModelRegistry.Toml
