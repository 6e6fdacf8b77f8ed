import ModelRegistry.Text.Reader

namespace ModelRegistry.Toml.Moment

open Text Reader

def padded (width n : Nat) : String :=
  let digits := toString n
  String.ofList (List.replicate (width - digits.length) '0') ++ digits

def number (digits low high : Nat) : Reader Nat := do
  let n := decimal (← exactRun Char.isDigit digits)
  if low ≤ n ∧ n ≤ high then return n else failure

def daysIn (year month : Nat) : Nat :=
  if month = 2 then
    if year % 4 = 0 ∧ (year % 100 ≠ 0 ∨ year % 400 = 0) then 29 else 28
  else if month = 4 ∨ month = 6 ∨ month = 9 ∨ month = 11 then 30
  else 31

def date : Reader String := do
  let year ← number 4 0 9999
  char '-'
  let month ← number 2 1 12
  char '-'
  let day ← number 2 1 31
  if daysIn year month < day then failure
  return s!"{padded 4 year}-{padded 2 month}-{padded 2 day}"

def fraction : Reader String := do
  char '.'
  let digits := (← run1 Char.isDigit).take 9
  let kept := (digits.reverse.dropWhile (· == '0')).reverse
  return if kept.isEmpty then "" else String.ofList ('.' :: kept)

def time : Reader String := do
  let hour ← number 2 0 23
  char ':'
  let minute ← number 2 0 59
  char ':'
  let second ← number 2 0 60
  let fraction := (← option fraction).getD ""
  return s!"{padded 2 hour}:{padded 2 minute}:{padded 2 second}{fraction}"

def zulu : Reader String := do
  let _ ← oneOf (fun c => c == 'Z' || c == 'z')
  return "Z"

def shifted : Reader String := do
  let sign ← oneOf (fun c => c == '+' || c == '-')
  let hour ← number 2 0 23
  char ':'
  let minute ← number 2 0 59
  let sign := if hour = 0 ∧ minute = 0 then '+' else sign
  return s!"{sign}{padded 2 hour}:{padded 2 minute}"

def offset : Reader String := zulu <|> shifted

def afterDate : Reader String := do
  let _ ← oneOf (fun c => c == 'T' || c == 't' || c == ' ')
  let time ← time
  let offset := (← option offset).getD ""
  return s!"T{time}{offset}"

def dated : Reader String := do
  let date ← date
  let rest := (← option afterDate).getD ""
  return s!"{date}{rest}"

def read : Reader String := dated <|> time

end ModelRegistry.Toml.Moment
