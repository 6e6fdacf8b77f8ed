import ModelRegistry.Settings
import ModelRegistry.Toml.Document

namespace ModelRegistry.Settings

open Toml (Value)

/-- A date where a table is expected counts as a table with this one member. -/
def momentKey : String := "$__toml_private_datetime"

def members? : Value → Option (List (String × Value))
  | .table members => some members
  | .moment s => some [(momentKey, .text s)]
  | _ => none

def fields (names : List String) : Value → Option (List (Option Value))
  | .array elements => some ((List.range names.length).map (elements[·]?))
  | v => (members? v).map (fun members => names.map (fun n => members.lookup n))

def word? : Value → Option Nat
  | .integer i => if 0 ≤ i then some i.toNat else none
  | _ => none

def number? : Value → Option Binary64
  | .float x => some x
  | .integer i => some (.ofInt i)
  | _ => none

def text? : Value → Option String
  | .text s => some s
  | _ => none

def field {α : Type} (read : Value → Option α) (default : α) : Option Value → Option α
  | some v => read v
  | none => some default

def logging? (v : Value) : Option LoggingSettings := do
  let d := LoggingSettings.default
  match ← fields ["level", "format"] v with
  | [level, format] => return ⟨← field text? d.level level, ← field text? d.format format⟩
  | _ => none

def registry? (v : Value) : Option RegistrySettings := do
  let d := RegistrySettings.default
  match ← fields ["admin_timeout_ms", "dial_timeout_ms", "watch_retry_delay_ms",
      "watch_channel_capacity"] v with
  | [admin, dial, delay, capacity] =>
    return ⟨← field word? d.adminTimeout admin, ← field word? d.dialTimeout dial,
      ← field word? d.watchRetryDelay delay, ← field word? d.watchChannelCapacity capacity⟩
  | _ => none

def retry? (v : Value) : Option RetrySettings := do
  let d := RetrySettings.default
  match ← fields ["initial_delay_ms", "max_delay_ms", "backoff_multiplier"] v with
  | [initial, max, multiplier] =>
    return ⟨← field word? d.initialDelay initial, ← field word? d.maxDelay max,
      ← field number? d.multiplier multiplier⟩
  | _ => none

def clusters? (v : Value) : Option (Std.ExtTreeMap String String) := do
  (← members? v).foldlM (fun t (cluster, address) => return t.insert cluster (← text? address)) ∅

def ofDocument? (members : List (String × Value)) : Option Settings := do
  return {
    logging := ← field logging? .default (members.lookup "logging")
    registry := ← field registry? .default (members.lookup "registry")
    retry := ← field retry? .default (members.lookup "retry")
    clusters := ← field clusters? ∅ (members.lookup "clusters") }

def parse (text : String) : Except ConfigError Settings :=
  match (Toml.document text).bind ofDocument? with
  | none => .error .malformed
  | some settings => do
    settings.check
    return settings

def load (content : Option ByteArray) : Except ConfigError Settings :=
  match content.bind String.fromUTF8? with
  | none => .error .unreadable
  | some text => parse text

end ModelRegistry.Settings
