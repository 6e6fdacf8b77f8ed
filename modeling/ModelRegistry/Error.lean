namespace ModelRegistry

inductive ConfigError
  | unreadable
  | malformed
  | invalid (field reason : String)
  deriving DecidableEq, Repr

namespace ConfigError

def message : ConfigError → String
  | unreadable => "failed to read config file"
  | malformed => "failed to parse config"
  | invalid field reason => s!"invalid value for {field}: {reason}"

end ConfigError

inductive Error
  | unavailable (reason : String)
  | resourceExhausted (reason : String)
  | notFound (reason : String)
  | deadlineExceeded (reason : String)
  | aborted (reason : String)
  | invalidArgument (reason : String)
  | internal (reason : String)
  | config (cause : ConfigError)
  deriving DecidableEq, Repr

namespace Error

inductive Kind
  | unavailable
  | resourceExhausted
  | notFound
  | deadlineExceeded
  | aborted
  | invalidArgument
  | internal
  | config
  deriving DecidableEq, Repr

def kind : Error → Kind
  | unavailable _ => .unavailable
  | resourceExhausted _ => .resourceExhausted
  | notFound _ => .notFound
  | deadlineExceeded _ => .deadlineExceeded
  | aborted _ => .aborted
  | invalidArgument _ => .invalidArgument
  | internal _ => .internal
  | config _ => .config

def message : Error → String
  | unavailable reason => s!"registry unavailable: {reason}"
  | resourceExhausted reason => s!"resource exhausted: {reason}"
  | notFound reason => s!"not found: {reason}"
  | deadlineExceeded reason => s!"deadline exceeded: {reason}"
  | aborted reason => s!"aborted: {reason}"
  | invalidArgument reason => s!"invalid argument: {reason}"
  | internal reason => s!"internal registry error: {reason}"
  | config cause => cause.message

namespace Kind

/-- Another attempt may succeed without the caller doing anything. -/
def isRetryable : Kind → Bool
  | unavailable | resourceExhausted | aborted => true
  | _ => false

end Kind

def isRetryable (e : Error) : Bool := e.kind.isRetryable

def breaksConnection (e : Error) : Bool := e.kind == .unavailable

def isNotFound (e : Error) : Bool := e.kind == .notFound

theorem breaksConnection_iff {e : Error} : e.breaksConnection ↔ e.kind = .unavailable := by
  simp [breaksConnection]

theorem isRetryable_of_breaksConnection {e : Error} (h : e.breaksConnection) : e.isRetryable := by
  cases e <;> simp_all [breaksConnection, isRetryable, kind, Kind.isRetryable]

theorem not_isRetryable_of_isNotFound {e : Error} (h : e.isNotFound) : e.isRetryable = false := by
  cases e <;> simp_all [isNotFound, isRetryable, kind, Kind.isRetryable]

theorem not_isNotFound_of_isRetryable {e : Error} (h : e.isRetryable) : e.isNotFound = false := by
  cases e <;> simp_all [isNotFound, isRetryable, kind, Kind.isRetryable]

end Error

end ModelRegistry
