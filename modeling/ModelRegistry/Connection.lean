/-!
The connection to one cluster's registry: at most one open link is kept, and at most one dial is in
flight. `enter` is the check with which an acquisition begins, `discard` the removal of a link that
is no longer wanted; neither touches a dial in flight.
-/

namespace ModelRegistry

abbrev Link := Nat

inductive Connection
  | idle
  | dialing
  | ready (link : Link)
  deriving DecidableEq, Repr, Inhabited

namespace Connection

def isReady : Connection → Bool
  | ready _ => true
  | _ => false

def isDialing : Connection → Bool
  | dialing => true
  | _ => false

def link? : Connection → Option Link
  | ready link => some link
  | _ => none

inductive Entry
  | cached (link : Link)
  | busy
  | vacant
  deriving DecidableEq, Repr

def enter : Connection → Connection × Entry
  | idle => (dialing, .vacant)
  | dialing => (dialing, .busy)
  | ready link => (ready link, .cached link)

def abandon : Connection → Connection
  | dialing => idle
  | c => c

def discard (unwanted : Link → Bool) : Connection → Connection × Option Link
  | ready link => if unwanted link then (idle, some link) else (ready link, none)
  | c => (c, none)

theorem eq_of_abandon {c : Connection} {link : Link} (h : c.abandon = ready link) :
    c = ready link := by
  cases c <;> simp_all [abandon]

theorem discard_eq_some {c : Connection} {unwanted : Link → Bool} {link : Link}
    (h : (c.discard unwanted).2 = some link) :
    c = ready link ∧ unwanted link ∧ (c.discard unwanted).1 = idle := by
  cases c with
  | idle => simp [discard] at h
  | dialing => simp [discard] at h
  | ready l =>
    by_cases hl : unwanted l <;> simp_all [discard]

theorem discard_eq_none {c : Connection} {unwanted : Link → Bool}
    (h : (c.discard unwanted).2 = none) : (c.discard unwanted).1 = c := by
  cases c with
  | idle => rfl
  | dialing => rfl
  | ready l => by_cases hl : unwanted l <;> simp_all [discard]

end Connection

end ModelRegistry
