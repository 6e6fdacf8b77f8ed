import ModelRegistry.Subscription

namespace ModelRegistry

inductive Note
  | busy
  | unresolved (e : Error)
  | undialed (e : Error)
  | expired
  | asked (cursor : Cursor)
  | answered (result : Except Error Response)
  | queued (update : Update) (next : Cursor)

namespace Note

def isFailure : Note → Bool
  | busy | unresolved _ | undialed _ | expired | answered (.error _) => true
  | _ => false

def isSuccess : Note → Bool
  | answered (.ok _) => true
  | _ => false

def isNotFound : Note → Bool
  | answered (.error e) | undialed e => e.isNotFound
  | _ => false

/-- A failure after which the producer asks for the whole set: of a request, or of a dial with an
error that does not call for another attempt. -/
def forgets : Note → Bool
  | answered (.error _) => true
  | undialed e => !(e.isRetryable || e.kind == .deadlineExceeded)
  | _ => false

def Misses : Note → Error → Prop
  | busy, e => ∃ cluster, e = Acquisition.busy cluster
  | unresolved cause, e => ∃ cluster, e = Acquisition.unresolved cluster cause
  | undialed cause, e => ∃ address, e = Acquisition.undialed address cause
  | expired, e => ∃ address, e = Acquisition.timedOut address
  | _, _ => False

theorem Misses.not_isSuccess {n : Note} {e : Error} (h : n.Misses e) : n.isSuccess = false := by
  cases n <;> first | rfl | exact h.elim

theorem Misses.isNotFound {n : Note} {e : Error} (h : n.Misses e) :
    n.isNotFound = e.isNotFound := by
  cases n with
  | busy => obtain ⟨cluster, rfl⟩ := h; rfl
  | unresolved cause => obtain ⟨cluster, rfl⟩ := h; rfl
  | undialed cause =>
    obtain ⟨address, rfl⟩ := h
    exact (Acquisition.isNotFound_undialed address cause).symm
  | expired => obtain ⟨address, rfl⟩ := h; rfl
  | _ => exact h.elim

theorem Misses.forgets {n : Note} {e : Error} (h : n.Misses e) : n.forgets = !e.isRetryable := by
  cases n with
  | busy => obtain ⟨cluster, rfl⟩ := h; rfl
  | unresolved cause => obtain ⟨cluster, rfl⟩ := h; rfl
  | undialed cause =>
    obtain ⟨address, rfl⟩ := h
    rw [Acquisition.isRetryable_undialed]
    rfl
  | expired => obtain ⟨address, rfl⟩ := h; rfl
  | _ => exact h.elim

end Note

def lastAnswer : List Note → Option Response
  | [] => none
  | .answered (.ok r) :: _ => some r
  | _ :: J => lastAnswer J

def AskedWith (P : List Note → Cursor → Prop) (J : List Note) : Prop :=
  ∀ later c earlier, J = later ++ .asked c :: earlier → P earlier c

theorem AskedWith.append {P : List Note → Cursor → Prop} {J : List Note} (h : AskedWith P J)
    {n : Option Note} (hn : ∀ c, n = some (.asked c) → P J c) : AskedWith P (n.toList ++ J) := by
  intro later c earlier he
  cases n with
  | none => exact h later c earlier he
  | some n =>
    cases later with
    | nil =>
      obtain ⟨rfl, rfl⟩ := List.cons.inj he
      exact hn c rfl
    | cons m later => exact h later c earlier (List.cons.inj he).2

namespace Acquisition

def isFinished : Acquisition → Bool
  | finished _ => true
  | _ => false

def note (cursor : Cursor) (c : Connection) : Acquisition → Signal → Option Note
  | entering, .proceed =>
    match c with
    | .idle => none
    | .dialing => some .busy
    | .ready _ => some (.asked cursor)
  | resolving, .resolved (.error e) => some (.unresolved e)
  | dialing _ _, .dialed (.ok _) => some (.asked cursor)
  | dialing _ _, .dialed (.error e) => some (.undialed e)
  | dialing _ _, .expired => some .expired
  | _, _ => none

theorem step_cases (env : Env) (c : Connection) {a : Acquisition} (ha : a.isFinished = false)
    (signal : Signal) (cursor : Cursor) :
    ((a.step env c signal).2.isFinished = false ∧ a.note cursor c signal = none) ∨
      (∃ link, (a.step env c signal).2 = finished (.ok link) ∧
        a.note cursor c signal = some (.asked cursor)) ∨
      (∃ n e, (a.step env c signal).2 = finished (.error e) ∧
        a.note cursor c signal = some n ∧ n.Misses e) := by
  cases a with
  | entering =>
    cases signal with
    | proceed =>
      cases c with
      | idle => exact .inl ⟨rfl, rfl⟩
      | dialing => exact .inr (.inr ⟨_, _, rfl, rfl, _, rfl⟩)
      | ready link => exact .inr (.inl ⟨link, rfl, rfl⟩)
    | _ => exact .inl ⟨rfl, rfl⟩
  | resolving =>
    cases signal with
    | resolved r =>
      cases r with
      | ok address => exact .inl ⟨rfl, rfl⟩
      | error e => exact .inr (.inr ⟨_, _, rfl, rfl, _, rfl⟩)
    | _ => exact .inl ⟨rfl, rfl⟩
  | dialing address expires =>
    cases signal with
    | dialed r =>
      cases r with
      | ok link => exact .inr (.inl ⟨link, rfl, rfl⟩)
      | error e => exact .inr (.inr ⟨_, _, rfl, rfl, _, rfl⟩)
    | expired => exact .inr (.inr ⟨_, _, rfl, rfl, _, rfl⟩)
    | _ => exact .inl ⟨rfl, rfl⟩
  | finished r => cases ha

theorem note_ne_answered (cursor : Cursor) (c : Connection) (a : Acquisition) (signal : Signal)
    (r : Except Error Response) : a.note cursor c signal ≠ some (.answered r) := by
  cases a with
  | entering => cases signal <;> cases c <;> simp [note]
  | resolving =>
    cases signal with
    | resolved r => cases r <;> simp [note]
    | _ => simp [note]
  | dialing address expires =>
    cases signal with
    | dialed r => cases r <;> simp [note]
    | _ => simp [note]
  | finished r => simp [note]

end Acquisition

namespace Call

def Ongoing (k : Call Response) : Prop :=
  k.deadline = none ∧ match k.stage with
    | .acquiring a => a.isFinished = false
    | .finished _ => False
    | _ => True

def note (cursor : Cursor) (c : Connection) :
    Call.Stage Response → Call.Signal Response → Option Note
  | .acquiring a, .proceed => a.note cursor c .proceed
  | .acquiring a, .connect signal => a.note cursor c signal
  | .operating _, .answered r => some (.answered r)
  | _, _ => none

theorem signal_of_note_answered {cursor : Cursor} {c : Connection} {stage : Call.Stage Response}
    {signal : Call.Signal Response} {r : Except Error Response}
    (h : note cursor c stage signal = some (.answered r)) : signal = .answered r := by
  cases stage with
  | acquiring a =>
    cases signal with
    | proceed => exact absurd h (Acquisition.note_ne_answered cursor c a .proceed r)
    | connect signal => exact absurd h (Acquisition.note_ne_answered cursor c a signal r)
    | _ => cases h
  | operating link =>
    cases signal with
    | answered r' =>
      obtain rfl : r' = r := by simpa [note] using h
      rfl
    | _ => cases h
  | _ => cases h

theorem ongoing_start (retry : RetrySettings) : (start retry none).Ongoing := ⟨rfl, rfl⟩

theorem retry_of_isRetryable (env : Env) {k : Call Response} (hk : k.deadline = none) {e : Error}
    (he : e.isRetryable) :
    ∃ k' resumes, k.retry env e = k' ∧ k'.deadline = none ∧ k'.stage = .pausing resumes := by
  refine ⟨_, env.now + k.backoff.pause env.draw, rfl, ?_, ?_⟩ <;>
    simp [retry, he, leavesNoTime, hk]

theorem retry_of_not_isRetryable (env : Env) (k : Call Response) {e : Error}
    (he : e.isRetryable = false) : k.retry env e = { k with stage := .finished (.error e) } := by
  simp [retry, he]

end Call

end ModelRegistry
