import Mathlib.Logic.Function.Iterate
import ModelRegistry.Proofs.Pauses
import ModelRegistry.Proofs.Waiting

/-!
The attempts of a call in virtual time. Whatever the connection, the lookup, the dialer and the
operation do, and however long they take, the attempts follow one another at the pauses of one
backoff, each but the last fails with an error that another attempt may mend, and the outcome of the
last is the outcome of the call.
-/

namespace ModelRegistry

open Simulation (Wait Heard Cause)

theorem Error.isRetryable_iff {e : Error} : e.isRetryable ↔
    e.kind = .unavailable ∨ e.kind = .resourceExhausted ∨ e.kind = .aborted := by
  cases e <;> simp [isRetryable, kind, Kind.isRetryable]

namespace Backoff

def after (retry : RetrySettings) (n : Nat) : Backoff := advance^[n] (.start retry)

theorem after_succ (retry : RetrySettings) (n : Nat) :
    after retry (n + 1) = (after retry n).advance :=
  Function.iterate_succ_apply' ..

theorem current_after_succ (retry : RetrySettings) (n : Nat) :
    (after retry (n + 1)).current =
      min retry.maxDelay
        (((Binary64.ofNat (after retry n).current).mul retry.multiplier).toWord) := by
  obtain ⟨hmax, hmultiplier⟩ := advance_iterate (.start retry) n
  rw [after_succ, min_comm]
  change min ((Binary64.ofNat _).mul (after retry n).multiplier).toWord (after retry n).max = _
  rw [after, hmax, hmultiplier]
  rfl

end Backoff

structure Operation (α : Type) where
  query : Link → Query
  answer : Reply → Option (Except Error α)
  answers : ∀ link (r : Reply), r.Fits (query link) →
    ∃ result, (Heard.reply r).signal answer = .answered result

def Operation.request (r : Request) : Operation Answer where
  query link := .request link r
  answer := Simulation.Run.answer?
  answers link reply h := by
    cases reply with
    | answered result => exact ⟨result, rfl⟩
    | _ => cases h

structure Attempt (α : Type) where
  began : Nat
  acquired : Option (Except Error Link)
  operations : List Link
  answered : Option (Except Error α)
  ended : Option (Nat × Except Error α)

namespace Attempt

variable {α : Type}

def start (now : Nat) : Attempt α := ⟨now, none, [], none, none⟩

def given (began : Nat) (link : Link) : Attempt α := ⟨began, some (.ok link), [link], none, none⟩

def link? (a : Attempt α) : Option Link := a.acquired.bind Except.toOption

def IsCutOff (a : Attempt α) : Prop := (∀ e, a.acquired ≠ some (.error e)) ∧ a.answered = none

def outcome (cluster : ClusterId) (a : Attempt α) : Except Error α :=
  match a.acquired, a.answered with
  | some (.error e), _ => .error e
  | _, some result => result
  | _, none => .error (Call.timedOut cluster)

def note (now : Nat) (before : Call.Stage α) (signal : Call.Signal α) (after : Call.Stage α)
    (a : Attempt α) : Attempt α :=
  match before, signal, after with
  | .acquiring _, _, .operating link =>
    { a with acquired := some (.ok link), operations := a.operations ++ [link] }
  | .acquiring _, .cutOff, .failed _ e => { a with ended := some (now, .error e) }
  | .acquiring _, _, .failed _ e =>
    { a with acquired := some (.error e), ended := some (now, .error e) }
  | _, _, .operating link => { a with operations := a.operations ++ [link] }
  | .operating _, .answered result, .failed _ e =>
    { a with answered := some result, ended := some (now, .error e) }
  | .operating _, .answered result, .finished r =>
    { a with answered := some result, ended := some (now, r) }
  | .operating _, _, .failed _ e => { a with ended := some (now, .error e) }
  | _, _, _ => a

structure Complete (cluster : ClusterId) (deadline : Option Nat) (a : Attempt α) (t : Nat)
    (r : Except Error α) : Prop where
  ended : a.ended = some (t, r)
  outcome : a.outcome cluster = r
  operations : a.operations = a.link?.toList
  cutOff : a.IsCutOff → ∃ d, deadline = some d ∧ d ≤ t

end Attempt

structure Execution (α : Type) where
  now : Nat
  call : Call α
  attempt : Attempt α
  earlier : List (Attempt α)

namespace Execution

variable {α : Type}

def attempts (x : Execution α) : List (Attempt α) := (x.attempt :: x.earlier).reverse

def record (x : Execution α) (signal : Call.Signal α) (call : Call α) : Execution α :=
  match call.stage with
  | .acquiring .entering => { x with
      call
      attempt := .start x.now
      earlier := x.attempt :: x.earlier }
  | stage => { x with call, attempt := x.attempt.note x.now x.call.stage signal stage }

def step (x : Execution α) (env : Env) (c : Connection) (signal : Call.Signal α) : Execution α :=
  x.record signal (x.call.step env c signal).2

/-- The executions of a call that begins at the time `began`. At each step the connection may be in
any state, and chance may draw any number. -/
inductive Reachable (cluster : ClusterId) (retry : RetrySettings) (deadline : Option Nat)
    (began : Nat) : Execution α → Prop
  | start : Reachable cluster retry deadline began
      ⟨began, .start retry deadline, .start began, []⟩
  | pass {x : Execution α} (op : Operation α) (t : Nat) :
      Reachable cluster retry deadline began x → x.now ≤ t →
      (Wait.ofCall cluster op.query x.call).Lasts t →
      Reachable cluster retry deadline began { x with now := t }
  | hear {x : Execution α} (op : Operation α) (env : Env) (c : Connection) (heard : Heard) :
      Reachable cluster retry deadline began x → env.cluster = cluster → env.now = x.now →
      (Wait.ofCall cluster op.query x.call).Ends x.now heard →
      Reachable cluster retry deadline began (x.step env c (heard.signal op.answer))

end Execution

namespace Call

variable {α : Type}

theorem stage_retry (k : Call α) (env : Env) (e : Error) :
    (∃ resumes, (k.retry env e).stage = .pausing resumes) ∨
      ∃ r, (k.retry env e).stage = .finished r := by
  unfold retry
  split
  · simp only
    split
    · exact .inr ⟨_, rfl⟩
    · exact .inl ⟨_, rfl⟩
  · exact .inr ⟨_, rfl⟩

theorem deadline_retry (k : Call α) (env : Env) (e : Error) :
    (k.retry env e).deadline = k.deadline := by
  unfold retry
  split
  · simp only
    split <;> rfl
  · rfl

inductive Hears (now : Nat) (deadline : Option Nat) : Stage α → Signal α → Prop
  | enter : Hears now deadline (.acquiring .entering) .proceed
  | resolved (r : Except Error String) :
      Hears now deadline (.acquiring .resolving) (.connect (.resolved r))
  | dialed {address : String} {expires : Nat} (r : Except Error Link) :
      Hears now deadline (.acquiring (.dialing address expires)) (.connect (.dialed r))
  | expired {address : String} {expires : Nat} :
      Hears now deadline (.acquiring (.dialing address expires)) (.connect .expired)
  | undialed {a : Acquisition} {d : Nat} : deadline = some d → d ≤ now →
      Hears now deadline (.acquiring a) .cutOff
  | answered {link : Link} (r : Except Error α) :
      Hears now deadline (.operating link) (.answered r)
  | unanswered {link : Link} {d : Nat} : deadline = some d → d ≤ now →
      Hears now deadline (.operating link) .cutOff
  | settle {used : Option Link} {e : Error} : Hears now deadline (.failed used e) .proceed
  | close {link : Link} {e : Error} : Hears now deadline (.closing link e) .proceed
  | again {resumes : Nat} : resumes ≤ now → Hears now deadline (.pausing resumes) .proceed

theorem hears_limit {a : Acquisition} {now due : Nat} {deadline : Option Nat} {cause : Cause}
    (hdue : due ≤ now) (hl : (cause, due) ∈ Wait.deadline deadline)
    (answer : Reply → Option (Except Error α)) :
    Hears now deadline (.acquiring a) ((Heard.limit cause).signal answer) := by
  obtain ⟨rfl, hd⟩ := Wait.eq_of_mem_deadline hl
  exact .undialed hd hdue

theorem hears_acquiring {cluster : ClusterId} {a : Acquisition} {now : Nat}
    {deadline : Option Nat} {heard : Heard}
    (h : (Wait.ofAcquisition cluster deadline a).Ends now heard)
    (answer : Reply → Option (Except Error α)) :
    Hears now deadline (.acquiring a) (heard.signal answer) := by
  cases a with
  | entering =>
    cases heard with
    | proceed => exact .enter
    | _ => cases h
  | resolving =>
    cases heard with
    | proceed => cases h
    | reply r =>
      cases r with
      | resolved r => exact .resolved r
      | _ => cases h
    | limit cause =>
      obtain ⟨due, hdue, hl⟩ := h
      exact hears_limit hdue hl answer
  | dialing address expires =>
    cases heard with
    | proceed => cases h
    | reply r =>
      cases r with
      | dialed r => exact .dialed r
      | _ => cases h
    | limit cause =>
      obtain ⟨due, hdue, hl⟩ := h
      obtain hl | hl := List.mem_cons.1 hl
      · obtain ⟨rfl, rfl⟩ := Prod.mk.inj hl
        exact .expired
      · exact hears_limit hdue hl answer
  | finished r => cases heard <;> cases h

theorem hears_of_ends {cluster : ClusterId} {op : Operation α} {k : Call α} {now : Nat}
    {heard : Heard} (h : (Wait.ofCall cluster op.query k).Ends now heard) :
    Hears now k.deadline k.stage (heard.signal op.answer) := by
  obtain ⟨deadline, backoff, stage⟩ := k
  cases stage with
  | acquiring a => exact hears_acquiring h op.answer
  | operating link =>
    cases heard with
    | proceed => cases h
    | reply r =>
      obtain ⟨result, hr⟩ := op.answers link r h
      rw [hr]
      exact .answered result
    | limit cause =>
      obtain ⟨due, hdue, hl⟩ := h
      obtain ⟨rfl, hd⟩ := Wait.eq_of_mem_deadline hl
      exact .unanswered hd hdue
  | failed used e =>
    cases heard with
    | proceed => exact .settle
    | _ => cases h
  | closing link e =>
    cases heard with
    | proceed => exact .close
    | _ => cases h
  | pausing resumes =>
    cases heard with
    | proceed => exact .again h
    | _ => cases h
  | finished r => cases heard <;> cases h

end Call

namespace Attempt

variable {α : Type} {cluster : ClusterId} {retry : RetrySettings} {deadline : Option Nat}
  {a b : Attempt α}

structure Mendable (cluster : ClusterId) (deadline : Option Nat) (a : Attempt α) (t pause : Nat) :
    Prop where
  failed : ∃ e, a.Complete cluster deadline t (.error e) ∧ e.isRetryable
  inTime : ∀ d, deadline = some d → pause < d - t

def LeadsTo (cluster : ClusterId) (retry : RetrySettings) (deadline : Option Nat) (n : Nat)
    (a b : Attempt α) : Prop :=
  ∃ t draw, a.Mendable cluster deadline t ((Backoff.after retry n).pause draw) ∧
    b.began = t + (Backoff.after retry n).pause draw

def Chained (cluster : ClusterId) (retry : RetrySettings) (deadline : Option Nat) (began : Nat)
    (b : Attempt α) : List (Attempt α) → Prop
  | [] => b.began = began
  | a :: earlier => a.LeadsTo cluster retry deadline earlier.length b ∧
      a.Chained cluster retry deadline began earlier

theorem Chained.of_began {began : Nat} {earlier : List (Attempt α)}
    (h : a.Chained cluster retry deadline began earlier) (hb : b.began = a.began) :
    b.Chained cluster retry deadline began earlier := by
  cases earlier with
  | nil => exact hb.trans h
  | cons a' earlier =>
    obtain ⟨⟨t, draw, hmend, hbegan⟩, hrest⟩ := h
    exact ⟨⟨t, draw, hmend, hb.trans hbegan⟩, hrest⟩

theorem Chained.begins {began : Nat} {earlier : List (Attempt α)}
    (h : b.Chained cluster retry deadline began earlier) :
    ∃ a, (b :: earlier).reverse.head? = some a ∧ a.began = began := by
  induction earlier generalizing b with
  | nil => exact ⟨b, rfl, h⟩
  | cons a earlier ih =>
    obtain ⟨first, hfirst, hbegan⟩ := ih h.2
    refine ⟨first, ?_, hbegan⟩
    rw [List.reverse_cons, List.head?_append, hfirst]
    rfl

theorem Chained.complete {began : Nat} {earlier : List (Attempt α)}
    (h : b.Chained cluster retry deadline began earlier) :
    ∀ a ∈ earlier, ∃ t e, a.Complete cluster deadline t (.error e) := by
  induction earlier generalizing b with
  | nil =>
    intro a ha
    cases ha
  | cons a earlier ih =>
    obtain ⟨⟨t, draw, ⟨⟨e, hcomplete, -⟩, -⟩, -⟩, hrest⟩ := h
    intro a' ha'
    obtain rfl | ha' := List.mem_cons.1 ha'
    · exact ⟨t, e, hcomplete⟩
    · exact ih hrest a' ha'

theorem Chained.leadsTo {began i : Nat} {earlier : List (Attempt α)} {c : Attempt α}
    (h : b.Chained cluster retry deadline began earlier)
    (ha : (b :: earlier).reverse[i]? = some a) (hc : (b :: earlier).reverse[i + 1]? = some c) :
    a.LeadsTo cluster retry deadline i c := by
  induction earlier generalizing b with
  | nil => simp at hc
  | cons a' earlier ih =>
    obtain ⟨hlead, hrest⟩ := h
    rw [List.reverse_cons] at ha hc
    have hlength : (a' :: earlier).reverse.length = earlier.length + 1 := by simp
    by_cases hi : i + 1 < earlier.length + 1
    · rw [List.getElem?_append_left (by omega)] at ha hc
      exact ih hrest ha hc
    · have hlast : i + 1 < earlier.length + 2 := by
        have hlt := (List.getElem?_eq_some_iff.1 hc).1
        simp only [List.length_append, List.length_singleton] at hlt
        omega
      obtain rfl : i = earlier.length := by omega
      obtain rfl : a' = a := by
        simpa [List.getElem?_append_left] using ha
      obtain rfl : b = c := by simpa using hc
      exact hlead

def Concludes (retry : RetrySettings) (deadline : Option Nat) (n t : Nat) (r : Except Error α) :
    Prop :=
  ∀ e, r = .error e → e.isRetryable →
    ∃ draw d, deadline = some d ∧ d - t ≤ (Backoff.after retry n).pause draw

inductive At (cluster : ClusterId) (retry : RetrySettings) (deadline : Option Nat) (now n : Nat)
    (a : Attempt α) (backoff : Backoff) : Call.Stage α → Prop
  | acquiring {acquisition : Acquisition} : backoff = .after retry n → a = .start a.began →
      At cluster retry deadline now n a backoff (.acquiring acquisition)
  | operating {link : Link} : backoff = .after retry n →
      a = .given a.began link →
      At cluster retry deadline now n a backoff (.operating link)
  | failed {used : Option Link} {e : Error} : backoff = .after retry n →
      a.Complete cluster deadline now (.error e) →
      At cluster retry deadline now n a backoff (.failed used e)
  | closing {link : Link} {e : Error} : backoff = .after retry n →
      a.Complete cluster deadline now (.error e) →
      At cluster retry deadline now n a backoff (.closing link e)
  | pausing {t draw resumes : Nat} : backoff = .after retry (n + 1) →
      a.Mendable cluster deadline t ((Backoff.after retry n).pause draw) →
      resumes = t + (Backoff.after retry n).pause draw → now ≤ resumes →
      At cluster retry deadline now n a backoff (.pausing resumes)
  | finished {t : Nat} {r : Except Error α} : a.Complete cluster deadline t r →
      Concludes retry deadline n t r → At cluster retry deadline now n a backoff (.finished r)

theorem given_of_start (ha : a = .start a.began) (link : Link) :
    { a with acquired := some (.ok link), operations := a.operations ++ [link] } =
      .given a.began link := by
  rw [ha]
  rfl

theorem complete_refused (ha : a = .start a.began) (e : Error) (t : Nat) :
    { a with acquired := some (.error e), ended := some (t, .error e) }.Complete cluster deadline t
      (.error e) := by
  rw [ha]
  refine ⟨rfl, rfl, rfl, ?_⟩
  intro hcut
  exact absurd rfl (hcut.1 e)

theorem complete_cutOff (ha : a = .start a.began ∨ ∃ link, a = .given a.began link) {d t : Nat}
    (hd : deadline = some d) (hle : d ≤ t) :
    { a with ended := some (t, .error (Call.timedOut cluster)) }.Complete cluster deadline t
      (.error (Call.timedOut cluster)) := by
  have hcut : ∃ d, deadline = some d ∧ d ≤ t := ⟨d, hd, hle⟩
  obtain ha | ⟨link, ha⟩ := ha
  · rw [ha]
    exact ⟨rfl, rfl, rfl, fun _ => hcut⟩
  · rw [ha]
    exact ⟨rfl, rfl, rfl, fun _ => hcut⟩

theorem complete_answered {link : Link} (ha : a = .given a.began link) (r : Except Error α)
    (t : Nat) :
    { a with answered := some r, ended := some (t, r) }.Complete cluster deadline t r := by
  rw [ha]
  refine ⟨rfl, rfl, rfl, ?_⟩
  intro hcut
  cases hcut.2

theorem leavesNoTime_iff {now pause : Nat} :
    Call.leavesNoTime deadline now pause ↔ ∃ d, deadline = some d ∧ d - now ≤ pause := by
  cases deadline <;> simp [Call.leavesNoTime]

theorem At.of_complete {env : Env} {n : Nat} {e : Error} {k : Call α}
    (h : a.Complete cluster deadline env.now (.error e)) (hb : k.backoff = .after retry n)
    (hd : k.deadline = deadline) :
    a.At cluster retry deadline env.now n (k.retry env e).backoff (k.retry env e).stage := by
  unfold Call.retry
  split
  next hretryable =>
    simp only [hb, hd]
    split
    next hlate =>
      obtain ⟨d, hdeadline, hle⟩ := leavesNoTime_iff.1 hlate
      exact .finished h fun e' he' _ => ⟨env.draw, d, hdeadline, hle⟩
    next htime =>
      have hadvance : (Backoff.after retry n).advance = .after retry (n + 1) :=
        (Backoff.after_succ retry n).symm
      refine .pausing hadvance ⟨⟨e, h, hretryable⟩, ?_⟩ rfl (Nat.le_add_right ..)
      intro d hdeadline
      by_contra hle
      exact htime (leavesNoTime_iff.2 ⟨d, hdeadline, Nat.le_of_not_lt hle⟩)
  next hpermanent =>
    apply At.finished h
    rintro e' he' hretryable
    obtain rfl : e = e' := Except.error.inj he'
    exact absurd hretryable hpermanent

end Attempt

namespace Execution

variable {α : Type} {cluster : ClusterId} {retry : RetrySettings} {deadline : Option Nat}
  {began : Nat} {x : Execution α}

structure Kept (cluster : ClusterId) (retry : RetrySettings) (deadline : Option Nat) (began : Nat)
    (x : Execution α) : Prop where
  limited : x.call.deadline = deadline
  chained : x.attempt.Chained cluster retry deadline began x.earlier
  at_stage : x.attempt.At cluster retry deadline x.now x.earlier.length x.call.backoff x.call.stage

theorem Kept.start : Kept cluster retry deadline began
    (⟨began, .start retry deadline, .start began, []⟩ : Execution α) :=
  ⟨rfl, rfl, .acquiring rfl rfl⟩

theorem Kept.pass (h : x.Kept cluster retry deadline began) {op : Operation α} {t : Nat}
    (hlasts : (Wait.ofCall cluster op.query x.call).Lasts t) :
    { x with now := t }.Kept cluster retry deadline began := by
  obtain ⟨now, ⟨d, backoff, stage⟩, attempt, earlier⟩ := x
  refine ⟨h.limited, h.chained, ?_⟩
  cases h.at_stage with
  | acquiring hb ha => exact .acquiring hb ha
  | operating hb ha => exact .operating hb ha
  | failed => cases hlasts
  | closing => cases hlasts
  | pausing hb hm hr => exact .pausing hb hm hr hlasts
  | finished hc hl => exact .finished hc hl

theorem Kept.acquire {env : Env} {c : Connection} {a : Acquisition} {signal : Call.Signal α}
    {s : Acquisition.Signal} (h : x.Kept cluster retry deadline began)
    (hs : x.call.stage = .acquiring a) (hsignal : signal ≠ .cutOff)
    (hstep : x.call.step env c signal = x.call.acquire env c a s)
    (hne : (a.step env c s).2 ≠ .entering) :
    (x.step env c signal).Kept cluster retry deadline began := by
  unfold step
  rw [hstep]
  unfold Call.acquire
  generalize a.step env c s = stepped at hne ⊢
  obtain ⟨c', a'⟩ := stepped
  obtain ⟨now, ⟨d, backoff, stage⟩, attempt, earlier⟩ := x
  obtain ⟨hlimited, hchained, hat⟩ := h
  obtain rfl : stage = .acquiring a := hs
  obtain rfl : d = deadline := hlimited
  cases hat with
  | acquiring hb hstart =>
    cases a' with
    | entering => exact absurd rfl hne
    | resolving => exact ⟨rfl, hchained, .acquiring hb hstart⟩
    | dialing address expires => exact ⟨rfl, hchained, .acquiring hb hstart⟩
    | finished r =>
      cases r with
      | ok link =>
        exact ⟨rfl, hchained.of_began rfl, .operating hb (Attempt.given_of_start hstart link)⟩
      | error e =>
        cases signal with
        | cutOff => exact absurd rfl hsignal
        | _ =>
          exact ⟨rfl, hchained.of_began rfl, .failed hb (Attempt.complete_refused hstart e now)⟩

theorem record_retry {env : Env} {e : Error}
    (hs : (∃ used, x.call.stage = .failed used e) ∨ ∃ link, x.call.stage = .closing link e) :
    x.record .proceed (x.call.retry env e) = { x with call := x.call.retry env e } := by
  unfold record
  obtain ⟨resumes, hr⟩ | ⟨r, hr⟩ := x.call.stage_retry env e
  · rw [hr]
    obtain ⟨used, hs⟩ | ⟨link, hs⟩ := hs <;> rw [hs] <;> rfl
  · rw [hr]
    obtain ⟨used, hs⟩ | ⟨link, hs⟩ := hs <;> rw [hs] <;> rfl

theorem Kept.settle {env : Env} {e : Error} (h : x.Kept cluster retry deadline began)
    (hs : (∃ used, x.call.stage = .failed used e) ∨ ∃ link, x.call.stage = .closing link e)
    (hcomplete : x.attempt.Complete cluster deadline env.now (.error e))
    (hb : x.call.backoff = .after retry x.earlier.length) (hnow : env.now = x.now) :
    (x.record .proceed (x.call.retry env e)).Kept cluster retry deadline began := by
  rw [record_retry hs]
  exact ⟨(x.call.deadline_retry env e).trans h.limited, h.chained,
    hnow ▸ Attempt.At.of_complete hcomplete hb h.limited⟩

theorem Kept.hear (h : x.Kept cluster retry deadline began) {env : Env}
    (hcluster : env.cluster = cluster) (hnow : env.now = x.now) (c : Connection)
    {signal : Call.Signal α} (hears : Call.Hears x.now x.call.deadline x.call.stage signal) :
    (x.step env c signal).Kept cluster retry deadline began := by
  have hx := h
  obtain ⟨now, ⟨d, backoff, stage⟩, attempt, earlier⟩ := x
  obtain ⟨hlimited, hchained, hat⟩ := h
  simp only at hlimited hears hnow
  subst hcluster hnow hlimited
  cases hears with
  | enter =>
    refine hx.acquire (s := .proceed) rfl ?_ rfl ?_
    · nofun
    · cases c <;> nofun
  | resolved r =>
    refine hx.acquire rfl ?_ rfl ?_
    · nofun
    · cases r <;> nofun
  | dialed r =>
    refine hx.acquire rfl ?_ rfl ?_
    · nofun
    · cases r <;> nofun
  | expired =>
    refine hx.acquire (s := .expired) rfl ?_ rfl ?_
    · nofun
    · nofun
  | undialed hd hle =>
    cases hat with
    | acquiring hb hstart =>
      exact ⟨rfl, hchained.of_began rfl, .failed hb (Attempt.complete_cutOff (.inl hstart) hd hle)⟩
  | answered r =>
    cases hat with
    | operating hb hgiven =>
      cases r with
      | ok v =>
        exact ⟨rfl, hchained.of_began rfl,
          .finished (Attempt.complete_answered hgiven (.ok v) env.now) nofun⟩
      | error e =>
        exact ⟨rfl, hchained.of_began rfl,
          .failed hb (Attempt.complete_answered hgiven (.error e) env.now)⟩
  | unanswered hd hle =>
    cases hat with
    | operating hb hgiven =>
      exact ⟨rfl, hchained.of_began rfl,
        .failed hb (Attempt.complete_cutOff (.inr ⟨_, hgiven⟩) hd hle)⟩
  | settle =>
    cases hat with
    | failed hb hcomplete =>
      unfold step Call.step
      simp only
      split
      next c link hd => exact ⟨rfl, hchained, .closing hb hcomplete⟩
      next c hd => exact hx.settle (.inl ⟨_, rfl⟩) hcomplete hb rfl
  | close =>
    cases hat with
    | closing hb hcomplete => exact hx.settle (.inr ⟨_, rfl⟩) hcomplete hb rfl
  | again hr =>
    cases hat with
    | pausing hb hmend hresumes hle =>
      refine ⟨rfl, ⟨⟨_, _, hmend, ?_⟩, hchained⟩, .acquiring hb rfl⟩
      have hnow : env.now = _ := Nat.le_antisymm hle hr
      exact hnow.trans hresumes

/-- What the attempts of a call have to do with its result `r`. The call began at the time `began`,
and the attempts stand in the order of time. -/
structure Executed (cluster : ClusterId) (retry : RetrySettings) (deadline : Option Nat)
    (began : Nat) (attempts : List (Attempt α)) (r : Except Error α) : Prop where
  begins : ∃ a, attempts.head? = some a ∧ a.began = began
  complete : ∀ a ∈ attempts, ∃ t r, a.Complete cluster deadline t r
  next : ∀ i a b, attempts[i]? = some a → attempts[i + 1]? = some b → ∃ t e draw,
    a.ended = some (t, .error e) ∧ e.isRetryable ∧
      b.began = t + (Backoff.after retry i).pause draw ∧
      ∀ d, deadline = some d → (Backoff.after retry i).pause draw < d - t
  last : ∃ a t, attempts.getLast? = some a ∧ a.ended = some (t, r) ∧
    ∀ e, r = .error e → e.isRetryable → ∃ draw d, deadline = some d ∧
      d - t ≤ (Backoff.after retry (attempts.length - 1)).pause draw
  untimed : deadline = none → ∀ e, r = .error e → e.isRetryable = false
  retryable : ∀ e : Error, e.isRetryable ↔
    e.kind = .unavailable ∨ e.kind = .resourceExhausted ∨ e.kind = .aborted
  pauses : ∀ i draw, (Backoff.after retry i).current ≤ (Backoff.after retry i).pause draw ∧
    (Backoff.after retry i).pause draw ≤
      (Backoff.after retry i).current + (Backoff.after retry i).current / 5
  initial : (Backoff.after retry 0).current = retry.initialDelay
  grows : ∀ i, (Backoff.after retry (i + 1)).current = min retry.maxDelay
    (((Binary64.ofNat (Backoff.after retry i).current).mul retry.multiplier).toWord)

theorem Reachable.kept (h : x.Reachable cluster retry deadline began) :
    x.Kept cluster retry deadline began := by
  induction h with
  | start => exact .start
  | pass op t _ _ hlasts ih => exact ih.pass hlasts
  | hear op env c heard _ hcluster hnow hends ih =>
    exact ih.hear hcluster hnow c (Call.hears_of_ends hends)

theorem Reachable.executed {r : Except Error α} (h : x.Reachable cluster retry deadline began)
    (hr : x.call.stage = .finished r) : Executed cluster retry deadline began x.attempts r := by
  obtain ⟨hlimited, hchained, hat⟩ := h.kept
  rw [hr] at hat
  cases hat with
  | finished hcomplete hconcludes =>
    rename_i t
    have hlength : x.attempts.length - 1 = x.earlier.length := by simp [attempts]
    constructor
    · exact hchained.begins
    · intro a ha
      obtain rfl | ha := List.mem_cons.1 (List.mem_reverse.1 ha)
      · exact ⟨t, r, hcomplete⟩
      · obtain ⟨t', e, he⟩ := hchained.complete a ha
        exact ⟨t', .error e, he⟩
    · intro i a b ha hb
      obtain ⟨t', draw, ⟨⟨e, he, hretryable⟩, htime⟩, hbegan⟩ := hchained.leadsTo ha hb
      exact ⟨t', e, draw, he.ended, hretryable, hbegan, htime⟩
    · refine ⟨x.attempt, t, ?_, hcomplete.ended, ?_⟩
      · simp [attempts]
      · rw [hlength]
        exact hconcludes
    · intro hnone e he
      by_contra hretryable
      obtain ⟨-, d, hd, -⟩ := hconcludes e he (by simpa using hretryable)
      rw [hnone] at hd
      cases hd
    · exact fun e => Error.isRetryable_iff
    · intro i draw
      exact Backoff.pause_mem_bounds _ draw
    · rfl
    · exact Backoff.current_after_succ retry

def quick : RetrySettings := ⟨10, 40, .two⟩

def moment (now draw : Nat) : Env := ⟨⟨"c"⟩, .default, quick, now, draw⟩

def grown : Backoff := (Backoff.start quick).advance

def refused : Attempt Answer :=
  ⟨0, some (.error (Acquisition.busy ⟨"c"⟩)), [], none, some (0, .error (Acquisition.busy ⟨"c"⟩))⟩

def served : Attempt Answer := ⟨11, some (.ok 7), [7], some (.ok .done), some (15, .ok .done)⟩

theorem executed_mended : ∃ x : Execution Answer, x.Reachable ⟨"c"⟩ quick (some 100) 0 ∧
    x.call.stage = .finished (.ok .done) ∧
      Executed ⟨"c"⟩ quick (some 100) 0 [refused, served] (.ok .done) := by
  let op := Operation.request .listAll
  have hstart : Reachable (α := Answer) ⟨"c"⟩ quick (some 100) 0
      ⟨0, ⟨some 100, .start quick, .acquiring .entering⟩, .start 0, []⟩ := .start
  have hrefused : Reachable ⟨"c"⟩ quick (some 100) 0
      ⟨0, ⟨some 100, .start quick, .failed none (Acquisition.busy ⟨"c"⟩)⟩, refused, []⟩ :=
    hstart.hear op (moment 0 0) .dialing .proceed rfl rfl trivial
  have hpausing : Reachable ⟨"c"⟩ quick (some 100) 0
      ⟨0, ⟨some 100, grown, .pausing 11⟩, refused, []⟩ :=
    hrefused.hear op (moment 0 1) .dialing .proceed rfl rfl trivial
  have hresumes : Reachable ⟨"c"⟩ quick (some 100) 0
      ⟨11, ⟨some 100, grown, .pausing 11⟩, refused, []⟩ :=
    hpausing.pass op 11 (Nat.zero_le 11) (Nat.le_refl 11)
  have hagain : Reachable ⟨"c"⟩ quick (some 100) 0
      ⟨11, ⟨some 100, grown, .acquiring .entering⟩, .start 11, [refused]⟩ :=
    hresumes.hear op (moment 11 0) .idle .proceed rfl rfl (Nat.le_refl 11)
  have hgiven : Reachable ⟨"c"⟩ quick (some 100) 0
      ⟨11, ⟨some 100, grown, .operating 7⟩, .given 11 7, [refused]⟩ :=
    hagain.hear op (moment 11 0) (.ready 7) .proceed rfl rfl trivial
  have hwaited : Reachable ⟨"c"⟩ quick (some 100) 0
      ⟨15, ⟨some 100, grown, .operating 7⟩, .given 11 7, [refused]⟩ :=
    hgiven.pass op 15 (by decide) (by simp [Wait.ofCall, Wait.Lasts, Wait.deadline])
  have hanswered : Reachable ⟨"c"⟩ quick (some 100) 0
      ⟨15, ⟨some 100, grown, .finished (.ok .done)⟩, served, [refused]⟩ :=
    hwaited.hear op (moment 15 0) (.ready 7) (.reply (.answered (.ok .done))) rfl rfl trivial
  exact ⟨_, hanswered, rfl, hanswered.executed rfl⟩

end Execution

end ModelRegistry
