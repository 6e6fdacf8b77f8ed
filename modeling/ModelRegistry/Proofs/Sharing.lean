import ModelRegistry.Call

/-!
One connection and those who use it: acquisitions, calls and poisonings, in any number, which take
their steps in any order and may be dropped while they wait. Of a user only its phase matters to the
others; a history keeps what the users do to links.
-/

namespace ModelRegistry

/-- What a user of a connection is at, as far as it concerns the connection: a failed attempt has
used a link or none, a poisoning is of whichever link is kept or of a certain one. -/
inductive Phase
  | away
  | entering
  | resolving
  | dialing (address : String)
  | holding (link : Link)
  | failed (used : Option Link) (e : Error)
  | poisoning (target : Option Link)
  | closing (link : Link)

inductive Event
  | resolves (user : Nat)
  | dials (user : Nat) (address : String)
  | connected (user : Nat) (link : Link)
  | given (user : Nat) (link : Link)
  | ended (user : Nat) (used : Option Link) (e : Error)
  | settled (user : Nat) (used : Option Link) (e : Error)
  | discarded (user : Nat) (link : Link)
  | closed (user : Nat) (link : Link)

namespace Phase

def isDialing : Phase → Bool
  | resolving | dialing _ => true
  | _ => false

def waits : Phase → Bool
  | failed _ _ | poisoning _ | closing _ => false
  | _ => true

def news (i : Nat) : Phase → Phase → List Event
  | entering, resolving => [.resolves i]
  | resolving, dialing address => [.dials i address]
  | entering, holding link => [.given i link]
  | dialing _, holding link => [.given i link, .connected i link]
  | failed _ _, failed _ _ => []
  | failed used e, closing link => [.discarded i link, .settled i used e]
  | failed used e, _ => [.settled i used e]
  | poisoning _, closing link => [.discarded i link]
  | closing link, away => [.closed i link]
  | _, failed used e => [.ended i used e]
  | _, _ => []

variable {p : Phase}

theorem eq_of_isDialing (h : p.isDialing) : p = resolving ∨ ∃ address, p = dialing address := by
  cases p with
  | resolving => exact .inl rfl
  | dialing address => exact .inr ⟨address, rfl⟩
  | _ => cases h

theorem eq_of_waits (h : p.waits) (hd : p.isDialing = false) :
    p = away ∨ p = entering ∨ ∃ link, p = holding link := by
  cases p with
  | away => exact .inl rfl
  | entering => exact .inr (.inl rfl)
  | resolving => simp [isDialing] at hd
  | dialing address => simp [isDialing] at hd
  | holding link => exact .inr (.inr ⟨link, rfl⟩)
  | failed used e => simp [waits] at h
  | poisoning target => simp [waits] at h
  | closing link => simp [waits] at h

end Phase

def Acquisition.phase : Acquisition → Phase
  | entering => .entering
  | resolving => .resolving
  | dialing address _ => .dialing address
  | finished (.ok link) => .holding link
  | finished (.error e) => .failed none e

namespace Call

variable {α : Type}

def Stage.phase : Stage α → Phase
  | acquiring a => a.phase
  | operating link => .holding link
  | failed used e => .failed used e
  | closing link _ => .closing link
  | pausing _ | finished _ => .away

def Underway (k : Call α) : Prop := ∀ r, k.stage ≠ .acquiring (.finished r)

theorem underway_start (retry : RetrySettings) (deadline : Option Nat) :
    (start retry deadline : Call α).Underway := by
  intro r h
  cases h

theorem afterAcquisition_ne (a : Acquisition) (r : Except Error Link) :
    (afterAcquisition a : Stage α) ≠ .acquiring (.finished r) := by
  intro h
  cases a with
  | finished r' => cases r' <;> cases h
  | _ => cases h

theorem phase_afterAcquisition (a : Acquisition) :
    (afterAcquisition a : Stage α).phase = a.phase := by
  cases a with
  | finished r => cases r <;> rfl
  | _ => rfl

theorem phase_retry (env : Env) (k : Call α) (e : Error) : (k.retry env e).stage.phase = .away := by
  unfold retry
  split
  · simp only
    split <;> rfl
  · rfl

theorem underway_retry (env : Env) (k : Call α) (e : Error) : (k.retry env e).Underway := by
  intro r h
  have hp := phase_retry env k e
  rw [h] at hp
  cases r <;> cases hp

theorem Underway.step {k : Call α} (h : k.Underway) (env : Env) (c : Connection)
    (signal : Signal α) : (k.step env c signal).2.Underway := by
  unfold Call.step
  split
  · exact afterAcquisition_ne _
  · exact afterAcquisition_ne _
  · intro r hr; cases hr
  · intro r hr; cases hr
  · intro r hr; cases hr
  · intro r hr; cases hr
  · split
    · intro r hr; cases hr
    · exact underway_retry _ _ _
  · exact underway_retry _ _ _
  · intro r hr; cases hr
  · exact h

end Call

inductive User : Type 1
  | acquire (a : Acquisition)
  | call {α : Type} (k : Call α) (underway : k.Underway)
  | poison (target : Option Link)
  | closing (link : Link)
  | gone

namespace User

def phase : User → Phase
  | acquire a => a.phase
  | call k _ => k.stage.phase
  | poison target => .poisoning target
  | closing link => .closing link
  | gone => .away

def cancel (c : Connection) : User → Connection
  | acquire a => a.cancel c
  | call k _ => k.cancel c
  | _ => c

inductive Comes : User → Prop
  | acquire : Comes (.acquire .entering)
  | call {α : Type} (retry : RetrySettings) (deadline : Option Nat) :
      Comes (.call (.start retry deadline : Call α) (Call.underway_start retry deadline))
  | poison (target : Option Link) : Comes (.poison target)

def unwanted (target : Option Link) (link : Link) : Bool := target.all (· == link)

def afterDiscard : Option Link → User
  | some link => closing link
  | none => gone

inductive Step (c : Connection) : User → Connection → User → Prop
  | acquire {a : Acquisition} (env : Env) (signal : Acquisition.Signal) :
      Step c (.acquire a) (a.step env c signal).1 (.acquire (a.step env c signal).2)
  | call {α : Type} {k : Call α} {h : k.Underway} (env : Env) (signal : Call.Signal α) :
      Step c (.call k h) (k.step env c signal).1
        (.call (k.step env c signal).2 (h.step env c signal))
  | poison {target : Option Link} :
      Step c (.poison target) (c.discard (unwanted target)).1
        (afterDiscard (c.discard (unwanted target)).2)
  | close {link : Link} : Step c (.closing link) c .gone
  | drop {u : User} : u.phase.waits → Step c u (u.cancel c) .gone

end User

/-- All that one step of a user does to the connection `c` and to its phase. -/
inductive Phase.Moved (c : Connection) : Phase → Connection → Phase → Prop
  | stay {p : Phase} : Moved c p c p
  | take : c = .idle → Moved c .entering .dialing .resolving
  | refuse {e : Error} : c = .dialing → e.kind = .resourceExhausted →
      Moved c .entering c (.failed none e)
  | reuse {link : Link} : c = .ready link → Moved c .entering c (.holding link)
  | dial {address : String} : Moved c .resolving c (.dialing address)
  | connect {address : String} {link : Link} :
      Moved c (.dialing address) (.ready link) (.holding link)
  | miss {p : Phase} {e : Error} : p.isDialing → Moved c p c.abandon (.failed none e)
  | abandon {p : Phase} : p.isDialing → Moved c p c.abandon .away
  | late {e : Error} : Moved c .entering c (.failed none e)
  | leave {p : Phase} : p.waits → p.isDialing = false → Moved c p c .away
  | fail {link : Link} {e : Error} : Moved c (.holding link) c (.failed (some link) e)
  | settle {used : Option Link} {e : Error} :
      (∀ link, c = .ready link → Call.brokenLink used e link = false) →
      Moved c (.failed used e) c .away
  | discard {link : Link} {e : Error} : c = .ready link → e.breaksConnection →
      Moved c (.failed (some link) e) .idle (.closing link)
  | poison {target : Option Link} {link : Link} : c = .ready link → User.unwanted target link →
      Moved c (.poisoning target) .idle (.closing link)
  | pass {target : Option Link} : Moved c (.poisoning target) c .away
  | close {link : Link} : Moved c (.closing link) c .away
  | again : Moved c .away c .entering

theorem Acquisition.step_moved (env : Env) (c : Connection) (a : Acquisition) (signal : Signal) :
    Phase.Moved c a.phase (a.step env c signal).1 (a.step env c signal).2.phase := by
  cases a with
  | entering =>
    cases signal with
    | proceed =>
      cases c with
      | idle => exact .take rfl
      | dialing => exact .refuse rfl rfl
      | ready link => exact .reuse rfl
    | _ => exact .stay
  | resolving =>
    cases signal with
    | resolved r =>
      cases r with
      | ok address => exact .dial
      | error e => exact .miss rfl
    | _ => exact .stay
  | dialing address expires =>
    cases signal with
    | dialed r =>
      cases r with
      | ok link => exact .connect
      | error e => exact .miss rfl
    | expired => exact .miss rfl
    | _ => exact .stay
  | finished r => cases r <;> exact .stay

theorem Acquisition.isDialing_phase (a : Acquisition) : a.phase.isDialing = a.isDialing := by
  cases a with
  | finished r => cases r <;> rfl
  | _ => rfl

namespace Call

variable {α : Type}

theorem cutOff_moved (c : Connection) {k : Call α} {a : Acquisition} (hk : k.Underway)
    (ha : k.stage = .acquiring a) (e : Error) :
    Phase.Moved c a.phase (a.cancel c) (.failed none e) := by
  cases a with
  | entering => exact .late
  | resolving => exact .miss rfl
  | dialing address expires => exact .miss rfl
  | finished r => exact absurd ha (hk r)

theorem settle_unused {k : Call α} {env : Env} {c : Connection} {e : Error}
    (hs : k.stage = .failed none e) :
    k.step env c .proceed = (c, k.retry env e) := by
  have hdiscard : c.discard (brokenLink none e) = (c, none) := by
    cases c <;> simp [Connection.discard, brokenLink]
  simp [step, hs, hdiscard]

theorem settle_moved (env : Env) (c : Connection) {k : Call α} {used : Option Link} {e : Error}
    (hk : k.stage = .failed used e) :
    Phase.Moved c (.failed used e) (k.step env c .proceed).1
      (k.step env c .proceed).2.stage.phase := by
  cases hd : c.discard (brokenLink used e) with
  | mk c' discarded =>
    cases discarded with
    | some link =>
      have hstep : k.step env c .proceed = (c', { k with stage := .closing link e }) := by
        simp [step, hk, hd]
      obtain ⟨hready, hbroken, hidle⟩ := Connection.discard_eq_some (congrArg Prod.snd hd)
      rw [hd] at hidle
      obtain rfl : c' = .idle := hidle
      obtain ⟨hbreaks, hused⟩ : e.breaksConnection ∧ used = some link := by
        simpa [brokenLink] using hbroken
      rw [hstep, hused]
      exact .discard hready hbreaks
    | none =>
      have hstep : k.step env c .proceed = (c', k.retry env e) := by simp [step, hk, hd]
      have hsame := Connection.discard_eq_none (congrArg Prod.snd hd)
      rw [hd] at hsame
      obtain rfl : c' = c := hsame
      rw [hstep]
      have hphase : (k.retry env e).stage.phase = .away := phase_retry env k e
      simp only [hphase]
      apply Phase.Moved.settle
      rintro link rfl
      cases hbroken : brokenLink used e link with
      | false => rfl
      | true => simp [Connection.discard, hbroken] at hd

theorem step_moved (env : Env) (c : Connection) {k : Call α} (hk : k.Underway) (signal : Signal α) :
    Phase.Moved c k.stage.phase (k.step env c signal).1 (k.step env c signal).2.stage.phase := by
  cases hs : k.stage with
  | acquiring a =>
    cases signal with
    | proceed =>
      have hstep : k.step env c .proceed = k.acquire env c a .proceed := by simp [step, hs]
      rw [hstep, acquire]
      simp only [phase_afterAcquisition]
      exact a.step_moved env c .proceed
    | connect signal =>
      have hstep : k.step env c (.connect signal) = k.acquire env c a signal := by simp [step, hs]
      rw [hstep, acquire]
      simp only [phase_afterAcquisition]
      exact a.step_moved env c signal
    | cutOff => simpa [step, hs, Stage.phase] using cutOff_moved c hk hs (timedOut env.cluster)
    | answered r => simpa [step, hs] using Phase.Moved.stay
  | operating link =>
    cases signal with
    | answered r =>
      cases r with
      | ok v => simpa [step, hs, Stage.phase] using Phase.Moved.leave rfl rfl
      | error e => simpa [step, hs, Stage.phase] using Phase.Moved.fail
    | cutOff => simpa [step, hs, Stage.phase] using Phase.Moved.fail
    | _ => simpa [step, hs] using Phase.Moved.stay
  | failed used e =>
    cases signal with
    | proceed => exact settle_moved env c hs
    | _ => simpa [step, hs] using Phase.Moved.stay
  | closing link e =>
    cases signal with
    | proceed =>
      have hstep : k.step env c .proceed = (c, k.retry env e) := by simp [step, hs]
      rw [hstep]
      simp only [phase_retry]
      exact .close
    | _ => simpa [step, hs] using Phase.Moved.stay
  | pausing resumes =>
    cases signal with
    | proceed => simpa [step, hs, Stage.phase, Acquisition.phase] using Phase.Moved.again
    | _ => simpa [step, hs] using Phase.Moved.stay
  | finished r =>
    have hstep : k.step env c signal = (c, k) := by simp [step, hs]
    rw [hstep, hs]
    exact .stay

end Call

namespace User

theorem cancel_eq (c : Connection) (u : User) :
    u.cancel c = if u.phase.isDialing then c.abandon else c := by
  cases u with
  | acquire a => simp [cancel, phase, Acquisition.cancel, Acquisition.isDialing_phase]
  | call k underway =>
    cases hs : k.stage with
    | acquiring a =>
      simp [cancel, phase, Call.cancel, hs, Call.Stage.phase, Acquisition.cancel,
        Acquisition.isDialing_phase]
    | _ => simp [cancel, phase, Call.cancel, hs, Call.Stage.phase, Phase.isDialing]
  | _ => rfl

theorem Step.moved {c c' : Connection} {u u' : User} (h : Step c u c' u') :
    Phase.Moved c u.phase c' u'.phase := by
  cases h with
  | acquire env signal => exact Acquisition.step_moved env c _ signal
  | @call _ _ underway env signal => exact Call.step_moved env c underway signal
  | @poison target =>
    cases hd : (c.discard (unwanted target)).2 with
    | some link =>
      obtain ⟨hready, hunwanted, hidle⟩ := Connection.discard_eq_some hd
      rw [hidle]
      exact .poison hready hunwanted
    | none =>
      rw [Connection.discard_eq_none hd]
      exact .pass
  | close => exact .close
  | drop hwaits =>
    rw [cancel_eq]
    cases hp : u.phase.isDialing with
    | true => exact .abandon hp
    | false => exact .leave hwaits hp

end User

end ModelRegistry
