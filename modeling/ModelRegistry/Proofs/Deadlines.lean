import Mathlib.Data.Finset.Max
import ModelRegistry.Proofs.Attempts
import ModelRegistry.Proofs.SingleFlight

/-!
A call with a deadline, as one of the users of a shared connection. If no pause is empty, it returns
no later than at its deadline, whoever answers and whatever the others do, and the number of its
attempts is bounded by the time that it has. A dial that the deadline interrupts leaves the
connection idle.
-/

namespace ModelRegistry

open Simulation (Wait Heard Cause)

namespace Simulation.Wait

structure EndsUnanswered (now t : Nat) (w : Wait) : Prop where
  le : now ≤ t
  lasts : now < t → w.Lasts t
  ends : w.Ends t .proceed ∨ ∃ cause, w.Ends t (.limit cause)

theorem endsUnanswered_reply (q : Query) {limits : List (Cause × Nat)} (hne : limits ≠ [])
    (now : Nat) : ∃ t, (reply q limits).EndsUnanswered now t := by
  obtain ⟨⟨cause, due⟩, hmem, hfirst⟩ :=
    limits.toFinset.exists_min_image Prod.snd (List.toFinset_nonempty_iff limits |>.2 hne)
  refine ⟨max now due, Nat.le_max_left .., ?_, .inr ⟨cause, due, Nat.le_max_right .., ?_⟩⟩
  · intro hlt l hl
    have hle : due ≤ l.2 := hfirst l (List.mem_toFinset.2 hl)
    omega
  · exact List.mem_toFinset.1 hmem

theorem endsUnanswered_clock (due now : Nat) : ∃ t, (clock due).EndsUnanswered now t := by
  refine ⟨max now due, Nat.le_max_left .., ?_, .inl (Nat.le_max_right ..)⟩
  intro hlt
  have hle : max now due ≤ due := by omega
  exact hle

theorem endsUnanswered_now {now : Nat} {w : Wait} (h : w.Ends now .proceed) :
    w.EndsUnanswered now now :=
  ⟨Nat.le_refl now, fun hlt => absurd hlt (Nat.lt_irrefl now), .inl h⟩

end Simulation.Wait

namespace Call

variable {α : Type} {k : Call α} {now d : Nat}

@[simp]
def Stage.rank : Stage α → Nat
  | acquiring .entering => 0
  | acquiring .resolving => 1
  | acquiring _ => 2
  | operating _ => 3
  | failed _ _ => 4
  | closing _ _ => 5
  | pausing _ => 6
  | finished _ => 7

theorem Stage.rank_le (stage : Stage α) : stage.rank ≤ 7 := by
  cases stage with
  | acquiring a => cases a <;> simp
  | _ => simp

theorem rank_retry (env : Env) (k : Call α) (e : Error) : 6 ≤ (k.retry env e).stage.rank := by
  obtain ⟨resumes, h⟩ | ⟨r, h⟩ := k.stage_retry env e <;> simp [h]

theorem Hears.goesOn {signal : Signal α} (h : Hears now k.deadline k.stage signal) (env : Env)
    (c : Connection) : k.stage.rank < (k.step env c signal).2.stage.rank ∨
      (∃ resumes ≤ now, k.stage = .pausing resumes) ∧
        (k.step env c signal).2.stage = .acquiring .entering := by
  obtain ⟨deadline, backoff, stage⟩ := k
  cases h with
  | enter =>
    apply Or.inl
    cases c <;> simp [step, acquire, Acquisition.step, Connection.enter, afterAcquisition]
  | resolved r =>
    apply Or.inl
    cases r <;> simp [step, acquire, Acquisition.step, afterAcquisition]
  | dialed r =>
    apply Or.inl
    cases r <;> simp [step, acquire, Acquisition.step, afterAcquisition]
  | expired => exact .inl (by simp [step, acquire, Acquisition.step, afterAcquisition])
  | @undialed a =>
    apply Or.inl
    cases a <;> simp [step]
  | answered r =>
    apply Or.inl
    cases r <;> simp [step]
  | unanswered => exact .inl (by simp [step])
  | @settle used e =>
    apply Or.inl
    unfold step
    simp only
    split
    next => simp
    next => exact Nat.lt_of_lt_of_le (by simp) (rank_retry env _ e)
  | @close link e => exact .inl (rank_retry env _ e)
  | again hr => exact .inr ⟨⟨_, hr, rfl⟩, rfl⟩

theorem Hears.pausing_of_entering {signal : Signal α} (h : Hears now k.deadline k.stage signal)
    {env : Env} {c : Connection} (hfirst : (k.step env c signal).2.stage = .acquiring .entering) :
    ∃ resumes ≤ now, k.stage = .pausing resumes := by
  obtain hlt | ⟨hpausing, -⟩ := h.goesOn env c
  · rw [hfirst] at hlt
    exact absurd hlt (Nat.not_lt_zero _)
  · exact hpausing

theorem Hears.unfinished {signal : Signal α} (h : Hears now k.deadline k.stage signal)
    (r : Except Error α) : k.stage ≠ .finished r := by
  intro hr
  rw [hr] at h
  cases h

theorem lasts_cases {cluster : ClusterId} {operation : Link → Query} {t : Nat}
    (hk : k.Underway) (h : (Wait.ofCall cluster operation k).Lasts t) :
    (∃ r, k.stage = .finished r) ∨ (∃ resumes, k.stage = .pausing resumes ∧ t ≤ resumes) ∨
      ∀ d, k.deadline = some d → t ≤ d := by
  obtain ⟨deadline, backoff, stage⟩ := k
  cases stage with
  | acquiring a =>
    refine .inr (.inr fun d hd => ?_)
    cases a with
    | entering => cases h
    | resolving => exact Wait.le_of_lasts_deadline h hd
    | dialing address expires =>
      exact Wait.le_of_lasts_deadline (fun l hl => h l (List.mem_cons_of_mem _ hl)) hd
    | finished r => exact absurd rfl (hk r)
  | operating link => exact .inr (.inr fun d hd => Wait.le_of_lasts_deadline h hd)
  | failed | closing => cases h
  | pausing resumes => exact .inr (.inl ⟨resumes, rfl, h⟩)
  | finished r => exact .inl ⟨r, rfl⟩

theorem retry_of_due {env : Env} (hd : k.deadline = some d) (hdue : d ≤ env.now) (e : Error) :
    ∃ r, (k.retry env e).stage = .finished r := by
  unfold retry
  split
  · have hlate : leavesNoTime k.deadline env.now (k.backoff.pause env.draw) := by
      rw [hd]
      simp [leavesNoTime]
      omega
    simp only [hlate, if_true]
    exact ⟨_, rfl⟩
  · exact ⟨_, rfl⟩

theorem endsUnanswered {cluster : ClusterId} {operation : Link → Query} (hk : k.Underway)
    (hne : ∀ r, k.stage ≠ .finished r) (hd : k.deadline = some d) (now : Nat) :
    ∃ t, (Wait.ofCall cluster operation k).EndsUnanswered now t := by
  obtain ⟨deadline, backoff, stage⟩ := k
  obtain rfl : deadline = some d := hd
  cases stage with
  | acquiring a =>
    cases a with
    | entering => exact ⟨now, Wait.endsUnanswered_now trivial⟩
    | resolving => exact Wait.endsUnanswered_reply _ (List.cons_ne_nil _ _) now
    | dialing address expires => exact Wait.endsUnanswered_reply _ (List.cons_ne_nil _ _) now
    | finished r => exact absurd rfl (hk r)
  | operating link => exact Wait.endsUnanswered_reply _ (List.cons_ne_nil _ _) now
  | failed | closing => exact ⟨now, Wait.endsUnanswered_now trivial⟩
  | pausing resumes => exact Wait.endsUnanswered_clock resumes now
  | finished r => exact absurd rfl (hne r)

theorem step_limit {cluster : ClusterId} {op : Operation α} {a : Acquisition} {cause : Cause}
    (hs : k.stage = .acquiring a) (ha : a.isDialing)
    (h : (Wait.ofCall cluster op.query k).Ends now (.limit cause)) (env : Env) :
    ∃ e, k.step env .dialing ((Heard.limit cause).signal op.answer) =
      (.idle, { k with stage := .failed none e }) := by
  have hears := hears_of_ends h
  obtain ⟨deadline, backoff, stage⟩ := k
  obtain rfl : stage = .acquiring a := hs
  cases cause with
  | deadline =>
    refine ⟨timedOut env.cluster, ?_⟩
    simp [step, Heard.signal, Acquisition.cancel, ha, Connection.abandon]
  | _ =>
    cases hears with
    | expired => exact ⟨_, rfl⟩

end Call

namespace Attempt

variable {α : Type} (a : Attempt α)

theorem began_note (now : Nat) (before : Call.Stage α) (signal : Call.Signal α)
    (after : Call.Stage α) : (a.note now before signal after).began = a.began := by
  unfold note
  split <;> rfl

theorem ended_note (now : Nat) (before : Call.Stage α) (signal : Call.Signal α)
    (after : Call.Stage α) : (a.note now before signal after).ended = a.ended ∨
      ∃ r, (a.note now before signal after).ended = some (now, r) := by
  unfold note
  split <;> simp

end Attempt

namespace Execution

variable {α : Type} {cluster : ClusterId} {retry : RetrySettings} {deadline : Option Nat}
  {began d : Nat} {x : Execution α}

theorem record_cases (x : Execution α) (signal : Call.Signal α) (k : Call α) :
    (k.stage = .acquiring .entering ∧ x.record signal k =
        { x with call := k, attempt := .start x.now, earlier := x.attempt :: x.earlier }) ∨
      k.stage ≠ .acquiring .entering ∧ x.record signal k =
        { x with call := k, attempt := x.attempt.note x.now x.call.stage signal k.stage } := by
  unfold record
  split
  next h => exact .inl ⟨h, rfl⟩
  next h => exact .inr ⟨h, rfl⟩

theorem call_step (x : Execution α) (env : Env) (c : Connection) (signal : Call.Signal α) :
    (x.step env c signal).call = (x.call.step env c signal).2 := by
  unfold step
  obtain ⟨-, h⟩ | ⟨-, h⟩ := x.record_cases signal (x.call.step env c signal).2 <;> rw [h]

theorem now_step (x : Execution α) (env : Env) (c : Connection) (signal : Call.Signal α) :
    (x.step env c signal).now = x.now := by
  unfold step
  obtain ⟨-, h⟩ | ⟨-, h⟩ := x.record_cases signal (x.call.step env c signal).2 <;> rw [h]

def progress (x : Execution α) : Nat := 7 * x.earlier.length + x.call.stage.rank

theorem progress_lt_step {signal : Call.Signal α}
    (hears : Call.Hears x.now x.call.deadline x.call.stage signal) (env : Env) (c : Connection) :
    x.progress < (x.step env c signal).progress := by
  unfold step progress
  obtain ⟨hfirst, h⟩ | ⟨hne, h⟩ := x.record_cases signal (x.call.step env c signal).2
  · obtain ⟨resumes, -, hpausing⟩ := hears.pausing_of_entering hfirst
    rw [h, hpausing, hfirst]
    simp only [List.length_cons, Call.Stage.rank]
    omega
  · obtain hlt | ⟨-, hfirst⟩ := hears.goesOn env c
    · rw [h]
      exact Nat.add_lt_add_left hlt _
    · exact absurd hfirst hne

structure Paced (began d : Nat) (x : Execution α) : Prop where
  underway : x.call.Underway
  inTime : (∃ r, x.call.stage = .finished r) ∨ x.now ≤ d
  spaced : began + x.earlier.length ≤ x.attempt.began
  begun : x.attempt.began ≤ x.now
  ended : ∀ t r, x.attempt.ended = some (t, r) → x.attempt.began ≤ t ∧ t ≤ d

theorem Paced.start (hle : began ≤ d) :
    Paced began d (⟨began, .start retry deadline, .start began, []⟩ : Execution α) :=
  ⟨Call.underway_start retry deadline, .inr hle, Nat.le_refl began, Nat.le_refl began, nofun⟩

theorem Paced.le (h : Paced began d x) : began ≤ x.now := by
  have hspaced := h.spaced
  have hbegun := h.begun
  omega

theorem resumes_lt {resumes : Nat} (h : x.Kept cluster retry (some d) began)
    (hs : x.call.stage = .pausing resumes) : x.now ≤ resumes ∧ resumes < d ∧
      ∃ t r draw, x.attempt.ended = some (t, r) ∧
        resumes = t + (Backoff.after retry x.earlier.length).pause draw := by
  have hat := h.at_stage
  rw [hs] at hat
  cases hat with
  | pausing hb hmend hresumes hle =>
    obtain ⟨⟨e, hcomplete, -⟩, htime⟩ := hmend
    have hlt := htime d rfl
    exact ⟨hle, by omega, _, _, _, hcomplete.ended, hresumes⟩

theorem Paced.pass {op : Operation α} {t : Nat} (h : x.Paced began d)
    (hkept : x.Kept cluster retry (some d) began) (hle : x.now ≤ t)
    (hlasts : (Wait.ofCall cluster op.query x.call).Lasts t) :
    { x with now := t }.Paced began d := by
  refine ⟨h.underway, ?_, h.spaced, Nat.le_trans h.begun hle, h.ended⟩
  obtain hfinished | ⟨resumes, hs, hresumes⟩ | hd := Call.lasts_cases h.underway hlasts
  · exact .inl hfinished
  · obtain ⟨-, hlt, -⟩ := resumes_lt hkept hs
    exact .inr (Nat.le_trans hresumes (Nat.le_of_lt hlt))
  · exact .inr (hd d hkept.limited)

theorem Paced.hear {signal : Call.Signal α} (h : x.Paced began d)
    (hkept : x.Kept cluster retry (some d) began)
    (hpos : ∀ n draw, 1 ≤ (Backoff.after retry n).pause draw)
    (hears : Call.Hears x.now x.call.deadline x.call.stage signal) (env : Env) (c : Connection) :
    (x.step env c signal).Paced began d := by
  have hnow : x.now ≤ d := h.inTime.resolve_left fun ⟨r, hr⟩ => hears.unfinished r hr
  have hunderway := h.underway.step env c signal
  unfold step
  obtain ⟨hfirst, he⟩ | ⟨-, he⟩ := x.record_cases signal (x.call.step env c signal).2
  · obtain ⟨resumes, hresumes, hs⟩ := hears.pausing_of_entering hfirst
    obtain ⟨hle, -, t, r, draw, hended, hsum⟩ := resumes_lt hkept hs
    have hbegan := (h.ended t r hended).1
    have hpause := hpos x.earlier.length draw
    have hspaced := h.spaced
    rw [he]
    refine ⟨hunderway, .inr hnow, ?_, Nat.le_refl x.now, nofun⟩
    simp only [Attempt.start, List.length_cons]
    omega
  · rw [he]
    refine ⟨hunderway, .inr hnow, ?_, ?_, ?_⟩
    · simpa only [Attempt.began_note] using h.spaced
    · simpa only [Attempt.began_note] using h.begun
    · intro t r hended
      rw [Attempt.began_note]
      obtain hsame | ⟨r', hnew⟩ := x.attempt.ended_note x.now x.call.stage signal
        (x.call.step env c signal).2.stage
      · exact h.ended t r (hsame.symm.trans hended)
      · obtain ⟨rfl, -⟩ := Prod.mk.inj (Option.some.inj (hnew.symm.trans hended))
        exact ⟨h.begun, hnow⟩

theorem Reachable.paced (h : x.Reachable cluster retry (some d) began) (hle : began ≤ d)
    (hpos : ∀ n draw, 1 ≤ (Backoff.after retry n).pause draw) : x.Paced began d := by
  induction h with
  | start => exact .start hle
  | pass op t hr hpassed hlasts ih => exact ih.pass hr.kept hpassed hlasts
  | hear op env c heard hr _ _ hends ih =>
    exact ih.hear hr.kept hpos (Call.hears_of_ends hends) env c

/-- Whatever is answered, and whatever state the connection is in, the call goes on until it
returns, no later than at the time `d`; and it goes on although nobody answers. -/
inductive Returns (cluster : ClusterId) (op : Operation α) (d : Nat) : Execution α → Prop
  | finished {x : Execution α} (r : Except Error α) : x.call.stage = .finished r → x.now ≤ d →
      Returns cluster op d x
  | goesOn {x : Execution α} :
      (∃ t, (Wait.ofCall cluster op.query x.call).EndsUnanswered x.now t) →
      (∀ t, x.now < t → (Wait.ofCall cluster op.query x.call).Lasts t →
        Returns cluster op d { x with now := t }) →
      (∀ (env : Env) (c : Connection) (heard : Heard), env.cluster = cluster → env.now = x.now →
        (Wait.ofCall cluster op.query x.call).Ends x.now heard →
          Returns cluster op d (x.step env c (heard.signal op.answer))) → Returns cluster op d x

theorem length_le (h : x.Kept cluster retry (some d) began) (hpaced : x.Paced began d) :
    x.earlier.length + 1 ≤ max 1 (d - began) := by
  obtain ⟨-, hchained, -⟩ := h
  have hspaced := hpaced.spaced
  cases he : x.earlier with
  | nil => exact Nat.le_max_left ..
  | cons a earlier =>
    rw [he] at hchained hspaced
    obtain ⟨⟨t, draw, hmend, hbegan⟩, -⟩ := hchained
    have hlt := hmend.inTime d rfl
    simp only [List.length_cons] at hspaced ⊢
    omega

theorem progress_le (h : x.Kept cluster retry (some d) began) (hpaced : x.Paced began d) :
    x.progress ≤ 7 * max 1 (d - began) := by
  have hlength := length_le h hpaced
  have hrank := x.call.stage.rank_le
  unfold progress
  omega

theorem Reachable.returns (h : x.Reachable cluster retry (some d) began) (hle : began ≤ d)
    (hpos : ∀ n draw, 1 ≤ (Backoff.after retry n).pause draw) (hnow : x.now ≤ d)
    (op : Operation α) : x.Returns cluster op d := by
  -- while time passes the call comes closer to its deadline, with a step closer to its last stage
  generalize hm : d - x.now + (7 * max 1 (d - began) - x.progress) = m
  induction m using Nat.strong_induction_on generalizing x with
  | _ m ih =>
    have hpaced := h.paced hle hpos
    by_cases hfinished : ∃ r, x.call.stage = .finished r
    · obtain ⟨r, hr⟩ := hfinished
      exact .finished r hr hnow
    · have hne : ∀ r, x.call.stage ≠ .finished r := fun r hr => hfinished ⟨r, hr⟩
      refine .goesOn (Call.endsUnanswered hpaced.underway hne h.kept.limited x.now) ?_ ?_
      · intro t hlt hlasts
        have hr := h.pass op t (Nat.le_of_lt hlt) hlasts
        have ht : t ≤ d := (hr.paced hle hpos).inTime.resolve_left hfinished
        refine ih _ ?_ hr ht rfl
        have hsame : { x with now := t }.progress = x.progress := rfl
        simp only [hsame]
        omega
      · intro env c heard hcluster henv hends
        have hr := h.hear op env c heard hcluster henv hends
        have hmore := progress_lt_step (Call.hears_of_ends hends) env c
        have hbound := progress_le hr.kept (hr.paced hle hpos)
        have hsame := x.now_step env c (heard.signal op.answer)
        refine ih _ ?_ hr (by omega) rfl
        omega

def heardBy (x : Execution α) (i : Nat) (w : Shared) (underway : x.call.Underway) (env : Env)
    (signal : Call.Signal α) : Shared where
  connection := (x.call.step env w.connection signal).1
  users := w.users.set i
    (.call (x.call.step env w.connection signal).2 (underway.step env w.connection signal))
  history := x.call.stage.phase.news i (x.call.step env w.connection signal).2.stage.phase ++
    w.history

inductive Amid (cluster : ClusterId) (retry : RetrySettings) (deadline : Option Nat)
    (began i : Nat) : Execution α → Shared → Prop
  | start {w : Shared} : w.Reachable User.Comes anyLink → w.users.length = i →
      Amid cluster retry deadline began i ⟨began, .start retry deadline, .start began, []⟩
        (w.join (.call (.start retry deadline : Call α) (Call.underway_start retry deadline)))
  | join {x : Execution α} {w : Shared} {u : User} : Amid cluster retry deadline began i x w →
      u.Comes → Amid cluster retry deadline began i x (w.join u)
  | others {x : Execution α} {w w' : Shared} {j : Nat} {events : List Event} :
      Amid cluster retry deadline began i x w → j ≠ i → w.Step anyLink j events w' →
      Amid cluster retry deadline began i x w'
  | pass {x : Execution α} {w : Shared} (op : Operation α) (t : Nat) :
      Amid cluster retry deadline began i x w → x.now ≤ t →
      (Wait.ofCall cluster op.query x.call).Lasts t →
      Amid cluster retry deadline began i { x with now := t } w
  | hear {x : Execution α} {w : Shared} (op : Operation α) (env : Env) (heard : Heard)
      (underway : x.call.Underway) : Amid cluster retry deadline began i x w →
      env.cluster = cluster → env.now = x.now →
      (Wait.ofCall cluster op.query x.call).Ends x.now heard →
      Amid cluster retry deadline began i (x.step env w.connection (heard.signal op.answer))
        (x.heardBy i w underway env (heard.signal op.answer))

variable {i b : Nat} {w : Shared}

theorem Amid.reachable (h : Amid cluster retry deadline began i x w) :
    x.Reachable cluster retry deadline began := by
  induction h with
  | start => exact .start
  | join _ _ ih => exact ih
  | others _ _ _ ih => exact ih
  | pass op t _ hle hlasts ih => exact ih.pass op t hle hlasts
  | hear op env heard _ _ hcluster hnow hends ih => exact ih.hear op env _ heard hcluster hnow hends

theorem Amid.user (h : Amid cluster retry deadline began i x w) :
    ∃ underway, w.users[i]? = some (.call x.call underway) := by
  induction h with
  | @start w _ hi =>
    refine ⟨Call.underway_start retry deadline, ?_⟩
    rw [← hi]
    exact List.getElem?_concat_length
  | join _ _ ih =>
    obtain ⟨underway, hu⟩ := ih
    have hlt := (List.getElem?_eq_some_iff.1 hu).1
    exact ⟨underway, (List.getElem?_append_left hlt).trans hu⟩
  | others _ hne hs ih =>
    obtain ⟨underway, hu⟩ := ih
    cases hs with
    | move => exact ⟨underway, (List.getElem?_set_ne hne).trans hu⟩
  | pass _ _ _ _ _ ih => exact ih
  | @hear x w op env heard underway _ _ _ _ ih =>
    obtain ⟨_, hu⟩ := ih
    have hlt := (List.getElem?_eq_some_iff.1 hu).1
    rw [call_step]
    exact ⟨_, List.getElem?_set_self hlt⟩

theorem Amid.shared (h : Amid cluster retry deadline began i x w) :
    w.Reachable User.Comes anyLink := by
  induction h with
  | start hw => exact hw.join (.call retry deadline)
  | join _ hu ih => exact ih.join hu
  | others _ _ hs ih => exact ih.step hs
  | pass _ _ _ _ _ ih => exact ih
  | hear op env heard underway hx _ _ _ ih =>
    obtain ⟨_, hu⟩ := hx.user
    exact ih.move i hu (.call env _) fun _ _ => trivial

structure Bounded (cluster : ClusterId) (began b : Nat) (x : Execution α) (w : Shared) : Prop where
  inTime : (∃ r, x.call.stage = .finished r) ∨ x.now ≤ began + b
  ended : ∀ r, x.call.stage = .finished r →
    ∃ t, x.attempt.ended = some (t, r) ∧ began ≤ t ∧ t ≤ began + b
  returns : x.now ≤ began + b → ∀ op : Operation α, x.Returns cluster op (began + b)
  begins : ∀ n a, x.attempts[n + 1]? = some a → a.began < began + b
  few : x.attempts.length ≤ max 1 b
  frees : ∀ (op : Operation α) (a : Acquisition) (cause : Cause) (env : Env),
    x.call.stage = .acquiring a → a.isDialing → began + b ≤ x.now →
    (Wait.ofCall cluster op.query x.call).Ends x.now (.limit cause) →
      w.connection = .dialing ∧
      ∃ k, x.call.step env w.connection ((Heard.limit cause).signal op.answer) = (.idle, k) ∧
        ∀ (env' : Env) (c : Connection), env'.now = x.now → ∃ k' r,
          k.step env' c .proceed = (c, k') ∧ k'.stage = .finished r

theorem Amid.bounded (h : Amid cluster retry (some (began + b)) began i x w)
    (hpos : ∀ n draw, 1 ≤ (Backoff.after retry n).pause draw) : Bounded cluster began b x w := by
  have hr := h.reachable
  have hle : began ≤ began + b := Nat.le_add_right ..
  have hpaced := hr.paced hle hpos
  constructor
  · exact hpaced.inTime
  · intro r hfinished
    have hat := hr.kept.at_stage
    rw [hfinished] at hat
    cases hat with
    | @finished t _ hcomplete _ =>
      obtain ⟨hbegun, hended⟩ := hpaced.ended t r hcomplete.ended
      have hspaced := hpaced.spaced
      exact ⟨t, hcomplete.ended, by omega, hended⟩
  · intro hnow op
    exact hr.returns hle hpos hnow op
  · intro n a ha
    obtain ⟨a', ha'⟩ : ∃ a', x.attempts[n]? = some a' := by
      have hlt := (List.getElem?_eq_some_iff.1 ha).1
      exact ⟨_, List.getElem?_eq_getElem (by omega)⟩
    obtain ⟨t, draw, hmend, hbegan⟩ := hr.kept.chained.leadsTo ha' ha
    have hlt := hmend.inTime _ rfl
    omega
  · have hlength := length_le hr.kept hpaced
    simpa [attempts] using hlength
  · intro op a cause env hs ha hdue hends
    obtain ⟨underway, hu⟩ := h.user
    have hc : w.connection = .dialing := by
      apply h.shared.guarded.dialing (i := i)
      refine ⟨x.call.stage.phase, by simp [Shared.phases, hu, User.phase], ?_⟩
      rw [hs]
      exact (Acquisition.isDialing_phase a).trans ha
    obtain ⟨e, hstep⟩ := Call.step_limit hs ha hends env
    refine ⟨hc, _, by rw [hc, hstep], ?_⟩
    intro env' c hnow
    let k : Call α := { x.call with stage := .failed none e }
    have hlimited : k.deadline = some (began + b) := hr.kept.limited
    obtain ⟨r, hfinished⟩ := k.retry_of_due hlimited (show began + b ≤ env'.now by omega) e
    exact ⟨_, r, Call.settle_unused rfl, hfinished⟩

end Execution

end ModelRegistry
