import ModelRegistry.Proofs.Journal

namespace ModelRegistry

namespace Subscription

def Proper (s : Subscription) : Prop :=
  ∀ k, s.producer.stage = .calling k → k.Ongoing

def note (env : Env) (c : Connection) (s : Subscription) (signal : Call.Signal Response) :
    Option Note :=
  match s.producer.stage, signal with
  | .calling k, _ => Call.note s.producer.ask.asked c k.stage signal
  | .sending update next, .proceed =>
    if s.listening && s.hasRoom env.registry.watchChannelCapacity then some (.queued update next)
    else none
  | _, _ => none

def staged (s : Subscription) (stage : Producer.Stage) : Subscription :=
  { s with producer := { s.producer with stage } }

@[simp]
theorem staged_stage (s : Subscription) (stage : Producer.Stage) :
    (s.staged stage).producer.stage = stage := rfl

@[simp]
theorem staged_ask_asked (s : Subscription) (stage : Producer.Stage) :
    (s.staged stage).producer.ask.asked = s.producer.ask.asked := rfl

/-- All that one step of a producer can do, with what it meets with. -/
inductive Moved (s : Subscription) : Option Note → Subscription → Prop
  | stay : Moved s none s
  | connect {k k' : Call Response} {a a' : Acquisition} :
      s.producer.stage = .calling k → k.stage = .acquiring a →
      k'.Ongoing → k'.stage = .acquiring a' → Moved s none (s.staged (.calling k'))
  | miss {k k' : Call Response} {a : Acquisition} {n : Note} {e : Error} :
      s.producer.stage = .calling k → k.stage = .acquiring a →
      k'.Ongoing → k'.stage = .failed none e → n.Misses e →
      Moved s (some n) (s.staged (.calling k'))
  | ask {k k' : Call Response} {a : Acquisition} {link : Link} :
      s.producer.stage = .calling k → k.stage = .acquiring a →
      k'.Ongoing → k'.stage = .operating link →
      Moved s (some (.asked s.producer.ask.asked))
        ({ s with producer := s.producer.ask }.staged (.calling k'))
  | succeed {k : Call Response} {link : Link} {r : Response} :
      s.producer.stage = .calling k → k.stage = .operating link →
      Moved s (some (.answered (.ok r))) (s.staged (.sending (.batch r.batch) r.next))
  | fail {k k' : Call Response} {link : Link} {e : Error} :
      s.producer.stage = .calling k → k.stage = .operating link →
      k'.Ongoing → k'.stage = .failed (some link) e →
      Moved s (some (.answered (.error e))) (s.staged (.calling k'))
  | close {k k' : Call Response} {used : Option Link} {link : Link} {e : Error} :
      s.producer.stage = .calling k → k.stage = .failed used e →
      k'.Ongoing → k'.stage = .closing link e → Moved s none (s.staged (.calling k'))
  | retry {k k' : Call Response} {used : Option Link} {link : Link} {e : Error} {resumes : Nat} :
      s.producer.stage = .calling k → k.stage = .failed used e ∨ k.stage = .closing link e →
      e.isRetryable → k'.Ongoing → k'.stage = .pausing resumes →
      Moved s none (s.staged (.calling k'))
  | leave {k : Call Response} {used : Option Link} {link : Link} {e : Error} :
      s.producer.stage = .calling k → k.stage = .failed used e ∨ k.stage = .closing link e →
      e.isNotFound → Moved s none (s.staged (.sending (.gone e) s.producer.cursor))
  | reset {k : Call Response} {used : Option Link} {link : Link} {e : Error} {resumes : Nat} :
      s.producer.stage = .calling k → k.stage = .failed used e ∨ k.stage = .closing link e →
      e.isRetryable = false → e.isNotFound = false →
      Moved s none ({ s with producer := { s.producer with cursor := .empty } }.staged
        (.pausing resumes))
  | again {k k' : Call Response} {resumes : Nat} :
      s.producer.stage = .calling k → k.stage = .pausing resumes →
      k'.Ongoing → k'.stage = .acquiring .entering → Moved s none (s.staged (.calling k'))
  | resume {resumes : Nat} {retry : RetrySettings} :
      s.producer.stage = .pausing resumes →
      Moved s none { s with producer := s.producer.resume retry }
  | queue {update : Update} {next : Cursor} {retry : RetrySettings} :
      s.producer.stage = .sending update next → s.listening →
      Moved s (some (.queued update next)) (s.send retry update next)
  | stop {update : Update} {next : Cursor} :
      s.producer.stage = .sending update next → s.listening = false →
      Moved s none (s.staged .stopped)

theorem signal_of_note_answered {env : Env} {c : Connection} {s : Subscription}
    {signal : Call.Signal Response} {r : Except Error Response}
    (h : s.note env c signal = some (.answered r)) : signal = .answered r := by
  unfold note at h
  split at h
  · exact Call.signal_of_note_answered h
  · split at h <;> cases h
  · cases h

theorem produce_calling (env : Env) (c : Connection) {s : Subscription} {k : Call Response}
    (hs : s.producer.stage = .calling k) (signal : Call.Signal Response) :
    (s.produce env c signal).2 =
      { s with producer := s.producer.follow env k.stage (k.step env c signal).2 } := by
  simp [produce, hs]

theorem note_calling (env : Env) (c : Connection) {s : Subscription} {k : Call Response}
    (hs : s.producer.stage = .calling k) (signal : Call.Signal Response) :
    s.note env c signal = Call.note s.producer.ask.asked c k.stage signal := by
  simp [note, hs]

theorem staged_self {s : Subscription} {stage : Producer.Stage} (h : s.producer.stage = stage) :
    s.staged stage = s := by
  subst h
  rfl

theorem acquire_moved (env : Env) (c : Connection) {s : Subscription} {k : Call Response}
    {a : Acquisition} (hs : s.producer.stage = .calling k) (hk : k.stage = .acquiring a)
    (hd : k.deadline = none) (ha : a.isFinished = false) (signal : Acquisition.Signal) :
    s.Moved (a.note s.producer.ask.asked c signal)
      { s with producer := s.producer.follow env k.stage (k.acquire env c a signal).2 } := by
  rcases a.step_cases env c ha signal s.producer.ask.asked with
    ⟨hf, hn⟩ | ⟨link, hf, hn⟩ | ⟨n, e, hf, hn, hm⟩
  · have hstage : (k.acquire env c a signal).2.stage = .acquiring (a.step env c signal).2 := by
      cases hstep : (a.step env c signal).2 with
      | finished r => simp [hstep, Acquisition.isFinished] at hf
      | _ => simp [Call.acquire, hstep, Call.afterAcquisition]
    have hfollow : s.producer.follow env k.stage (k.acquire env c a signal).2 =
        { s.producer with stage := .calling (k.acquire env c a signal).2 } := by
      simp [Producer.follow, Producer.begins, hk, hstage]
    rw [hn, hfollow]
    exact .connect hs hk ⟨hd, by simpa [hstage] using hf⟩ hstage
  · have hstage : (k.acquire env c a signal).2.stage = .operating link := by
      simp [Call.acquire, hf, Call.afterAcquisition]
    have hfollow : s.producer.follow env k.stage (k.acquire env c a signal).2 =
        { s.producer.ask with stage := .calling (k.acquire env c a signal).2 } := by
      simp [Producer.follow, Producer.begins, hk, hstage]
    rw [hn, hfollow]
    exact .ask hs hk ⟨hd, by simp [hstage]⟩ hstage
  · have hstage : (k.acquire env c a signal).2.stage = .failed none e := by
      simp [Call.acquire, hf, Call.afterAcquisition]
    have hfollow : s.producer.follow env k.stage (k.acquire env c a signal).2 =
        { s.producer with stage := .calling (k.acquire env c a signal).2 } := by
      simp [Producer.follow, Producer.begins, hk, hstage]
    rw [hn, hfollow]
    exact .miss hs hk ⟨hd, by simp [hstage]⟩ hstage hm

theorem retry_moved (env : Env) {s : Subscription} {k : Call Response} (used : Option Link)
    (link : Link) {e : Error} (hs : s.producer.stage = .calling k)
    (hk : k.stage = .failed used e ∨ k.stage = .closing link e) (hd : k.deadline = none) :
    s.Moved none { s with producer := s.producer.follow env k.stage (k.retry env e) } := by
  have hb : ∀ after, Producer.begins k.stage after = false := by
    intro after
    rcases hk with hk | hk <;> rw [hk] <;> rfl
  by_cases hr : e.isRetryable
  · obtain ⟨k', resumes, he, hd', hstage⟩ := Call.retry_of_isRetryable env hd hr
    have hfollow : s.producer.follow env k.stage k' =
        { s.producer with stage := .calling k' } := by
      simp [Producer.follow, hb, hstage]
    rw [he, hfollow]
    exact .retry hs hk hr ⟨hd', by simp [hstage]⟩ hstage
  · have hr' : e.isRetryable = false := by simpa using hr
    rw [Call.retry_of_not_isRetryable env k hr']
    by_cases hn : e.isNotFound
    · simpa [Producer.follow, hb, Producer.conclude, hn, staged] using
        Moved.leave hs hk hn
    · have hn' : e.isNotFound = false := by simpa using hn
      have hm : s.Moved none ({ s with producer := { s.producer with cursor := .empty } }.staged
          (.pausing (env.now + env.registry.watchRetryDelay))) := .reset hs hk hr' hn'
      simpa [Producer.follow, hb, Producer.conclude, hn', staged] using hm

theorem call_moved (env : Env) (c : Connection) {s : Subscription} {k : Call Response}
    (hs : s.producer.stage = .calling k) (hk : k.Ongoing) (signal : Call.Signal Response)
    (hsig : signal ≠ .cutOff) :
    s.Moved (Call.note s.producer.ask.asked c k.stage signal)
      { s with producer := s.producer.follow env k.stage (k.step env c signal).2 } := by
  obtain ⟨hd, hstage⟩ := hk
  have hstay : (Call.note s.producer.ask.asked c k.stage signal = none ∧
      (k.step env c signal).2 = k) → (∀ r, k.stage ≠ .finished r) →
      s.Moved (Call.note s.producer.ask.asked c k.stage signal)
        { s with producer := s.producer.follow env k.stage (k.step env c signal).2 } := by
    rintro ⟨hn, hk⟩ hf
    have hfollow : s.producer.follow env k.stage k = { s.producer with stage := .calling k } := by
      cases hk : k.stage with
      | finished r => exact absurd hk (hf r)
      | _ => simp [Producer.follow, Producer.begins, hk]
    rw [hn, hk, hfollow]
    have hself := staged_self hs
    rw [staged] at hself
    rw [hself]
    exact .stay
  cases hk : k.stage with
  | acquiring a =>
    rw [hk] at hstage hstay
    cases signal with
    | proceed => simpa [Call.note, Call.step, hk] using acquire_moved env c hs hk hd hstage .proceed
    | connect signal =>
      simpa [Call.note, Call.step, hk] using acquire_moved env c hs hk hd hstage signal
    | answered r => exact hstay ⟨rfl, by simp [Call.step, hk]⟩ (by simp)
    | cutOff => exact absurd rfl hsig
  | operating link =>
    rw [hk] at hstay
    cases signal with
    | answered r =>
      cases r with
      | ok r =>
        simpa [Call.note, Call.step, hk, Producer.follow, Producer.begins, Producer.conclude,
          staged] using (Moved.succeed hs hk : s.Moved (some (.answered (.ok r))) _)
      | error e =>
        have hm : s.Moved (some (.answered (.error e)))
            (s.staged (.calling { k with stage := .failed (some link) e })) :=
          .fail hs hk ⟨hd, trivial⟩ rfl
        simpa [Call.note, Call.step, hk, Producer.follow, Producer.begins, staged] using hm
    | cutOff => exact absurd rfl hsig
    | _ => exact hstay ⟨rfl, by simp [Call.step, hk]⟩ (by simp)
  | failed used e =>
    rw [hk] at hstay
    cases signal with
    | proceed =>
      cases hdis : c.discard (Call.brokenLink used e) with
      | mk c' discarded =>
        cases discarded with
        | some link =>
          have hm : s.Moved none (s.staged (.calling { k with stage := .closing link e })) :=
            .close hs hk ⟨hd, trivial⟩ rfl
          simpa [Call.note, Call.step, hk, hdis, Producer.follow, Producer.begins, staged] using hm
        | none =>
          have hm := retry_moved env used 0 hs (.inl hk) hd
          simpa [Call.note, Call.step, hk, hdis] using hm
    | cutOff => exact absurd rfl hsig
    | _ => exact hstay ⟨rfl, by simp [Call.step, hk]⟩ (by simp)
  | closing link e =>
    rw [hk] at hstay
    cases signal with
    | proceed =>
      have hm := retry_moved env none link hs (.inr hk) hd
      simpa [Call.note, Call.step, hk] using hm
    | cutOff => exact absurd rfl hsig
    | _ => exact hstay ⟨rfl, by simp [Call.step, hk]⟩ (by simp)
  | pausing resumes =>
    rw [hk] at hstay
    cases signal with
    | proceed =>
      have hm : s.Moved none (s.staged (.calling { k with stage := .acquiring .entering })) :=
        .again hs hk ⟨hd, rfl⟩ rfl
      simpa [Call.note, Call.step, hk, Producer.follow, Producer.begins, staged] using hm
    | cutOff => exact absurd rfl hsig
    | _ => exact hstay ⟨rfl, by simp [Call.step, hk]⟩ (by simp)
  | finished r => simp [hk] at hstage

theorem produce_moved (env : Env) (c : Connection) {s : Subscription} (hs : s.Proper)
    {signal : Call.Signal Response} (hsig : signal ≠ .cutOff) :
    s.Moved (s.note env c signal) (s.produce env c signal).2 := by
  cases hp : s.producer.stage with
  | calling k =>
    rw [produce_calling env c hp, note_calling env c hp]
    exact call_moved env c hp (hs k hp) signal hsig
  | sending update next =>
    cases signal with
    | proceed =>
      cases hl : s.listening with
      | false =>
        have hsend : s.send env.retry update next = s.staged .stopped := by simp [send, hl, staged]
        simpa [produce, note, hp, hl, hsend] using Moved.stop hp hl
      | true =>
        cases hr : s.hasRoom env.registry.watchChannelCapacity with
        | false => simpa [produce, note, hp, hl, hr] using Moved.stay
        | true =>
          have hm : s.Moved (some (.queued update next)) (s.send env.retry update next) :=
            .queue hp hl
          simpa [produce, note, hp, hl, hr] using hm
    | _ => simpa [produce, note, hp] using Moved.stay
  | pausing resumes =>
    cases signal with
    | proceed =>
      have hm : s.Moved none { s with producer := s.producer.resume env.retry } := .resume hp
      simpa [produce, note, hp] using hm
    | _ => simpa [produce, note, hp] using Moved.stay
  | stopped => simpa [produce, note, hp] using Moved.stay

theorem Moved.queue_cases {s s' : Subscription} {n : Option Note} (h : s.Moved n s') :
    s'.queue = s.queue ∨ ∃ u, s'.queue = s.queue ++ [u] := by
  cases h with
  | @queue update next retry hp hl => exact .inr ⟨update, by simp [send, hl]⟩
  | _ => exact .inl rfl

theorem proper_start (retry : RetrySettings) (model : ModelId) : (start retry model).Proper := by
  intro k hk
  cases hk
  exact Call.ongoing_start retry

theorem Moved.proper {s s' : Subscription} {n : Option Note} (h : s.Moved n s') (hs : s.Proper) :
    s'.Proper := by
  cases h with
  | stay => exact hs
  | connect hp hk ho hk' => intro k h; cases h; exact ho
  | miss hp hk ho hk' => intro k h; cases h; exact ho
  | ask hp hk ho hk' => intro k h; cases h; exact ho
  | succeed => intro k h; cases h
  | fail hp hk ho hk' => intro k h; cases h; exact ho
  | close hp hk ho hk' => intro k h; cases h; exact ho
  | retry hp hk hr ho hk' => intro k h; cases h; exact ho
  | leave => intro k h; cases h
  | reset => intro k h; cases h
  | again hp hk ho hk' => intro k h; cases h; exact ho
  | resume => intro k h; cases h; exact Call.ongoing_start _
  | @queue update next retry hp hl =>
    intro k h
    cases update with
    | batch b =>
      simp only [send, hl, ↓reduceIte, Producer.resume] at h
      cases h
      exact Call.ongoing_start retry
    | gone e => simp [send, hl] at h
  | stop => intro k h; cases h

theorem consume_cases {s s' : Subscription} {u : Update} (h : s.consume = some (u, s')) :
    s.listening ∧
      ((∃ b rest, u = .batch b ∧ s.queue = .batch b :: rest ∧
          s' = { s with replica := s.replica.apply b, queue := rest }) ∨
        ∃ e rest, u = .gone e ∧ s.queue = .gone e :: rest ∧
          s' = { s with queue := rest, listening := false }) := by
  unfold consume at h
  split at h
  · rename_i hl
    refine ⟨hl, ?_⟩
    split at h
    · cases h
    · rename_i b rest hq
      cases h
      exact .inl ⟨b, rest, rfl, hq, rfl⟩
    · rename_i e rest hq
      cases h
      exact .inr ⟨e, rest, rfl, hq, rfl⟩
  · cases h

theorem consume_producer {s s' : Subscription} {u : Update} (h : s.consume = some (u, s')) :
    s'.producer = s.producer ∧ s'.replica.model = s.replica.model := by
  obtain ⟨_, ⟨b, rest, _, _, rfl⟩ | ⟨e, rest, _, _, rfl⟩⟩ := consume_cases h <;> exact ⟨rfl, rfl⟩

end Subscription

end ModelRegistry
