import ModelRegistry.Proofs.Watching

namespace ModelRegistry

def resumption : List Note → Cursor
  | [] => .empty
  | .answered (.ok r) :: _ => r.next
  | n :: J => if n.forgets then .empty else resumption J

def sinceAnswer (J : List Note) : List Note := J.takeWhile (fun n => !n.isSuccess)

theorem resumption_cons {n : Note} (hn : n.isSuccess = false) (J : List Note) :
    resumption (n :: J) = if n.forgets then .empty else resumption J := by
  cases n with
  | answered r =>
    cases r with
    | ok r => cases hn
    | error e => rfl
  | _ => rfl

theorem lastAnswer_cons {n : Note} (hn : n.isSuccess = false) (J : List Note) :
    lastAnswer (n :: J) = lastAnswer J := by
  cases n with
  | answered r =>
    cases r with
    | ok r => cases hn
    | error e => rfl
  | _ => rfl

theorem resumption_eq_empty_iff (J : List Note) :
    resumption J = .empty ↔
      (∃ n ∈ sinceAnswer J, n.forgets) ∨ ∀ r, lastAnswer J = some r → r.next = .empty := by
  induction J with
  | nil => simp [resumption, lastAnswer]
  | cons n J ih =>
    cases hn : n.isSuccess with
    | true =>
      cases n with
      | answered r =>
        cases r with
        | ok r => simp [resumption, sinceAnswer, lastAnswer, Note.isSuccess]
        | error e => cases hn
      | _ => cases hn
    | false =>
      have hsince : sinceAnswer (n :: J) = n :: sinceAnswer J := by simp [sinceAnswer, hn]
      rw [resumption_cons hn, lastAnswer_cons hn, hsince]
      cases hf : n.forgets with
      | true => simp [hf]
      | false => simpa [hf] using ih

theorem resumption_eq_next {J : List Note} (h : resumption J ≠ .empty) :
    ∃ r, lastAnswer J = some r ∧ resumption J = r.next := by
  induction J with
  | nil => exact absurd rfl h
  | cons n J ih =>
    cases hn : n.isSuccess with
    | true =>
      cases n with
      | answered r =>
        cases r with
        | ok r => exact ⟨r, rfl, rfl⟩
        | error e => cases hn
      | _ => cases hn
    | false =>
      rw [resumption_cons hn] at h ⊢
      rw [lastAnswer_cons hn]
      cases hf : n.forgets with
      | true => simp [hf] at h
      | false =>
        simp only [hf, Bool.false_eq_true, ↓reduceIte] at h ⊢
        exact ih h

namespace Subscription

structure Remembers (s : Subscription) (J : List Note) : Prop where
  asked : AskedWith (fun earlier c => c = resumption earlier) J
  producer : match s.producer.stage with
    | .calling k => match k.stage with
      | .acquiring _ | .pausing _ => s.producer.ask.asked = resumption J
      | .operating _ => s.producer.fresh = false
      | .failed _ e | .closing _ e =>
        if e.isRetryable then s.producer.ask.asked = resumption J else resumption J = .empty
      | .finished _ => True
    | .sending (.batch _) next => next = resumption J
    | .sending (.gone _) _ => True
    | .pausing _ => s.producer.cursor = .empty ∧ resumption J = .empty
    | .stopped => True

theorem remembers_start (retry : RetrySettings) (model : ModelId) :
    (start retry model).Remembers [] where
  asked := by
    intro later c earlier he
    cases later <;> cases he
  producer := rfl

theorem Remembers.produce {s s' : Subscription} {J : List Note} {n : Option Note}
    (h : s.Remembers J) (hm : s.Moved n s') : s'.Remembers (n.toList ++ J) := by
  have hp := h.producer
  cases hm with
  | stay => exact h
  | connect hst hk ho hk' =>
    simp only [hst, hk] at hp
    exact ⟨h.asked, by simpa [hk'] using hp⟩
  | @miss k k' a n e hst hk ho hk' hmiss =>
    simp only [hst, hk] at hp
    refine ⟨h.asked.append ?_, ?_⟩
    · rintro c hc
      cases hc
      exact hmiss.elim
    · have hres : resumption (n :: J) = if !e.isRetryable then .empty else resumption J := by
        rw [resumption_cons hmiss.not_isSuccess, hmiss.forgets]
      cases hr : e.isRetryable with
      | true => simpa [hk', hr, hres] using hp
      | false => simp [hk', hr, hres]
  | ask hst hk ho hk' =>
    simp only [hst, hk] at hp
    refine ⟨h.asked.append ?_, by simp [staged, hk', Producer.ask]⟩
    rintro c hc
    cases hc
    exact hp
  | succeed => exact ⟨h.asked.append (by simp), rfl⟩
  | @fail k k' link e hst hk ho hk' =>
    simp only [hst, hk] at hp
    refine ⟨h.asked.append (by simp), ?_⟩
    have hres : resumption (.answered (.error e) :: J) = .empty := rfl
    have hask : s.producer.ask.asked = .empty := by simp [Producer.ask, hp]
    cases hr : e.isRetryable with
    | true => simpa [hk', hr, hres] using hask
    | false => simp [hk', hr, hres]
  | close hst hk ho hk' =>
    simp only [hst, hk] at hp
    exact ⟨h.asked, by simpa [hk'] using hp⟩
  | retry hst hk hr ho hk' =>
    rcases hk with hk | hk <;>
      · simp only [hst, hk, hr] at hp
        exact ⟨h.asked, by simpa [hk'] using hp⟩
  | leave => exact ⟨h.asked, trivial⟩
  | reset hst hk hr hn =>
    rcases hk with hk | hk <;>
      · simp only [hst, hk, hr] at hp
        exact ⟨h.asked, rfl, by simpa using hp⟩
  | again hst hk ho hk' =>
    simp only [hst, hk] at hp
    exact ⟨h.asked, by simpa [hk'] using hp⟩
  | resume hst =>
    simp only [hst] at hp
    exact ⟨h.asked, by simp [Producer.resume, Producer.ask, Call.start, hp.1, hp.2]⟩
  | @queue update next retry hst hl =>
    refine ⟨h.asked.append (by simp), ?_⟩
    cases update with
    | gone e => simp [send, hl]
    | batch b =>
      simp only [hst] at hp
      have hres : resumption (.queued (.batch b) next :: J) = resumption J := rfl
      simpa [send, hl, Producer.resume, Producer.ask, Call.start, hres] using hp
  | stop => exact ⟨h.asked, trivial⟩

theorem Remembers.consume {s s' : Subscription} {J : List Note} {u : Update} (h : s.Remembers J)
    (hc : s.consume = some (u, s')) : s'.Remembers J :=
  ⟨h.asked, by rw [(consume_producer hc).1]; exact h.producer⟩

end Subscription

namespace Watch

theorem Reachable.remembers {answers : Cursor → Response → Prop} {w : Watch}
    (h : Reachable answers w) : w.subscription.Remembers w.journal :=
  h.invariant (P := fun s J => s.Remembers J) Subscription.remembers_start
    (fun _ _ _ _ hm _ hs _ => hs.produce hm) (fun _ _ _ _ hc hs => hs.consume hc)

/-- A request asks for the whole set just when, since the last answer, a request or a dial failed in
a way that makes the producer forget, or when there is no cursor to ask from. Any other request asks
from the cursor of the last answer. -/
def Warrants (earlier : List Note) (c : Cursor) : Prop :=
  (c = .empty ↔ (∃ n ∈ sinceAnswer earlier, n.forgets) ∨
    ∀ r, lastAnswer earlier = some r → r.next = .empty) ∧
  (c ≠ .empty → ∃ r, lastAnswer earlier = some r ∧ c = r.next)

theorem asked_warrants {answers : Cursor → Response → Prop} {w : Watch}
    (h : Reachable answers w) : AskedWith Warrants w.journal := by
  intro later c earlier he
  obtain rfl : c = resumption earlier := h.remembers.asked later c earlier he
  exact ⟨resumption_eq_empty_iff earlier, resumption_eq_next⟩

def dialed (result : Except Error Link) : List (Call.Signal Response) :=
  [.proceed, .connect (.resolved (.ok "a")), .connect (.dialed result)]

def redialed : Watch :=
  let env : Env := ⟨⟨"c"⟩, .default, .default, 0, 0⟩
  let answered := drive env ⟨.idle, .start .default ⟨"m"⟩, []⟩
    (dialed (.ok 1) ++ [.answered (.ok ⟨"i", .full ["a"] 1⟩), .proceed])
  drive env { answered with connection := .idle }
    (dialed (.error (.unavailable "refused")) ++ .proceed :: .proceed :: dialed (.ok 2))

theorem reachable_redialed : Reachable (fun _ _ => True) redialed := by
  refine .drive _ (.share .idle (.drive _ (.start _ _ _) ?_ ?_)) ?_ ?_ <;> simp [dialed]

theorem journal_redialed : redialed.journal =
    [.asked ⟨"i", 1⟩, .undialed (.unavailable "refused"),
      .queued (.batch (.full ["a"] 1)) ⟨"i", 1⟩, .answered (.ok ⟨"i", .full ["a"] 1⟩),
      .asked .empty] := rfl

theorem asked_warrants_redialed :
    Reachable (fun _ _ => True) redialed ∧ AskedWith Warrants redialed.journal :=
  ⟨reachable_redialed, asked_warrants reachable_redialed⟩

/-- A failed dial that is repeated within the same call does not make the producer forget. -/
theorem not_asked_empty_after_failure : ¬ ∀ w, Reachable (fun _ _ => True) w →
    AskedWith (fun earlier c => (∃ n ∈ sinceAnswer earlier, n.isFailure) → c = .empty)
      w.journal := by
  intro h
  have hc := h redialed reachable_redialed [] ⟨"i", 1⟩ _ journal_redialed
    ⟨.undialed (.unavailable "refused"), by simp [sinceAnswer, Note.isSuccess], rfl⟩
  exact absurd hc (by decide)

end Watch

end ModelRegistry
