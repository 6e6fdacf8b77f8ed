import ModelRegistry.Proofs.Sessions

namespace ModelRegistry

def Reports (J : List Note) (e : Error) : Prop := .answered (.error e) ∈ J ∨ .undialed e ∈ J

theorem Reports.append {J : List Note} {e : Error} (h : Reports J e) (n : Option Note) :
    Reports (n.toList ++ J) e :=
  h.imp (List.mem_append_right _) (List.mem_append_right _)

theorem Reports.exists_isNotFound {J : List Note} {e : Error} (h : Reports J e)
    (he : e.isNotFound) : ∃ n ∈ J, n.isNotFound := by
  rcases h with h | h
  · exact ⟨_, h, he⟩
  · exact ⟨_, h, he⟩

theorem reports_of_misses {n : Note} {e : Error} (h : n.Misses e) (he : e.isNotFound)
    (J : List Note) : Reports (n :: J) e := by
  cases n with
  | undialed cause =>
    obtain ⟨address, rfl⟩ := h
    have hcause : cause.isNotFound := by rwa [Acquisition.isNotFound_undialed] at he
    rw [Acquisition.undialed_of_isNotFound address hcause]
    exact .inr (List.mem_cons_self ..)
  | busy => obtain ⟨cluster, rfl⟩ := h; cases he
  | unresolved cause => obtain ⟨cluster, rfl⟩ := h; cases he
  | expired => obtain ⟨address, rfl⟩ := h; cases he
  | _ => exact h.elim

def Producer.Stage.gone? : Producer.Stage → Option Error
  | .calling k => match k.stage with
    | .failed _ e | .closing _ e => if e.isNotFound then some e else none
    | _ => none
  | .sending (.gone e) _ => some e
  | _ => none

namespace Subscription

structure Ends (s : Subscription) (J : List Note) : Prop where
  reported : ∀ e, s.producer.stage.gone? = some e → e.isNotFound ∧ Reports J e
  sent : ∀ e c, .queued (.gone e) c ∈ J → e.isNotFound ∧ Reports J e
  stopped : s.producer.stage = .stopped → ∃ e c, .queued (.gone e) c ∈ J
  told : (s.listening = false ∨ ∃ e, .gone e ∈ s.queue) → s.producer.stage = .stopped
  ends : (∃ n ∈ J, n.isNotFound) → s.producer.stage.gone?.isSome ∨ s.producer.stage = .stopped

theorem ends_start (retry : RetrySettings) (model : ModelId) : (start retry model).Ends [] where
  reported := by intro e he; cases he
  sent := by intro e c h; cases h
  stopped := by intro h; cases h
  told := by
    rintro (h | ⟨e, h⟩)
    · cases h
    · cases h
  ends := by rintro ⟨n, h, _⟩; cases h

theorem Ends.keep {s s' : Subscription} {J : List Note} {n : Option Note} (h : s.Ends J)
    (hq : s'.queue = s.queue) (hl : s'.listening = s.listening)
    (hs : s.producer.stage ≠ .stopped) (hs' : s'.producer.stage ≠ .stopped)
    (hg : s'.producer.stage.gone? = s.producer.stage.gone?)
    (hn : ∀ m, n = some m → m.isNotFound = false ∧ ∀ u c, m ≠ .queued u c) :
    s'.Ends (n.toList ++ J) where
  reported := by
    intro e he
    exact (h.reported e (hg ▸ he)).imp_right (·.append n)
  sent := by
    intro e c hm
    rcases List.mem_append.mp hm with hm | hm
    · exact absurd rfl ((hn _ (by simpa using hm)).2 (.gone e) c)
    · exact (h.sent e c hm).imp_right (·.append n)
  stopped := fun hstop => absurd hstop hs'
  told := by
    rw [hq, hl]
    exact fun ht => absurd (h.told ht) hs
  ends := by
    rintro ⟨m, hm, hf⟩
    rcases List.mem_append.mp hm with hm | hm
    · have := (hn m (by simpa using hm)).1
      simp [this] at hf
    · exact .inl (hg ▸ (h.ends ⟨m, hm, hf⟩).resolve_right hs)

theorem Ends.fail {s s' : Subscription} {J : List Note} {n : Note} {e : Error} (h : s.Ends J)
    (hq : s'.queue = s.queue) (hl : s'.listening = s.listening)
    (hs : s.producer.stage ≠ .stopped) (hs' : s'.producer.stage ≠ .stopped)
    (hg : s.producer.stage.gone? = none)
    (hg' : s'.producer.stage.gone? = if e.isNotFound then some e else none)
    (hn : n.isNotFound = e.isNotFound) (hr : e.isNotFound → Reports (n :: J) e)
    (hu : ∀ u c, n ≠ .queued u c) : s'.Ends (n :: J) where
  reported := by
    intro e' he
    rw [hg'] at he
    split at he
    · rename_i hf
      cases he
      exact ⟨hf, hr hf⟩
    · cases he
  sent := by
    intro e c hm
    rcases List.mem_cons.mp hm with hm | hm
    · exact absurd hm.symm (hu _ c)
    · exact (h.sent e c hm).imp_right (·.append (some n))
  stopped := fun hstop => absurd hstop hs'
  told := by
    rw [hq, hl]
    exact fun ht => absurd (h.told ht) hs
  ends := by
    rintro ⟨m, hm, hf⟩
    rcases List.mem_cons.mp hm with rfl | hm
    · rw [hn] at hf
      simp [hg', hf]
    · have he := (h.ends ⟨m, hm, hf⟩).resolve_right hs
      simp [hg] at he

theorem Ends.produce {s s' : Subscription} {J : List Note} {n : Option Note} (h : s.Ends J)
    (hm : s.Moved n s') : s'.Ends (n.toList ++ J) := by
  cases hm with
  | stay => exact h
  | connect hst hk ho hk' =>
    exact h.keep rfl rfl (by simp [hst]) (by simp) (by simp [hst, Producer.Stage.gone?, hk, hk'])
      (by simp)
  | miss hst hk ho hk' hmiss =>
    refine h.fail rfl rfl (by simp [hst]) (by simp) (by simp [hst, Producer.Stage.gone?, hk])
      (by simp [Producer.Stage.gone?, hk']) hmiss.isNotFound (reports_of_misses hmiss · J) ?_
    rintro u c rfl
    exact hmiss.elim
  | ask hst hk ho hk' =>
    exact h.keep rfl rfl (by simp [hst]) (by simp) (by simp [hst, Producer.Stage.gone?, hk, hk'])
      (by simp [Note.isNotFound])
  | succeed hst hk =>
    exact h.keep rfl rfl (by simp [hst]) (by simp) (by simp [hst, Producer.Stage.gone?, hk])
      (by simp [Note.isNotFound])
  | fail hst hk ho hk' =>
    exact h.fail rfl rfl (by simp [hst]) (by simp) (by simp [hst, Producer.Stage.gone?, hk])
      (by simp [Producer.Stage.gone?, hk']) rfl (fun _ => .inl (List.mem_cons_self ..)) (by simp)
  | close hst hk ho hk' =>
    exact h.keep rfl rfl (by simp [hst]) (by simp) (by simp [hst, Producer.Stage.gone?, hk, hk'])
      (by simp)
  | retry hst hk hr ho hk' =>
    have hn := Error.not_isNotFound_of_isRetryable hr
    refine h.keep rfl rfl (by simp [hst]) (by simp) ?_ (by simp)
    rcases hk with hk | hk <;> simp [hst, Producer.Stage.gone?, hk, hk', hn]
  | leave hst hk hn =>
    refine h.keep rfl rfl (by simp [hst]) (by simp) ?_ (by simp)
    rcases hk with hk | hk <;> simp [hst, Producer.Stage.gone?, hk, hn]
  | reset hst hk hr hn =>
    refine h.keep rfl rfl (by simp [hst]) (by simp) ?_ (by simp)
    rcases hk with hk | hk <;> simp [hst, Producer.Stage.gone?, hk, hn]
  | again hst hk ho hk' =>
    exact h.keep rfl rfl (by simp [hst]) (by simp) (by simp [hst, Producer.Stage.gone?, hk, hk'])
      (by simp)
  | resume hst =>
    exact h.keep rfl rfl (by simp [hst]) (by simp [Producer.resume])
      (by simp [hst, Producer.resume, Producer.Stage.gone?, Call.start]) (by simp)
  | @queue update next retry hst hl =>
    cases update with
    | batch b =>
      refine ⟨by simp [send, hl, Producer.resume, Call.start, Producer.Stage.gone?], ?_,
        by simp [send, hl, Producer.resume], ?_, ?_⟩
      · intro e c hm
        rcases List.mem_cons.mp hm with hm | hm
        · cases hm
        · exact (h.sent e c hm).imp_right (·.append (some _))
      · have hstop : s.producer.stage ≠ .stopped := by simp [hst]
        rintro (hf | ⟨e, he⟩)
        · simp [send, hl] at hf
        · exact absurd (h.told (.inr ⟨e, by simpa [send, hl] using he⟩)) hstop
      · rintro ⟨m, hm, hf⟩
        rcases List.mem_cons.mp hm with rfl | hm
        · cases hf
        · have he := h.ends ⟨m, hm, hf⟩
          simp [hst, Producer.Stage.gone?] at he
    | gone e =>
      have hstop : (s.send retry (.gone e) next).producer.stage = .stopped := by simp [send, hl]
      refine ⟨by simp [hstop, Producer.Stage.gone?], ?_,
        fun _ => ⟨e, next, List.mem_cons_self ..⟩, fun _ => hstop, fun _ => .inr hstop⟩
      intro e' c hm
      rcases List.mem_cons.mp hm with hm | hm
      · cases hm
        exact (h.reported e (by simp [hst, Producer.Stage.gone?])).imp_right (·.append (some _))
      · exact (h.sent e' c hm).imp_right (·.append (some _))
  | stop hst hl =>
    have := h.told (.inl hl)
    simp [hst] at this

theorem Ends.consume {s s' : Subscription} {J : List Note} {u : Update} (h : s.Ends J)
    (hc : s.consume = some (u, s')) : s'.Ends J := by
  obtain ⟨hl, ⟨b, rest, -, hq, rfl⟩ | ⟨e, rest, -, hq, rfl⟩⟩ := consume_cases hc
  · refine ⟨h.reported, h.sent, h.stopped, ?_, h.ends⟩
    rintro (hf | ⟨e, he⟩)
    · exact h.told (.inl hf)
    · exact h.told (.inr ⟨e, by rw [hq]; exact List.mem_cons_of_mem _ he⟩)
  · refine ⟨h.reported, h.sent, h.stopped, ?_, h.ends⟩
    intro _
    exact h.told (.inr ⟨e, by rw [hq]; exact List.mem_cons_self ..⟩)

end Subscription

theorem Watch.Reachable.ends {answers : Cursor → Response → Prop} {w : Watch}
    (h : Watch.Reachable answers w) : w.subscription.Ends w.journal :=
  h.invariant (P := fun s J => s.Ends J) Subscription.ends_start
    (fun _ _ _ _ hm _ hs _ => hs.produce hm) (fun _ _ _ _ hc hs => hs.consume hc)

namespace Session

/-- A producer says that the model is gone only with an error of that kind which the registry or the
dialer gave it, and makes an end once it has had one; the model leaves the client only after that.
-/
theorem gone_only_if_reported {w : Session} (h : Reachable w) {n : Nat} {s : Subscription}
    (hs : w.client.subscriptions[n]? = some s) :
    (∀ e c, .queued (.gone e) c ∈ w.journals n → e.isNotFound ∧ Reports (w.journals n) e) ∧
    (w.client.tracked[s.replica.model]? ≠ some n →
      ∃ e, e.isNotFound ∧ Reports (w.journals n) e) ∧
    ((∃ e, e.isNotFound ∧ Reports (w.journals n) e) ↔
      s.producer.stage.gone?.isSome ∨ s.producer.stage = .stopped) := by
  have he : s.Ends (w.journals n) := (h.watch n s hs).ends
  have hstopped : s.producer.stage = .stopped → ∃ e, e.isNotFound ∧ Reports (w.journals n) e := by
    intro hstop
    obtain ⟨e, c, hm⟩ := he.stopped hstop
    exact ⟨e, he.sent e c hm⟩
  refine ⟨he.sent, ?_, ?_, ?_⟩
  · intro hu
    exact hstopped (he.told (.inl ((h.tracks.kept n s hs).resolve_left hu)))
  · rintro ⟨e, hn, hr⟩
    exact he.ends (hr.exists_isNotFound hn)
  · rintro (hg | hstop)
    · obtain ⟨e, hg⟩ := Option.isSome_iff_exists.mp hg
      exact ⟨e, he.reported e hg⟩
    · exact hstopped hstop

def undialed : Session :=
  let client := (Client.new ⟨"c"⟩ .default .default).subscribe ⟨"m"⟩
  drive 0 (fun _ => 0) 0 ⟨client, fun _ => []⟩
    [.proceed, .connect (.resolved (.ok "a")), .connect (.dialed (.error (.notFound "no host"))),
      .proceed, .proceed]

theorem reachable_undialed : Reachable undialed := by
  refine .drive _ _ _ (.lookup (r := .new ⟨"m"⟩) true ⟨"m"⟩ (.start ⟨"c"⟩ .default .default) ?_) ?_
  · simp [Client.lookup, Client.subscription?, Client.new]
  · simp

theorem journals_undialed : undialed.journals 0 =
    [.queued (.gone (.notFound "no host")) .empty, .undialed (.notFound "no host")] := rfl

theorem consume_undialed : ∃ c s, undialed.client.consume 0 = some c ∧
    c.subscriptions[0]? = some s ∧ c.tracked[s.replica.model]? = none := by
  refine ⟨_, _, rfl, rfl, ?_⟩
  decide

theorem gone_only_if_reported_undialed : ∃ s, Reachable undialed ∧
    undialed.client.subscriptions[0]? = some s ∧
    .queued (.gone (.notFound "no host")) .empty ∈ undialed.journals 0 ∧
    Reports (undialed.journals 0) (.notFound "no host") := by
  have hm : .queued (.gone (.notFound "no host")) .empty ∈ undialed.journals 0 := by
    rw [journals_undialed]
    exact List.mem_cons_self ..
  exact ⟨_, reachable_undialed, rfl, hm,
    ((gone_only_if_reported reachable_undialed rfl).1 _ _ hm).2⟩

/-- A dialer that answers that there is no such thing drops the model, with no request made. -/
theorem not_tracked_until_answered : ¬ ∀ w n s, Reachable w →
    w.client.subscriptions[n]? = some s → w.client.tracked[s.replica.model]? ≠ some n →
    ∃ e, e.isNotFound ∧ .answered (.error e) ∈ w.journals n := by
  intro h
  obtain ⟨c, s, hc, hs, ht⟩ := consume_undialed
  obtain ⟨e, -, he⟩ := h { undialed with client := c } 0 s (.consume reachable_undialed hc) hs
    (by simp [ht])
  simp [journals_undialed] at he

end Session

end ModelRegistry
