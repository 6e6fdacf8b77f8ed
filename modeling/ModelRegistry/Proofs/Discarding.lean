import ModelRegistry.Proofs.Conservation

namespace ModelRegistry

def User.Unaimed (u : User) : Prop := u.Comes ∧ ∀ link, u ≠ .poison (some link)

def own (i : Nat) (history : List Event) : List Event := history.filter fun event => event.user == i

theorem own_append (i : Nat) (later earlier : List Event) :
    own i (later ++ earlier) = own i later ++ own i earlier :=
  List.filter_append ..

theorem mem_of_mem_own {i : Nat} {event : Event} {history : List Event}
    (h : event ∈ own i history) : event ∈ history :=
  (List.mem_filter.1 h).1

namespace Phase

variable {c c' : Connection} {p p' : Phase} {i j : Nat} {link : Link} {used : Option Link}
  {e : Error}

theorem own_news_self (i : Nat) (p p' : Phase) : own i (p.news i p') = p.news i p' := by
  apply List.filter_eq_self.2
  intro event hmem
  simp [user_of_mem_news hmem]

theorem own_news_of_ne (h : i ≠ j) (p p' : Phase) : own j (p.news i p') = [] := by
  apply List.filter_eq_nil_iff.2
  intro event hmem
  simp [user_of_mem_news hmem, h]

/-- What a user at this phase has done last. -/
def Follows (i : Nat) (history : List Event) : Phase → Prop
  | holding link => ∃ rest, history = .given i link :: rest
  | failed (some link) e => ∃ rest, history = .ended i (some link) e :: .given i link :: rest
  | failed none e => ∃ rest, history = .ended i none e :: rest
  | closing link => ∃ rest, history = .discarded i link :: rest
  | _ => True

namespace Moved

theorem follows (h : Moved c p c' p') {history : List Event} (hp : p.Follows i history) :
    p'.Follows i (p.news i p' ++ history) := by
  cases h with
  | stay =>
    rw [news_self]
    exact hp
  | miss hdialing => obtain rfl | ⟨address, rfl⟩ := eq_of_isDialing hdialing <;> exact ⟨_, rfl⟩
  | fail =>
    obtain ⟨rest, rfl⟩ := hp
    exact ⟨rest, rfl⟩
  | refuse | reuse | connect | late | discard | poison => exact ⟨_, rfl⟩
  | _ => trivial

theorem given (h : Moved c p c' p') (hmem : .given i link ∈ p.news i p') :
    c = .ready link ∨ .connected i link ∈ p.news i p' := by
  obtain ⟨rfl | ⟨address, rfl⟩, rfl⟩ := of_given_mem hmem
  · cases h with
    | reuse hready => exact .inl hready
  · cases h with
    | connect => exact .inr (List.mem_cons_of_mem _ (List.mem_cons_self ..))

theorem ended (h : Moved c p c' p') (hmem : .ended i used e ∈ p.news i p') :
    (∀ link, c = .ready link → c' = .ready link) ∧
      ((∃ link, used = some link ∧ p = .holding link) ∨
        used = none ∧ (p = .entering ∨ p.isDialing)) := by
  obtain ⟨hp, rfl, -⟩ := of_ended_mem hmem
  cases h with
  | stay => exact absurd rfl (hp used e)
  | miss hdialing =>
    refine ⟨?_, .inr ⟨rfl, .inr hdialing⟩⟩
    rintro link rfl
    rfl
  | refuse | late => exact ⟨fun _ h => h, .inr ⟨rfl, .inl rfl⟩⟩
  | fail => exact ⟨fun _ h => h, .inl ⟨_, rfl, rfl⟩⟩

theorem settled (h : Moved c p c' p') (hmem : .settled i used e ∈ p.news i p') :
    (c' = c ∧ p' = .away ∧ ∀ link, c = .ready link → Call.brokenLink used e link = false) ∨
      ∃ link, used = some link ∧ c = .ready link ∧ e.breaksConnection ∧ c' = .idle := by
  obtain ⟨rfl, hp'⟩ := of_settled_mem hmem
  cases h with
  | stay => exact absurd rfl (hp' used e)
  | miss => exact absurd rfl (hp' none _)
  | abandon hdialing => cases hdialing
  | leave hwaits => cases hwaits
  | settle hspared => exact .inl ⟨rfl, rfl, hspared⟩
  | discard hready hbreaks => exact .inr ⟨_, rfl, hready, hbreaks, rfl⟩

theorem discarded (h : Moved c p c' p') (hmem : .discarded i link ∈ p.news i p') :
    c = .ready link ∧ ((∃ target, p = .poisoning target) ∨
      ∃ e, p = .failed (some link) e ∧ e.breaksConnection) := by
  obtain ⟨⟨target, rfl⟩ | ⟨used, e, rfl⟩, rfl⟩ := of_discarded_mem hmem
  · cases h with
    | poison hready => exact ⟨hready, .inl ⟨target, rfl⟩⟩
  · cases h with
    | discard hready hbreaks => exact ⟨hready, .inr ⟨e, rfl, hbreaks⟩⟩

theorem lost (h : Moved c p c' p') (hp : p.isDialing → c = .dialing) (hc : c = .ready link)
    (hc' : c' ≠ .ready link) : c' = .idle ∧ .discarded i link ∈ p.news i p' := by
  subst hc
  cases h with
  | take hidle => cases hidle
  | connect => cases hp rfl
  | miss hdialing | abandon hdialing => cases hp hdialing
  | discard hready | poison hready =>
    obtain rfl := Connection.ready.inj hready
    exact ⟨rfl, List.mem_cons_self ..⟩
  | _ => exact absurd rfl hc'

theorem ready (h : Moved c p c' p') (hc' : c' = .ready link) :
    c = .ready link ∨ .connected i link ∈ p.news i p' := by
  cases h with
  | connect =>
    obtain rfl := Connection.ready.inj hc'
    exact .inr (List.mem_cons_of_mem _ (List.mem_cons_self ..))
  | take | discard | poison => cases hc'
  | miss | abandon => exact .inl (Connection.eq_of_abandon hc')
  | _ => exact .inl hc'

theorem poisoning {target : Option Link} (h : Moved c p c' (.poisoning target)) :
    p = .poisoning target := by
  cases h with
  | stay => rfl

end Moved

end Phase

namespace Call

variable {α : Type}

theorem cutOff_spares (k : Call α) (env : Env) (c : Connection)
    (h : (∃ a, k.stage = .acquiring a) ∨ ∃ link, k.stage = .operating link) :
    (∃ used e, (k.step env c .cutOff).2.stage = .failed used e ∧ e.kind = .deadlineExceeded) ∧
      ∀ link, c = .ready link → (k.step env c .cutOff).1 = .ready link := by
  obtain ⟨a, hs⟩ | ⟨link, hs⟩ := h
  · have hstep : k.step env c .cutOff =
        (a.cancel c, { k with stage := .failed none (timedOut env.cluster) }) := by
      simp [step, hs]
    rw [hstep]
    refine ⟨⟨none, _, rfl, rfl⟩, ?_⟩
    rintro link rfl
    cases hd : a.isDialing <;> simp [Acquisition.cancel, hd, Connection.abandon]
  · have hstep : k.step env c .cutOff =
        (c, { k with stage := .failed (some link) (timedOut env.cluster) }) := by
      simp [step, hs]
    rw [hstep]
    exact ⟨⟨some link, _, rfl, rfl⟩, fun _ hc => hc⟩

end Call

namespace Shared

variable {supply : Supply} {w w' : Shared} {i j : Nat} {events : List Event} {link : Link}
  {p p' : Phase}

structure Traced (w : Shared) : Prop where
  kept : ∀ {link}, w.connection = .ready link → link ∈ dialed w.history
  given : ∀ {i link}, .given i link ∈ w.history → link ∈ dialed w.history
  follows : ∀ {i : Nat} {p : Phase}, w.phases[i]? = some p → p.Follows i (own i w.history)
  retired : ∀ {i link e}, .settled i (some link) e ∈ w.history → e.breaksConnection →
    link ∈ dialed w.history ∧ w.connection ≠ .ready link

theorem Traced.join {u : User} (h : w.Traced) (hu : u.Comes) : (w.join u).Traced := by
  constructor
  · exact h.kept
  · exact h.given
  · intro i p hp
    obtain hold | rfl := getElem?_phases_join hp
    · exact h.follows hold
    · obtain hphase | ⟨target, hphase⟩ := phase_of_comes hu <;> rw [hphase] <;> trivial
  · exact h.retired

namespace Turn

theorem mem_dialed (h : Turn supply w i p p' events w') (hlink : link ∈ dialed w.history) :
    link ∈ dialed w'.history := by
  rw [h.told, dialed_append]
  exact List.mem_append_right _ hlink

theorem dialed_of_connected (h : Turn supply w i p p' events w')
    (hmem : .connected i link ∈ p.news i p') : link ∈ dialed w'.history := by
  rw [h.told, h.news]
  exact ModelRegistry.mem_dialed.2 ⟨i, List.mem_append_left _ hmem⟩

theorem mem_history {event : Event} (h : Turn supply w i p p' events w')
    (hmem : event ∈ w'.history) : event ∈ p.news i p' ∨ event ∈ w.history := by
  rw [h.told, h.news] at hmem
  exact List.mem_append.1 hmem

theorem not_ready {link : Link} (h : Turn freshLink w i p p' events w')
    (hlink : link ∈ dialed w.history) (hc : w.connection ≠ .ready link) :
    w'.connection ≠ .ready link := by
  intro hc'
  obtain hold | hmem := h.moved.ready (i := i) hc'
  · exact hc hold
  · exact h.supplied link (h.news ▸ hmem) hlink

theorem dialed_of_failed {e : Error} (h : Turn supply w i p p' events w') (hw : w.Traced)
    (hp : p = .failed (some link) e) : link ∈ dialed w.history := by
  have hfollows := hw.follows h.before
  rw [hp] at hfollows
  obtain ⟨rest, hown⟩ := hfollows
  apply hw.given (i := i)
  apply mem_of_mem_own (i := i)
  rw [hown]
  exact List.mem_cons_of_mem _ (List.mem_cons_self ..)

end Turn

theorem Traced.step (hw : w.Traced) (h : Step freshLink w i events w') : w'.Traced := by
  obtain ⟨p, p', ht⟩ := h.turn
  constructor
  · intro link hc
    obtain hold | hmem := ht.moved.ready (i := i) hc
    · exact ht.mem_dialed (hw.kept hold)
    · exact ht.dialed_of_connected hmem
  · intro j link hgiven
    obtain hnew | hold := ht.mem_history hgiven
    · obtain rfl : i = j := (Phase.user_of_mem_news hnew).symm
      obtain hready | hmem := ht.moved.given hnew
      · exact ht.mem_dialed (hw.kept hready)
      · exact ht.dialed_of_connected hmem
    · exact ht.mem_dialed (hw.given hold)
  · intro j q hq
    rw [ht.told, ht.news, own_append]
    by_cases hij : i = j
    · subst hij
      obtain rfl := Option.some.inj (ht.after.symm.trans hq)
      rw [Phase.own_news_self]
      exact ht.moved.follows (hw.follows ht.before)
    · rw [Phase.own_news_of_ne hij]
      rw [ht.others hij] at hq
      exact hw.follows hq
  · intro j link e hsettled hbreaks
    obtain hnew | hold := ht.mem_history hsettled
    · obtain rfl : i = j := (Phase.user_of_mem_news hnew).symm
      have hlink := ht.dialed_of_failed hw (Phase.of_settled_mem hnew).1
      refine ⟨ht.mem_dialed hlink, ?_⟩
      obtain ⟨hsame, -, hspared⟩ | ⟨l, -, -, -, hidle⟩ := ht.moved.settled hnew
      · intro hc
        rw [hsame] at hc
        have hunbroken := hspared link hc
        simp [Call.brokenLink, hbreaks] at hunbroken
      · rw [hidle]
        intro hc
        cases hc
    · obtain ⟨hlink, hc⟩ := hw.retired hold hbreaks
      exact ⟨ht.mem_dialed hlink, ht.not_ready hlink hc⟩

theorem Reachable.traced (h : w.Reachable User.Comes freshLink) : w.Traced := by
  induction h with
  | start =>
    constructor
    · intro link hc
      cases hc
    · intro i link hmem
      cases hmem
    · intro i p hp
      cases hp
    · intro i link e hmem
      cases hmem
  | join _ hu ih => exact ih.join hu
  | step _ hs ih => exact ih.step hs

theorem Reachable.not_aimed (h : w.Reachable User.Unaimed supply) (i : Nat) (link : Link) :
    w.phases[i]? ≠ some (.poisoning (some link)) := by
  induction h generalizing i with
  | start =>
    intro hp
    cases hp
  | @join w u _ hu ih =>
    intro hp
    obtain hold | hphase := getElem?_phases_join hp
    · exact ih i hold
    · cases u with
      | poison target =>
        obtain rfl : some link = target := Phase.poisoning.inj hphase
        exact hu.2 link rfl
      | _ => cases hu.1 <;> cases hphase
  | @step w w' j events _ hs ih =>
    obtain ⟨p, p', ht⟩ := hs.turn
    intro hp
    by_cases hij : j = i
    · subst hij
      obtain rfl := Option.some.inj (ht.after.symm.trans hp)
      obtain rfl := ht.moved.poisoning
      exact ih j ht.before
    · rw [ht.others hij] at hp
      exact ih i hp

structure Selective (w : Shared) : Prop where
  discarded : ∀ i events w' link, Step freshLink w i events w' → .discarded i link ∈ events →
    w.connection = .ready link ∧ (w.phases[i]? = some (.poisoning none) ∨
      ∃ e rest, e.kind = .unavailable ∧ w.phases[i]? = some (.failed (some link) e) ∧
        own i w.history = .ended i (some link) e :: .given i link :: rest)
  closed : ∀ i events w' link, Step freshLink w i events w' → .closed i link ∈ events →
    ∃ rest, own i w.history = .discarded i link :: rest
  lost : ∀ i events w' link, Step freshLink w i events w' → w.connection = .ready link →
    w'.connection ≠ .ready link → w'.connection = .idle ∧ .discarded i link ∈ events
  retired : ∀ i j events w' link e, .settled j (some link) e ∈ w.history → e.kind = .unavailable →
    Step freshLink w i events w' → .given i link ∉ events
  ended : ∀ i events w' used e, Step freshLink w i events w' → .ended i used e ∈ events →
    events = [.ended i used e] ∧
      (∀ link, w.connection = .ready link → w'.connection = .ready link) ∧
      ((∃ link, used = some link ∧ w.phases[i]? = some (.holding link)) ∨
        used = none ∧ (w.phases[i]? = some .entering ∨ w.IsDialing i))
  spared : ∀ i events w' used e, Step freshLink w i events w' → .settled i used e ∈ events →
    (e.kind ≠ .unavailable ∨ used = none ∨ w.connection.link? ≠ used) →
    events = [.settled i used e] ∧ w'.connection = w.connection ∧ w'.phases[i]? = some .away
  cutOff : ∀ {α : Type} (i : Nat) (k : Call α) underway env, w.users[i]? = some (.call k underway) →
    ((∃ a, k.stage = .acquiring a) ∨ ∃ link, k.stage = .operating link) →
    (∃ used e, (k.step env w.connection .cutOff).2.stage = .failed used e ∧
      e.kind = .deadlineExceeded) ∧
    ∀ link, w.connection = .ready link → (k.step env w.connection .cutOff).1 = .ready link

theorem Reachable.selective (h : w.Reachable User.Unaimed freshLink) : w.Selective := by
  have hcomes : w.Reachable User.Comes freshLink := h.mono (fun _ hu => hu.1) fun _ _ hlink => hlink
  have hw := hcomes.traced
  constructor
  · intro i events w' link hs hmem
    obtain ⟨p, p', ht⟩ := hs.turn
    rw [ht.news] at hmem
    obtain ⟨hready, ⟨target, rfl⟩ | ⟨e, rfl, hbreaks⟩⟩ := ht.moved.discarded hmem
    · cases target with
      | none => exact ⟨hready, .inl ht.before⟩
      | some l => exact absurd ht.before (h.not_aimed i l)
    · obtain ⟨rest, hown⟩ := hw.follows ht.before
      exact ⟨hready, .inr ⟨e, rest, Error.breaksConnection_iff.1 hbreaks, ht.before, hown⟩⟩
  · intro i events w' link hs hmem
    obtain ⟨p, p', ht⟩ := hs.turn
    rw [ht.news] at hmem
    obtain rfl := (Phase.of_closed_mem hmem).1
    exact hw.follows ht.before
  · intro i events w' link hs hc hc'
    obtain ⟨p, p', ht⟩ := hs.turn
    rw [ht.news]
    exact ht.moved.lost (fun hp => hcomes.guarded.dialing (ht.isDialing_iff.2 hp)) hc hc'
  · intro i j events w' link e hsettled hkind hs hmem
    obtain ⟨p, p', ht⟩ := hs.turn
    obtain ⟨hlink, hc⟩ := hw.retired hsettled (Error.breaksConnection_iff.2 hkind)
    rw [ht.news] at hmem
    obtain hready | hconnected := ht.moved.given hmem
    · exact hc hready
    · exact ht.supplied link (ht.news ▸ hconnected) hlink
  · intro i events w' used e hs hmem
    obtain ⟨p, p', ht⟩ := hs.turn
    rw [ht.news] at hmem ⊢
    obtain ⟨hkept, hused⟩ := ht.moved.ended hmem
    refine ⟨(Phase.of_ended_mem hmem).2.2, hkept, ?_⟩
    obtain ⟨link, hlink, rfl⟩ | ⟨hnone, rfl | hp⟩ := hused
    · exact .inl ⟨link, hlink, ht.before⟩
    · exact .inr ⟨hnone, .inl ht.before⟩
    · exact .inr ⟨hnone, .inr (ht.isDialing_iff.2 hp)⟩
  · intro i events w' used e hs hmem hother
    obtain ⟨p, p', ht⟩ := hs.turn
    rw [ht.news] at hmem ⊢
    obtain rfl := (Phase.of_settled_mem hmem).1
    obtain ⟨hsame, rfl, -⟩ | ⟨link, rfl, hready, hbreaks, -⟩ := ht.moved.settled hmem
    · exact ⟨rfl, hsame, ht.after⟩
    · obtain hkind | hnone | hlink := hother
      · exact absurd (Error.breaksConnection_iff.1 hbreaks) hkind
      · cases hnone
      · simp [hready, Connection.link?] at hlink
  · intro α i k underway env hu hstage
    exact k.cutOff_spares env w.connection hstage

def down : Error := .unavailable "down"

def calling (backoff : Backoff) (stage : Call.Stage Unit)
    (h : ∀ r, stage ≠ .acquiring (.finished r)) : User :=
  .call ⟨none, backoff, stage⟩ h

def caller : User := calling (.start .default) (.acquiring .entering) (by simp)

def running : User := calling (.start .default) (.operating 1) (by simp)

def broken : User := calling (.start .default) (.failed (some 1) down) (by simp)

def closing : User := calling (.start .default) (.closing 1 down) (by simp)

def resting : User :=
  calling (Backoff.start .default).advance (.pausing (12 + (Backoff.start .default).pause 0))
    (by simp)

def outlived : Shared :=
  ⟨.ready 2, [.acquire (.finished (.ok 1)), resting, resting, .acquire (.finished (.ok 2))],
    [.settled 2 (some 1) down, .ended 2 (some 1) down] ++ dialedBy 3 2 ++
      [.closed 1 1, .discarded 1 1, .settled 1 (some 1) down, .ended 1 (some 1) down,
        .given 2 1, .given 1 1] ++ dialedBy 0 1⟩

theorem reachable_outlived : outlived.Reachable User.Unaimed freshLink := by
  have hacquire : User.Unaimed (.acquire .entering) := ⟨.acquire, by simp⟩
  have hcall : User.Unaimed caller := ⟨.call .default none, by simp [caller, calling]⟩
  have hreuse : User.Step (.ready 1) caller (.ready 1) running := .call noon .proceed
  have hfail (c : Connection) : User.Step c running c broken := .call noon (.answered (.error down))
  have hdiscard : User.Step (.ready 1) broken .idle closing := .call noon .proceed
  have hclose : User.Step .idle closing .idle resting := .call noon .proceed
  have hspare : User.Step (.ready 2) broken (.ready 2) resting := .call noon .proceed
  have hcome : Reachable User.Unaimed freshLink
      ⟨.idle, [.acquire .entering, caller, caller, .acquire .entering], []⟩ :=
    (((Reachable.start.join hacquire).join hcall).join hcall).join hacquire
  have hdialed := hcome.dial rfl 0 rfl 1 (by decide)
  have hfirst := hdialed.pass 1 rfl hreuse rfl
  have hsecond := hfirst.pass 2 rfl hreuse rfl
  have hfailed := hsecond.pass 1 rfl (hfail _) rfl
  have hdiscarded := hfailed.pass 1 rfl hdiscard rfl
  have hclosed := hdiscarded.pass 1 rfl hclose rfl
  have hredialed := hclosed.dial rfl 3 rfl 2 (by decide)
  have hlate := hredialed.pass 2 rfl (hfail _) rfl
  exact hlate.pass 2 rfl hspare rfl

theorem selective_outlived : outlived.Reachable User.Unaimed freshLink ∧
    outlived.connection = .ready 2 ∧ closed outlived.history = [1] ∧
    .settled 2 (some 1) down ∈ outlived.history ∧ outlived.Selective :=
  ⟨reachable_outlived, rfl, rfl, List.mem_cons_self .., reachable_outlived.selective⟩

end Shared

end ModelRegistry
