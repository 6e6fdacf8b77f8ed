import ModelRegistry.Proofs.Dialing

/-!
How an acquisition ends, whoever else uses the connection and however long the lookup and the dialer
take. It gives a link, or is refused if another one is dialing when it comes, or finds the registry
unavailable. Only what the dialer fails with is handed on as it is, and so it is only after this
that a call may not try again.
-/

namespace ModelRegistry

open Simulation (Wait Heard)

def Call.during {α : Type} (k : Call α) (a : Acquisition) : Call α :=
  { k with stage := afterAcquisition a }

inductive User.Acquires : (Acquisition → User) → Prop
  | alone : Acquires .acquire
  | attempt {α : Type} (k : Call α) :
      Acquires fun a => .call (k.during a) (Call.afterAcquisition_ne a)

namespace User.Acquires

variable {who : Acquisition → User} {a : Acquisition}

theorem step (h : Acquires who) (env : Env) (c : Connection) (a : Acquisition)
    (signal : Acquisition.Signal) :
    (who a).StepAt env.now env.registry.dialTimeout c (a.step env c signal).1
      (who (a.step env c signal).2) := by
  cases h with
  | alone => exact .acquire env signal rfl rfl
  | attempt k =>
    have hcall := StepAt.call (c := c) (k := k.during a) (h := Call.afterAcquisition_ne a)
      env (.connect signal) rfl rfl
    cases a with
    | finished r => cases r <;> exact hcall
    | _ => exact hcall

theorem acquisition? (h : Acquires who) (hd : a.isDialing) : (who a).acquisition? = some a := by
  cases h with
  | alone => rfl
  | attempt k =>
    cases a with
    | resolving => rfl
    | dialing address expires => rfl
    | _ => cases hd

theorem phase_entering (h : Acquires who) : (who .entering).phase = .entering := by
  cases h <;> rfl

end User.Acquires

structure Account where
  found : Option Shared
  lookup : Option (Nat × Except Error String)
  dial : Option (Except Error Link)
  gaveUp : Option Nat

namespace Account

def note (x : Timeline) (a : Acquisition) (heard : Heard) (met : Account) : Account :=
  match a, heard with
  | .entering, _ => { met with found := some x.shared }
  | .resolving, .reply (.resolved r) => { met with lookup := some (x.now, r) }
  | .dialing .., .reply (.dialed r) => { met with dial := some r }
  | .dialing .., .limit _ => { met with gaveUp := some x.now }
  | _, _ => met

theorem found_note {x : Timeline} {a : Acquisition} {heard : Heard} {met : Account}
    (hd : a.isDialing) : (met.note x a heard).found = met.found := by
  unfold note
  split
  · cases hd
  · rfl
  · rfl
  · rfl
  · rfl

def Busy (i : Nat) (met : Account) : Prop := ∃ w j, met.found = some w ∧ j ≠ i ∧ w.IsDialing j

def Fails (met : Account) : Prop :=
  (∃ t e, met.lookup = some (t, .error e)) ∨ (∃ e, met.dial = some (.error e)) ∨
    met.gaveUp.isSome

end Account

namespace Acquisition

/-- Where an acquisition stands after what it has met with. -/
inductive Stands (cluster : ClusterId) (limit : Nat) : Acquisition → Account → Prop
  | entering : Stands cluster limit .entering ⟨none, none, none, none⟩
  | kept {w : Shared} {link : Link} : w.connection = .ready link →
      Stands cluster limit (.finished (.ok link)) ⟨some w, none, none, none⟩
  | refused {w : Shared} : w.connection = .dialing →
      Stands cluster limit (.finished (.error (busy cluster))) ⟨some w, none, none, none⟩
  | resolving {w : Shared} : w.connection = .idle →
      Stands cluster limit .resolving ⟨some w, none, none, none⟩
  | unfound {w : Shared} {t : Nat} {e : Error} : w.connection = .idle →
      Stands cluster limit (.finished (.error (unresolved cluster e)))
        ⟨some w, some (t, .error e), none, none⟩
  | dialing {w : Shared} {t : Nat} {address : String} : w.connection = .idle →
      Stands cluster limit (.dialing address (t + limit))
        ⟨some w, some (t, .ok address), none, none⟩
  | opened {w : Shared} {t : Nat} {address : String} {link : Link} : w.connection = .idle →
      Stands cluster limit (.finished (.ok link))
        ⟨some w, some (t, .ok address), some (.ok link), none⟩
  | failed {w : Shared} {t : Nat} {address : String} {e : Error} : w.connection = .idle →
      Stands cluster limit (.finished (.error (undialed address e)))
        ⟨some w, some (t, .ok address), some (.error e), none⟩
  | late {w : Shared} {t : Nat} {address : String} : w.connection = .idle →
      Stands cluster limit (.finished (.error (timedOut address)))
        ⟨some w, some (t, .ok address), none, some (t + limit)⟩

variable {cluster : ClusterId} {limit : Nat} {a : Acquisition} {met : Account}

theorem Stands.step {x : Timeline} {env : Env} {heard : Heard} (h : a.Stands cluster limit met)
    (hcluster : env.cluster = cluster) (hnow : env.now = x.now)
    (hlimit : env.registry.dialTimeout = limit)
    (hexpires : ∀ address expires, a = .dialing address expires → x.now ≤ expires)
    (hends : (Wait.ofAcquisition cluster none a).Ends x.now heard) :
    (a.step env x.shared.connection heard.acquisition).2.Stands cluster limit
      (met.note x a heard) := by
  subst hcluster hlimit
  cases h with
  | entering =>
    cases heard with
    | proceed =>
      cases hc : x.shared.connection with
      | idle => exact .resolving hc
      | dialing => exact .refused hc
      | ready link => exact .kept hc
    | _ => cases hends
  | resolving hw =>
    cases heard with
    | reply r =>
      cases r with
      | resolved result =>
        cases result with
        | ok address =>
          rw [Heard.acquisition, step, hnow]
          exact .dialing hw
        | error e => exact .unfound hw
      | _ => cases hends
    | limit cause =>
      obtain ⟨due, -, hmem⟩ := hends
      cases hmem
    | proceed => cases hends
  | @dialing w t address hw =>
    cases heard with
    | reply r =>
      cases r with
      | dialed result =>
        cases result with
        | ok link => exact .opened hw
        | error e => exact .failed hw
      | _ => cases hends
    | limit cause =>
      obtain ⟨due, hdue, hmem⟩ := hends
      obtain ⟨-, rfl⟩ := Prod.mk.inj (List.mem_singleton.1 hmem)
      have hlate : x.now = t + env.registry.dialTimeout :=
        Nat.le_antisymm (hexpires address _ rfl) hdue
      rw [Account.note, hlate]
      exact .late hw
    | proceed => cases hends
  | _ => cases hends

end Acquisition

namespace Timeline

inductive Pursues (cluster : ClusterId) (limit : Nat) (who : Acquisition → User) (i : Nat) :
    Timeline → Acquisition → Account → Prop
  | begins {x : Timeline} : x.Reachable cluster limit → x.shared.users[i]? = some (who .entering) →
      Pursues cluster limit who i x .entering ⟨none, none, none, none⟩
  | join {x : Timeline} {a : Acquisition} {met : Account} {u : User} :
      Pursues cluster limit who i x a met → u.Comes →
      Pursues cluster limit who i { x with shared := x.shared.join u } a met
  | pass {x : Timeline} {a : Acquisition} {met : Account} (t : Nat) :
      Pursues cluster limit who i x a met → x.now ≤ t →
      (∀ u ∈ x.shared.users, u.Lasts cluster t) →
      Pursues cluster limit who i { x with now := t } a met
  | other {x : Timeline} {a : Acquisition} {met : Account} {j : Nat} {u u' : User}
      {c : Connection} : Pursues cluster limit who i x a met → j ≠ i →
      x.shared.users[j]? = some u → u.StepAt x.now limit x.shared.connection c u' →
      Pursues cluster limit who i (x.move j u u' c) a met
  | own {x : Timeline} {a : Acquisition} {met : Account} (env : Env) (heard : Heard) :
      Pursues cluster limit who i x a met → env.cluster = cluster → env.now = x.now →
      env.registry.dialTimeout = limit →
      (Wait.ofAcquisition cluster none a).Ends x.now heard →
      Pursues cluster limit who i
        (x.move i (who a) (who (a.step env x.shared.connection heard.acquisition).2)
          (a.step env x.shared.connection heard.acquisition).1)
        (a.step env x.shared.connection heard.acquisition).2 (met.note x a heard)

namespace Pursues

variable {cluster : ClusterId} {limit i : Nat} {who : Acquisition → User} {x : Timeline}
  {a : Acquisition} {met : Account}

theorem reachable (h : x.Pursues cluster limit who i a met) (hwho : User.Acquires who) :
    x.Reachable cluster limit ∧ x.shared.users[i]? = some (who a) := by
  induction h with
  | begins hx hi => exact ⟨hx, hi⟩
  | join _ hu ih =>
    have hlt := (List.getElem?_eq_some_iff.1 ih.2).1
    exact ⟨ih.1.join hu, (List.getElem?_append_left hlt).trans ih.2⟩
  | pass t _ hle hlasts ih => exact ⟨ih.1.pass t hle hlasts, ih.2⟩
  | other _ hij hu hs ih => exact ⟨ih.1.move hu hs, (List.getElem?_set_ne hij).trans ih.2⟩
  | @own x a met env heard _ hcluster hnow hlimit hends ih =>
    have hlt := (List.getElem?_eq_some_iff.1 ih.2).1
    have hs := hwho.step env x.shared.connection a heard.acquisition
    rw [hnow, hlimit] at hs
    exact ⟨ih.1.move ih.2 hs, List.getElem?_set_self hlt⟩

theorem stands (h : x.Pursues cluster limit who i a met) (hwho : User.Acquires who) :
    a.Stands cluster limit met := by
  induction h with
  | begins => exact .entering
  | join | pass | other => assumption
  | @own x a met env heard hx hcluster hnow hlimit hends ih =>
    refine ih.step hcluster hnow hlimit ?_ hends
    rintro address expires rfl
    obtain ⟨hreachable, hi⟩ := hx.reachable hwho
    obtain ⟨⟨t, -, -, -, -, hle⟩, -⟩ :=
      hreachable.timely.dialing hi (hwho.acquisition? rfl) rfl
    exact hle

theorem found (h : x.Pursues cluster limit who i a met) (hwho : User.Acquires who) :
    ∀ w, met.found = some w → w.Guarded ∧ ¬ w.IsDialing i := by
  induction h with
  | begins => nofun
  | join | pass | other => assumption
  | @own x a met env heard hx hcluster hnow hlimit hends ih =>
    by_cases hd : a.isDialing
    · rw [Account.found_note hd]
      exact ih
    · cases a with
      | entering =>
        intro w hw
        obtain rfl : x.shared = w := Option.some.inj hw
        obtain ⟨hreachable, hi⟩ := hx.reachable hwho
        refine ⟨hreachable.shared.guarded, ?_⟩
        rintro ⟨p, hp, hdialing⟩
        obtain rfl : (who .entering).phase = p := by simpa [Shared.phases, hi] using hp
        rw [hwho.phase_entering] at hdialing
        cases hdialing
      | finished r => cases hends
      | _ => exact absurd rfl hd

end Pursues

end Timeline

namespace Acquisition

/-- What an acquisition of user `i` promises when it ends with `result`, in view of what it has met
with. -/
structure Contract (cluster : ClusterId) (limit i : Nat) (result : Except Error Link)
    (met : Account) : Prop where
  link : ∀ link, result = .ok link ↔
    (∃ w, met.found = some w ∧ w.connection = .ready link) ∨ met.dial = some (.ok link)
  busy : met.Busy i → result = .error (busy cluster)
  unresolved : ∀ t e, met.lookup = some (t, .error e) → result = .error (unresolved cluster e)
  undialed : ∀ e, met.dial = some (.error e) →
    ∃ t address, met.lookup = some (t, .ok address) ∧ result = .error (undialed address e)
  timedOut : ∀ t', met.gaveUp = some t' → ∃ t address, met.lookup = some (t, .ok address) ∧
    t' = t + limit ∧ met.dial = none ∧ result = .error (timedOut address)
  error : ∀ e, result = .error e → e.kind = .resourceExhausted ∧ met.Busy i ∨
    e.kind = .unavailable ∧ met.Fails ∨
      e.kind ≠ .deadlineExceeded ∧ met.dial = some (.error e)
  retried : ∀ {α : Type} (k : Call α) (env : Env) (c : Connection) (e : Error),
    result = .error e → met.dial ≠ some (.error e) ∨ e.isRetryable →
    Call.leavesNoTime k.deadline env.now (k.backoff.pause env.draw) = false →
    ((k.during (.finished result)).step env c .proceed).2.stage =
      .pausing (env.now + k.backoff.pause env.draw)
  permanent : ∀ {α : Type} (k : Call α) (env : Env) (c : Connection) (e : Error),
    met.dial = some (.error e) → ¬ e.isRetryable → e.kind ≠ .deadlineExceeded →
    ((k.during (.finished result)).step env c .proceed).2.stage = .finished (.error e)

section Ended

variable {cluster : ClusterId} {limit i : Nat} {met : Account} {result : Except Error Link}
  {e : Error}

theorem Stands.link_iff (h : (finished result).Stands cluster limit met) (link : Link) :
    result = .ok link ↔
      (∃ w, met.found = some w ∧ w.connection = .ready link) ∨ met.dial = some (.ok link) := by
  cases h <;> simp_all

theorem Stands.busy_of (h : (finished result).Stands cluster limit met)
    (hfound : ∀ w, met.found = some w → w.Guarded ∧ ¬ w.IsDialing i) (hbusy : met.Busy i) :
    result = .error (busy cluster) := by
  obtain ⟨w, j, hw, -, hj⟩ := hbusy
  have hc := (hfound w hw).1.dialing hj
  cases h <;> simp_all

theorem Stands.error_cases (h : (finished (.error e)).Stands cluster limit met)
    (hfound : ∀ w, met.found = some w → w.Guarded ∧ ¬ w.IsDialing i) :
    e.kind = .resourceExhausted ∧ met.Busy i ∨ e.kind = .unavailable ∧ met.Fails ∨
      e.kind ≠ .deadlineExceeded ∧ met.dial = some (.error e) := by
  cases h with
  | @refused w hc =>
    obtain ⟨hguarded, hown⟩ := hfound w rfl
    obtain ⟨j, hj⟩ := hguarded.someone hc
    refine .inl ⟨rfl, w, j, rfl, ?_, hj⟩
    rintro rfl
    exact hown hj
  | @unfound w t e hc => exact .inr (.inl ⟨rfl, .inl ⟨t, e, rfl⟩⟩)
  | @failed w t address e hc =>
    by_cases hlate : e.kind = .deadlineExceeded
    · refine .inr (.inl ⟨?_, .inr (.inl ⟨e, rfl⟩)⟩)
      rw [undialed, if_pos hlate]
      rfl
    · rw [undialed, if_neg hlate]
      exact .inr (.inr ⟨hlate, rfl⟩)
  | late => exact .inr (.inl ⟨rfl, .inr (.inr rfl)⟩)

end Ended

end Acquisition

namespace Timeline

variable {cluster : ClusterId} {limit i : Nat} {who : Acquisition → User} {x : Timeline}
  {met : Account} {result : Except Error Link}

/-- An acquisition that ends does so with a link, refused as another one dials, or with the registry
unavailable; or it ends with what the dialer fails with, as it is. -/
theorem Pursues.contract (h : x.Pursues cluster limit who i (.finished result) met)
    (hwho : User.Acquires who) : Acquisition.Contract cluster limit i result met := by
  have hstands := h.stands hwho
  have hfound := h.found hwho
  constructor
  · exact hstands.link_iff
  · exact hstands.busy_of hfound
  · intro t e hlookup
    cases hstands <;> simp_all
  · intro e hdial
    cases hstands with
    | failed =>
      obtain rfl := Except.error.inj (Option.some.inj hdial)
      exact ⟨_, _, rfl, rfl⟩
    | _ => cases hdial
  · intro t' hgaveUp
    cases hstands with
    | late =>
      obtain rfl := Option.some.inj hgaveUp
      exact ⟨_, _, rfl, rfl, rfl, rfl⟩
    | _ => cases hgaveUp
  · rintro e rfl
    exact hstands.error_cases hfound
  · rintro α k env c e rfl hagain htime
    have hretryable : e.isRetryable := by
      obtain ⟨hk, -⟩ | ⟨hk, -⟩ | ⟨-, hdial⟩ := hstands.error_cases hfound
      · rw [Error.isRetryable, hk]
        rfl
      · rw [Error.isRetryable, hk]
        rfl
      · exact hagain.resolve_left (absurd hdial)
    rw [Call.settle_unused (e := e) rfl, Call.retry, if_pos hretryable]
    simp only [Call.during, htime]
    rfl
  · intro α k env c e hdial hpermanent hlate
    cases hstands with
    | @failed w t address e' =>
      obtain rfl : e = e' := Except.error.inj (Option.some.inj hdial).symm
      rw [Acquisition.undialed, if_neg hlate, Call.settle_unused (e := e) rfl, Call.retry,
        if_neg hpermanent]
    | _ => cases hdial

def noHost : Error := .notFound "no host"

def missed : Timeline :=
  ⟨7, ⟨.idle, [.acquire (.finished (.error noHost))],
    [.ended 0 none noHost, .dials 0 "a", .resolves 0]⟩, 0, some 5⟩

def missing : Account :=
  ⟨some ⟨.idle, [.acquire .entering], []⟩, some (5, .ok "a"), some (.error noHost), none⟩

theorem pursues_missed :
    missed.Pursues ⟨"c"⟩ 20 .acquire 0 (.finished (.error noHost)) missing := by
  have hcome : Reachable ⟨"c"⟩ 20 ⟨0, ⟨.idle, [.acquire .entering], []⟩, 0, none⟩ :=
    (Reachable.start 0).join .acquire
  have hbegins : Pursues ⟨"c"⟩ 20 .acquire 0 _ .entering _ := .begins hcome rfl
  have htaken := hbegins.own (moment 0) .proceed rfl rfl rfl trivial
  have hwaiting : ∀ u ∈ [User.acquire .resolving], u.Lasts ⟨"c"⟩ 5 := by
    intro u hu
    obtain rfl := List.mem_singleton.1 hu
    nofun
  have hlearned := (htaken.pass 5 (by decide) hwaiting).own (moment 5)
    (.reply (.resolved (.ok "a"))) rfl rfl rfl trivial
  have hdialing : ∀ u ∈ [User.acquire (.dialing "a" 25)], u.Lasts ⟨"c"⟩ 7 := by
    intro u hu
    obtain rfl := List.mem_singleton.1 hu
    simp [User.Lasts, Wait.ofAcquisition, Wait.Lasts, Wait.deadline]
  exact (hlearned.pass 7 (by decide) hdialing).own (moment 7)
    (.reply (.dialed (.error noHost))) rfl rfl rfl trivial

theorem contract_missed :
    missed.Pursues ⟨"c"⟩ 20 .acquire 0 (.finished (.error noHost)) missing ∧
      Acquisition.Contract ⟨"c"⟩ 20 0 (.error noHost) missing :=
  ⟨pursues_missed, pursues_missed.contract .alone⟩

/-- What the dialer fails with may be neither of the two errors. -/
theorem not_only_unavailable : ¬ ∀ (x : Timeline) (met : Account) (e : Error),
    x.Pursues ⟨"c"⟩ 20 .acquire 0 (.finished (.error e)) met →
      e.kind = .resourceExhausted ∨ e.kind = .unavailable := by
  intro h
  obtain hk | hk := h missed missing noHost pursues_missed <;> cases hk

end Timeline

end ModelRegistry
