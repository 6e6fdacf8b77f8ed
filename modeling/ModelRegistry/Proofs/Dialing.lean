import ModelRegistry.Proofs.SingleFlight
import ModelRegistry.Proofs.Waiting

namespace ModelRegistry

open Simulation (Wait)

namespace User

def Lasts (cluster : ClusterId) (t : Nat) : User → Prop
  | acquire a => (Wait.ofAcquisition cluster none a).Lasts t
  | call k _ => ∃ operation, (Wait.ofCall cluster operation k).Lasts t
  | poison _ | closing _ => False
  | gone => True

def deadline? : User → Option Nat
  | call k _ => k.deadline
  | _ => none

def acquisition? : User → Option Acquisition
  | acquire a => some a
  | call k _ =>
    match k.stage with
    | .acquiring a => some a
    | _ => none
  | _ => none

inductive StepAt (now limit : Nat) (c : Connection) : User → Connection → User → Prop
  | acquire {a : Acquisition} (env : Env) (signal : Acquisition.Signal) : env.now = now →
      env.registry.dialTimeout = limit →
      StepAt now limit c (.acquire a) (a.step env c signal).1 (.acquire (a.step env c signal).2)
  | call {α : Type} {k : Call α} {h : k.Underway} (env : Env) (signal : Call.Signal α) :
      env.now = now → env.registry.dialTimeout = limit →
      StepAt now limit c (.call k h) (k.step env c signal).1
        (.call (k.step env c signal).2 (h.step env c signal))
  | poison {target : Option Link} :
      StepAt now limit c (.poison target) (c.discard (unwanted target)).1
        (afterDiscard (c.discard (unwanted target)).2)
  | close {link : Link} : StepAt now limit c (.closing link) c .gone
  | drop {u : User} : u.phase.waits → StepAt now limit c u (u.cancel c) .gone

variable {now limit : Nat} {c c' : Connection} {u u' : User} {a : Acquisition}

theorem StepAt.step (h : u.StepAt now limit c c' u') : u.Step c c' u' := by
  cases h with
  | acquire env signal => exact .acquire env signal
  | call env signal => exact .call env signal
  | poison => exact .poison
  | close => exact .close
  | drop hwaits => exact .drop hwaits

theorem acquisition?_of_isDialing (h : u.phase.isDialing) :
    ∃ a, u.acquisition? = some a ∧ a.isDialing := by
  cases u with
  | acquire a => exact ⟨a, rfl, by rwa [← Acquisition.isDialing_phase]⟩
  | call k underway =>
    obtain ⟨deadline, backoff, stage⟩ := k
    cases stage with
    | acquiring a => exact ⟨a, rfl, by rwa [← Acquisition.isDialing_phase]⟩
    | _ => cases h
  | _ => cases h

theorem phase_of_acquisition? (h : u.acquisition? = some a) :
    u.phase = a.phase := by
  cases u with
  | acquire a' =>
    obtain rfl : a' = a := Option.some.inj h
    rfl
  | call k underway =>
    obtain ⟨deadline, backoff, stage⟩ := k
    cases stage with
    | acquiring a' =>
      obtain rfl : a' = a := Option.some.inj h
      rfl
    | _ => cases h
  | _ => cases h

end User

namespace Acquisition

inductive Turns (now limit : Nat) : Acquisition → Acquisition → Prop
  | take : Turns now limit .entering .resolving
  | stay {a : Acquisition} : a.isDialing → Turns now limit a a
  | learn {address : String} : Turns now limit .resolving (.dialing address (now + limit))

theorem step_turns {env : Env} {c : Connection} {a : Acquisition} {signal : Signal}
    (h : (a.step env c signal).2.isDialing) :
    a.Turns env.now env.registry.dialTimeout (a.step env c signal).2 := by
  cases a with
  | entering =>
    cases signal with
    | proceed =>
      cases c with
      | idle => exact .take
      | _ => cases h
    | _ => cases h
  | resolving =>
    cases signal with
    | resolved r =>
      cases r with
      | ok address => exact .learn
      | error e => cases h
    | _ => exact .stay rfl
  | dialing address expires =>
    cases signal with
    | dialed r => cases r <;> cases h
    | expired => cases h
    | _ => exact .stay rfl
  | finished r => cases h

end Acquisition

namespace Call

variable {α : Type}

theorem afterAcquisition_eq {a a' : Acquisition}
    (h : (afterAcquisition a : Stage α) = .acquiring a') : a = a' := by
  cases a with
  | finished r => cases r <;> cases h
  | _ => exact Stage.acquiring.inj h

theorem ne_retry {env : Env} (k : Call α) {e : Error} {a : Acquisition}
    (h : (k.retry env e).stage = .acquiring a) (hd : a.isDialing) : False := by
  have hphase : (k.retry env e).stage.phase = .away := phase_retry env k e
  rw [h] at hphase
  rw [← Acquisition.isDialing_phase, show a.phase = .away from hphase] at hd
  cases hd

theorem step_turns {env : Env} {c : Connection} {k : Call α} {signal : Signal α} {a' : Acquisition}
    (h : (k.step env c signal).2.stage = .acquiring a') (hd : a'.isDialing) :
    (k.step env c signal).2.deadline = k.deadline ∧
      ∃ a, k.stage = .acquiring a ∧ a.Turns env.now env.registry.dialTimeout a' := by
  obtain ⟨deadline, backoff, stage⟩ := k
  cases stage with
  | acquiring a =>
    cases signal with
    | proceed =>
      obtain rfl := afterAcquisition_eq h
      exact ⟨rfl, a, rfl, Acquisition.step_turns hd⟩
    | connect signal =>
      obtain rfl := afterAcquisition_eq h
      exact ⟨rfl, a, rfl, Acquisition.step_turns hd⟩
    | answered r =>
      obtain rfl : a = a' := Stage.acquiring.inj h
      exact ⟨rfl, a, rfl, .stay hd⟩
    | cutOff => cases h
  | operating link =>
    cases signal with
    | answered r => cases r <;> cases h
    | _ => cases h
  | failed used e =>
    cases signal with
    | proceed =>
      unfold step at h
      simp only at h
      split at h
      next => cases h
      next => exact (ne_retry _ h hd).elim
    | _ => cases h
  | closing link e =>
    cases signal with
    | proceed => exact (ne_retry _ h hd).elim
    | _ => cases h
  | pausing resumes =>
    cases signal with
    | proceed =>
      obtain rfl := Stage.acquiring.inj h
      cases hd
    | _ => cases h
  | finished r => cases h

end Call

namespace User

theorem StepAt.turns {now limit : Nat} {c c' : Connection} {u u' : User} {a' : Acquisition}
    (h : u.StepAt now limit c c' u') (ha' : u'.acquisition? = some a') (hd : a'.isDialing) :
    u'.deadline? = u.deadline? ∧ ∃ a, u.acquisition? = some a ∧ a.Turns now limit a' := by
  cases h with
  | @acquire a env signal hnow hlimit =>
    obtain rfl := Option.some.inj ha'
    subst hnow hlimit
    exact ⟨rfl, a, rfl, Acquisition.step_turns hd⟩
  | @call α k underway env signal hnow hlimit =>
    subst hnow hlimit
    have hstage : (k.step env c signal).2.stage = .acquiring a' := by
      unfold acquisition? at ha'
      simp only at ha'
      split at ha'
      next a hs => rw [hs, Option.some.inj ha']
      next => cases ha'
    obtain ⟨hdeadline, a, ha, hturns⟩ := Call.step_turns hstage hd
    refine ⟨hdeadline, a, ?_, hturns⟩
    simp [acquisition?, ha]
  | poison =>
    unfold afterDiscard at ha'
    split at ha' <;> cases ha'
  | close => cases ha'
  | drop => cases ha'

end User

structure Timeline where
  now : Nat
  shared : Shared
  since : Nat
  learned : Option Nat

namespace Timeline

def isDials : Event → Bool
  | .dials .. => true
  | _ => false

def move (x : Timeline) (i : Nat) (u u' : User) (c : Connection) : Timeline where
  now := x.now
  shared := ⟨c, x.shared.users.set i u', u.phase.news i u'.phase ++ x.shared.history⟩
  since := if x.shared.connection = .dialing then x.since else x.now
  learned :=
    if x.shared.connection = .dialing then
      if (u.phase.news i u'.phase).any isDials then some x.now else x.learned
    else none

inductive Reachable (cluster : ClusterId) (limit : Nat) : Timeline → Prop
  | start (now : Nat) : Reachable cluster limit ⟨now, ⟨.idle, [], []⟩, now, none⟩
  | join {x : Timeline} {u : User} : Reachable cluster limit x → u.Comes →
      Reachable cluster limit { x with shared := x.shared.join u }
  | pass {x : Timeline} (t : Nat) : Reachable cluster limit x → x.now ≤ t →
      (∀ u ∈ x.shared.users, u.Lasts cluster t) → Reachable cluster limit { x with now := t }
  | move {x : Timeline} {i : Nat} {u u' : User} {c : Connection} : Reachable cluster limit x →
      x.shared.users[i]? = some u → u.StepAt x.now limit x.shared.connection c u' →
      Reachable cluster limit (x.move i u u' c)

variable {cluster : ClusterId} {limit : Nat} {x : Timeline}

theorem Reachable.shared (h : x.Reachable cluster limit) :
    x.shared.Reachable User.Comes anyLink := by
  induction h with
  | start => exact .start
  | join _ hu ih => exact ih.join hu
  | pass => assumption
  | move _ hu hs ih => exact ih.move _ hu hs.step fun _ _ => trivial

def Places (limit : Nat) (x : Timeline) : Acquisition → Prop
  | .resolving => x.learned = none
  | .dialing _ expires => ∃ t, x.learned = some t ∧ x.since ≤ t ∧ t ≤ x.now ∧
      expires = t + limit ∧ x.now ≤ expires
  | _ => True

structure Timely (limit : Nat) (x : Timeline) : Prop where
  since : x.since ≤ x.now
  dialing : ∀ {j : Nat} {u : User} {a : Acquisition}, x.shared.users[j]? = some u →
    u.acquisition? = some a → a.isDialing →
      x.Places limit a ∧ ∀ d, u.deadline? = some d → x.now ≤ max x.since d

theorem Timely.start (now : Nat) : Timely limit ⟨now, ⟨.idle, [], []⟩, now, none⟩ :=
  ⟨Nat.le_refl now, nofun⟩

theorem Timely.join {u : User} (h : x.Timely limit) (hu : u.Comes) :
    { x with shared := x.shared.join u }.Timely limit := by
  refine ⟨h.since, ?_⟩
  intro j u' a hj ha hd
  by_cases hlt : j < x.shared.users.length
  · have hold : x.shared.users[j]? = some u' := by
      rwa [← List.getElem?_append_left hlt]
    exact h.dialing hold ha hd
  · have hnew : u' = u := by
      have hmem := List.mem_of_getElem? ((List.getElem?_append_right (by omega)).symm.trans hj)
      exact List.mem_singleton.1 hmem
    subst hnew
    cases hu with
    | acquire =>
      obtain rfl := Option.some.inj ha
      cases hd
    | call =>
      obtain rfl := Option.some.inj ha
      cases hd
    | poison => cases ha

theorem lasts_acquisition {outer : Option Nat} {t : Nat} {a : Acquisition} (hd : a.isDialing)
    (h : (Wait.ofAcquisition cluster outer a).Lasts t) :
    (∀ address expires, a = .dialing address expires → t ≤ expires) ∧
      ∀ d, outer = some d → t ≤ d := by
  cases a with
  | resolving =>
    refine ⟨?_, ?_⟩
    · rintro address expires ⟨⟩
    · intro d hd
      exact Wait.le_of_lasts_deadline h hd
  | dialing address expires =>
    refine ⟨?_, ?_⟩
    · rintro address' expires' ⟨⟩
      exact h _ List.mem_cons_self
    · intro d hd
      exact Wait.le_of_lasts_deadline (fun l hl => h l (List.mem_cons_of_mem _ hl)) hd
  | _ => cases hd

theorem lasts_user {t : Nat} {u : User} {a : Acquisition} (ha : u.acquisition? = some a)
    (hd : a.isDialing) (h : u.Lasts cluster t) :
    (∀ address expires, a = .dialing address expires → t ≤ expires) ∧
      ∀ d, u.deadline? = some d → t ≤ d := by
  cases u with
  | acquire a' =>
    obtain rfl := Option.some.inj ha
    exact lasts_acquisition hd h
  | call k underway =>
    obtain ⟨deadline, backoff, stage⟩ := k
    cases stage with
    | acquiring a' =>
      obtain rfl := Option.some.inj ha
      obtain ⟨operation, h⟩ := h
      exact lasts_acquisition hd h
    | _ => cases ha
  | _ => cases ha

theorem Timely.pass {t : Nat} (h : x.Timely limit) (hle : x.now ≤ t)
    (hlasts : ∀ u ∈ x.shared.users, u.Lasts cluster t) : { x with now := t }.Timely limit := by
  refine ⟨Nat.le_trans h.since hle, ?_⟩
  intro j u a hj ha hd
  obtain ⟨hexpires, hdeadline⟩ := lasts_user ha hd (hlasts u (List.mem_of_getElem? hj))
  obtain ⟨hplaces, -⟩ := h.dialing hj ha hd
  constructor
  · cases a with
    | resolving => exact hplaces
    | dialing address expires =>
      obtain ⟨s, hs, hsince, hnow, heq, -⟩ := hplaces
      exact ⟨s, hs, hsince, Nat.le_trans hnow hle, heq, hexpires address expires rfl⟩
    | _ => trivial
  · intro d hud
    exact Nat.le_trans (hdeadline d hud) (Nat.le_max_right ..)

theorem isDialing_of_user {w : Shared} {j : Nat} {u : User} {a : Acquisition}
    (hj : w.users[j]? = some u) (ha : u.acquisition? = some a) (hd : a.isDialing) :
    w.IsDialing j := by
  refine ⟨u.phase, ?_, ?_⟩
  · simp [Shared.phases, hj]
  · rw [User.phase_of_acquisition? ha, Acquisition.isDialing_phase]
    exact hd

theorem isDialing_of_dials {p p' : Phase} {i : Nat} (h : (p.news i p').any isDials) :
    p.isDialing := by
  cases p with
  | resolving => rfl
  | dialing address => rfl
  | _ => cases p' <;> simp [Phase.news, isDials] at h

theorem move_of_dialing {i : Nat} {u u' : User} {c : Connection}
    (hc : x.shared.connection = .dialing) (hno : (u.phase.news i u'.phase).any isDials = false) :
    (x.move i u u' c).since = x.since ∧ (x.move i u u' c).learned = x.learned := by
  simp [move, hc, hno]

theorem Places.of_eq {y : Timeline} {a : Acquisition} (h : x.Places limit a)
    (hnow : y.now = x.now) (hsince : y.since = x.since) (hlearned : y.learned = x.learned) :
    y.Places limit a := by
  cases a with
  | resolving => simpa [Places, hlearned] using h
  | dialing address expires => simpa [Places, hnow, hsince, hlearned] using h
  | _ => trivial

theorem any_isDials_of_other {i j : Nat} {u u' : User} (hguarded : x.shared.Guarded)
    (hu : x.shared.users[i]? = some u) (hj : x.shared.IsDialing j) (hij : i ≠ j) :
    (u.phase.news i u'.phase).any isDials = false := by
  apply Bool.eq_false_iff.2
  intro hdials
  apply hij
  exact hguarded.alone ⟨u.phase, by simp [Shared.phases, hu], isDialing_of_dials hdials⟩ hj

theorem Timely.turns {i : Nat} {u u' : User} {c : Connection} {a a' : Acquisition}
    (h : x.Timely limit) (hguarded : x.shared.Guarded) (hu : x.shared.users[i]? = some u)
    (hs : u.StepAt x.now limit x.shared.connection c u') (ha : u.acquisition? = some a)
    (ha' : u'.acquisition? = some a') (hturns : a.Turns x.now limit a') :
    (x.move i u u' c).Places limit a' ∧
      ∀ d, u.deadline? = some d → x.now ≤ max (x.move i u u' c).since d := by
  have hphase := User.phase_of_acquisition? ha
  have hphase' := User.phase_of_acquisition? ha'
  cases hturns with
  | take =>
    have hidle : x.shared.connection ≠ .dialing := by
      have hmoved := hs.step.moved
      rw [hphase, hphase'] at hmoved
      cases hmoved with
      | take hidle => simp [hidle]
    constructor
    · simp [Places, Timeline.move, hidle]
    · intro d hud
      simp only [Timeline.move, hidle, if_false]
      exact Nat.le_max_left x.now d
  | stay hd =>
    have hc := hguarded.dialing (isDialing_of_user hu ha hd)
    have hno : (u.phase.news i u'.phase).any isDials = false := by
      rw [hphase, hphase', Phase.news_self]
      rfl
    obtain ⟨hsince, hlearned⟩ := move_of_dialing (c := c) hc hno
    obtain ⟨hplaces, hdeadline⟩ := h.dialing hu ha hd
    rw [hsince]
    exact ⟨hplaces.of_eq rfl hsince hlearned, hdeadline⟩
  | learn =>
    have hc := hguarded.dialing (isDialing_of_user hu ha rfl)
    have hdials : (u.phase.news i u'.phase).any isDials = true := by
      rw [hphase, hphase']
      rfl
    obtain ⟨-, hdeadline⟩ := h.dialing hu ha rfl
    simp only [Places, Timeline.move, hc, hdials, if_true]
    exact ⟨⟨x.now, rfl, h.since, Nat.le_refl _, rfl, Nat.le_add_right ..⟩, hdeadline⟩

theorem Timely.move {i : Nat} {u u' : User} {c : Connection} (h : x.Timely limit)
    (hguarded : x.shared.Guarded) (hu : x.shared.users[i]? = some u)
    (hs : u.StepAt x.now limit x.shared.connection c u') : (x.move i u u' c).Timely limit := by
  have hi : i < x.shared.users.length := (List.getElem?_eq_some_iff.1 hu).1
  constructor
  · unfold Timeline.move
    simp only
    split
    · exact h.since
    · exact Nat.le_refl _
  intro j v a' hj ha' hd
  by_cases hij : i = j
  · subst hij
    obtain rfl : u' = v := by simpa [Timeline.move, hi] using hj
    obtain ⟨hdeadline, a, ha, hturns⟩ := hs.turns ha' hd
    rw [hdeadline]
    exact h.turns hguarded hu hs ha ha' hturns
  · have hold : x.shared.users[j]? = some v := by
      simpa [Timeline.move, List.getElem?_set_ne hij] using hj
    have hdialing := isDialing_of_user hold ha' hd
    have hno : (u.phase.news i u'.phase).any isDials = false :=
      any_isDials_of_other hguarded hu hdialing hij
    obtain ⟨hsince, hlearned⟩ := move_of_dialing (c := c) (hguarded.dialing hdialing) hno
    obtain ⟨hplaces, hdeadline⟩ := h.dialing hold ha' hd
    rw [hsince]
    exact ⟨hplaces.of_eq rfl hsince hlearned, hdeadline⟩

theorem Reachable.timely (h : x.Reachable cluster limit) : x.Timely limit := by
  induction h with
  | start now => exact .start now
  | join _ hu ih => exact ih.join hu
  | pass t _ hle hlasts ih => exact ih.pass hle hlasts
  | move hr hu hs ih => exact ih.move hr.shared.guarded hu hs

/-- How long a connection has been dialing at most: as long as its lookup takes, the time limit of
dials in addition, and not after the deadline of the call that dials. -/
structure Limited (limit : Nat) (x : Timeline) : Prop where
  held : x.shared.connection = .dialing → ∃ i u a, x.shared.users[i]? = some u ∧
    u.acquisition? = some a ∧ (∀ j, x.shared.IsDialing j ↔ j = i) ∧
      (a = .resolving ∧ x.learned = none ∨
        ∃ address t, a = .dialing address (t + limit) ∧ x.learned = some t)
  since : x.since ≤ x.now
  learned : x.shared.connection = .dialing → ∀ t, x.learned = some t →
    x.since ≤ t ∧ t ≤ x.now ∧ x.now ≤ t + limit
  deadline : ∀ (i : Nat) (u : User) (d : Nat), x.shared.users[i]? = some u →
    u.phase.isDialing → u.deadline? = some d → x.now ≤ max x.since d

theorem user_of_isDialing {w : Shared} {j : Nat} (h : w.IsDialing j) :
    ∃ u a, w.users[j]? = some u ∧ u.acquisition? = some a ∧ a.isDialing := by
  obtain ⟨p, hp, hd⟩ := h
  obtain ⟨u, hu, rfl⟩ : ∃ u, w.users[j]? = some u ∧ u.phase = p := by
    simpa [Shared.phases] using hp
  obtain ⟨a, ha, hda⟩ := User.acquisition?_of_isDialing hd
  exact ⟨u, a, hu, ha, hda⟩

theorem Reachable.dialing_limited (h : x.Reachable cluster limit) : x.Limited limit := by
  have hguarded := h.shared.guarded
  have htimely := h.timely
  constructor
  · intro hc
    obtain ⟨i, hi⟩ := hguarded.someone hc
    obtain ⟨u, a, hu, ha, hd⟩ := user_of_isDialing hi
    refine ⟨i, u, a, hu, ha, ?_, ?_⟩
    · intro j
      constructor
      · intro hj
        exact hguarded.alone hj hi
      · rintro rfl
        exact hi
    · obtain ⟨hplaces, -⟩ := htimely.dialing hu ha hd
      cases a with
      | resolving => exact .inl ⟨rfl, hplaces⟩
      | dialing address expires =>
        obtain ⟨t, ht, -, -, rfl, -⟩ := hplaces
        exact .inr ⟨address, t, rfl, ht⟩
      | _ => cases hd
  · exact htimely.since
  · intro hc t ht
    obtain ⟨i, hi⟩ := hguarded.someone hc
    obtain ⟨u, a, hu, ha, hd⟩ := user_of_isDialing hi
    obtain ⟨hplaces, -⟩ := htimely.dialing hu ha hd
    cases a with
    | resolving =>
      rw [show x.learned = none from hplaces] at ht
      cases ht
    | dialing address expires =>
      obtain ⟨s, hs, hsince, hnow, rfl, hle⟩ := hplaces
      obtain rfl : s = t := Option.some.inj (hs.symm.trans ht)
      exact ⟨hsince, hnow, hle⟩
    | _ => cases hd
  · intro i u d hu hp hud
    obtain ⟨a, ha, hd⟩ := User.acquisition?_of_isDialing hp
    exact (htimely.dialing hu ha hd).2 d hud

def moment (now : Nat) : Env := ⟨⟨"c"⟩, ⟨50, 20, 10, 4⟩, .default, now, 0⟩

def unanswered (now : Nat) : Timeline :=
  ⟨now, ⟨.dialing, [.acquire .resolving], [.resolves 0]⟩, 0, none⟩

theorem reachable_unanswered (now : Nat) : (unanswered now).Reachable ⟨"c"⟩ 20 := by
  have hcome : Reachable ⟨"c"⟩ 20 ⟨0, ⟨.idle, [.acquire .entering], []⟩, 0, none⟩ :=
    (Reachable.start 0).join .acquire
  have hstep : User.StepAt 0 20 .idle (.acquire .entering) .dialing (.acquire .resolving) :=
    .acquire (moment 0) .proceed rfl rfl
  have htaken : Reachable ⟨"c"⟩ 20 (unanswered 0) := hcome.move (i := 0) rfl hstep
  apply htaken.pass now (Nat.zero_le now)
  intro u hu
  obtain rfl := List.mem_singleton.1 hu
  nofun

theorem dialing_limited_answered : ∃ x : Timeline, x.Reachable ⟨"c"⟩ 20 ∧ x.now = 25 ∧ x.since = 0 ∧
    x.learned = some 5 ∧ x.shared.connection = .dialing ∧ x.Limited 20 := by
  have hstep : User.StepAt 5 20 .dialing (.acquire .resolving) .dialing
      (.acquire (.dialing "a" 25)) :=
    .acquire (moment 5) (.resolved (.ok "a")) rfl rfl
  have hlearned := (reachable_unanswered 5).move (i := 0) rfl hstep
  have hlasts : ∀ u ∈ [User.acquire (.dialing "a" 25)], u.Lasts ⟨"c"⟩ 25 := by
    intro u hu
    obtain rfl := List.mem_singleton.1 hu
    simp [User.Lasts, Wait.ofAcquisition, Wait.Lasts, Wait.deadline]
  have hlate := hlearned.pass 25 (by decide) hlasts
  exact ⟨_, hlate, rfl, rfl, rfl, rfl, hlate.dialing_limited⟩

/-- While no address is known a connection dials for longer than dials may take. -/
theorem not_within_limit : ¬ ∀ x : Timeline, x.Reachable ⟨"c"⟩ 20 →
    x.shared.connection = .dialing → x.now ≤ x.since + 20 := by
  intro h
  exact absurd (h (unanswered 21) (reachable_unanswered 21) rfl) (by decide)

end Timeline

end ModelRegistry
