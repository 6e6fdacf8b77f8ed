import Mathlib.Logic.ExistsUnique
import ModelRegistry.Proofs.Traffic

namespace ModelRegistry

def Event.asks : Event → Bool
  | resolves _ | dials .. => true
  | _ => false

namespace Phase

variable {c c' : Connection} {p p' : Phase}

theorem isDialing_of_asks {i : Nat} {event : Event} (h : event ∈ p.news i p') (ha : event.asks) :
    p'.isDialing := by
  cases p <;> cases p' <;> simp_all [news] <;> grind [Event.asks, isDialing]

namespace Moved

theorem flight (h : Moved c p c' p') (hp : p.isDialing → c = .dialing) :
    (p'.isDialing = p.isDialing ∧ (c' = .dialing ↔ c = .dialing)) ∨
      (c = .idle ∧ p'.isDialing ∧ c' = .dialing) ∨
      (p.isDialing ∧ p'.isDialing = false ∧ c' ≠ .dialing) := by
  cases h with
  | take hidle => exact .inr (.inl ⟨hidle, rfl, rfl⟩)
  | connect => exact .inr (.inr ⟨rfl, rfl, by simp⟩)
  | miss hdialing | abandon hdialing =>
    rw [hp hdialing]
    exact .inr (.inr ⟨hdialing, rfl, by simp [Connection.abandon]⟩)
  | leave _ hnot => exact .inl ⟨hnot.symm, .rfl⟩
  | discard hready | poison hready => exact .inl ⟨rfl, by simp [hready]⟩
  | _ => exact .inl ⟨rfl, .rfl⟩

theorem entered (h : Moved c .entering c' p') (hc : c ≠ .idle) :
    c' = c ∧ p'.isDialing = false ∧ (p' = .entering ∨ p' = .away ∨ (∃ e, p' = .failed none e) ∨
      ∃ link, c = .ready link ∧ p' = .holding link) := by
  cases h with
  | stay => exact ⟨rfl, rfl, .inl rfl⟩
  | take hidle => exact absurd hidle hc
  | refuse => exact ⟨rfl, rfl, .inr (.inr (.inl ⟨_, rfl⟩))⟩
  | reuse hready => exact ⟨rfl, rfl, .inr (.inr (.inr ⟨_, hready, rfl⟩))⟩
  | miss hdialing | abandon hdialing => cases hdialing
  | late => exact ⟨rfl, rfl, .inr (.inr (.inl ⟨_, rfl⟩))⟩
  | leave => exact ⟨rfl, rfl, .inr (.inl rfl)⟩

theorem landed (h : Moved .dialing p c' p') (hp : p.isDialing) (hp' : p'.isDialing = false) :
    (∃ link, p' = .holding link ∧ c' = .ready link) ∨
      ((∃ e, p' = .failed none e) ∨ p' = .away) ∧ c' = .idle := by
  cases h with
  | stay => rw [hp] at hp'; cases hp'
  | dial => cases hp'
  | connect => exact .inl ⟨_, rfl, rfl⟩
  | miss => exact .inr ⟨.inl ⟨_, rfl⟩, rfl⟩
  | abandon => exact .inr ⟨.inr rfl, rfl⟩
  | leave _ hnot => rw [hp] at hnot; cases hnot
  | _ => cases hp

end Moved

end Phase

namespace Shared

variable {supply : Supply} {w w' : Shared} {i : Nat} {events : List Event}

structure Guarded (w : Shared) : Prop where
  dialing : ∀ {i}, w.IsDialing i → w.connection = .dialing
  alone : ∀ {i j}, w.IsDialing i → w.IsDialing j → i = j
  someone : w.connection = .dialing → ∃ i, w.IsDialing i

theorem Guarded.of_none (hnone : ∀ i, ¬ w.IsDialing i) (hc : w.connection ≠ .dialing) :
    w.Guarded := by
  constructor
  · intro i hi
    exact absurd hi (hnone i)
  · intro i j hi
    exact absurd hi (hnone i)
  · intro hd
    exact absurd hd hc

theorem Guarded.join {u : User} (h : w.Guarded) (hu : u.Comes) : (w.join u).Guarded := by
  constructor
  · intro i hi
    exact h.dialing ((isDialing_join hu).1 hi)
  · intro i j hi hj
    exact h.alone ((isDialing_join hu).1 hi) ((isDialing_join hu).1 hj)
  · intro hc
    obtain ⟨i, hi⟩ := h.someone hc
    exact ⟨i, (isDialing_join hu).2 hi⟩

theorem Turn.flight {p p' : Phase} (h : Turn supply w i p p' events w') (hw : w.Guarded) :
    (p'.isDialing = p.isDialing ∧ (w'.connection = .dialing ↔ w.connection = .dialing)) ∨
      (w.connection = .idle ∧ p'.isDialing ∧ w'.connection = .dialing) ∨
      (p.isDialing ∧ p'.isDialing = false ∧ w'.connection ≠ .dialing) := by
  apply h.moved.flight
  intro hp
  exact hw.dialing (h.isDialing_iff.2 hp)

theorem Guarded.step (hw : w.Guarded) (h : Step supply w i events w') : w'.Guarded := by
  obtain ⟨p, p', ht⟩ := h.turn
  obtain ⟨hsame, hc⟩ | ⟨hidle, hp', hc⟩ | ⟨hp, hp', hc⟩ := ht.flight hw
  · have hiff (j : Nat) : w'.IsDialing j ↔ w.IsDialing j := by
      by_cases hij : i = j
      · subst hij
        rw [ht.isDialing_after, ht.isDialing_iff, hsame]
      · exact ht.isDialing_others hij
    constructor
    · intro j hj
      exact hc.2 (hw.dialing ((hiff j).1 hj))
    · intro j k hj hk
      exact hw.alone ((hiff j).1 hj) ((hiff k).1 hk)
    · intro hd
      obtain ⟨j, hj⟩ := hw.someone (hc.1 hd)
      exact ⟨j, (hiff j).2 hj⟩
  · have honly (j : Nat) (hj : w'.IsDialing j) : i = j := by
      by_cases hij : i = j
      · exact hij
      · have hd := hw.dialing ((ht.isDialing_others hij).1 hj)
        rw [hidle] at hd
        cases hd
    constructor
    · intro j hj
      exact hc
    · intro j k hj hk
      exact (honly j hj).symm.trans (honly k hk)
    · intro hd
      exact ⟨i, ht.isDialing_after.2 hp'⟩
  · have hnone (j : Nat) : ¬ w'.IsDialing j := by
      intro hj
      by_cases hij : i = j
      · subst hij
        have hd := ht.isDialing_after.1 hj
        rw [hp'] at hd
        cases hd
      · have hold := (ht.isDialing_others hij).1 hj
        exact hij (hw.alone (ht.isDialing_iff.2 hp) hold)
    exact .of_none hnone hc

theorem Reachable.guarded (h : w.Reachable User.Comes supply) : w.Guarded := by
  induction h with
  | start =>
    have hnone (i : Nat) : ¬ IsDialing ⟨.idle, [], []⟩ i := by
      rintro ⟨p, hp, -⟩
      cases hp
    exact .of_none hnone (by simp)
  | join _ hu ih => exact ih.join hu
  | step _ hs ih => exact ih.step hs

structure SingleFlight (w : Shared) : Prop where
  dialing_iff : w.connection = .dialing ↔ ∃! i, w.IsDialing i
  alone : ∀ i j, w.IsDialing i → w.IsDialing j → i = j
  asks : ∀ i events w', Step anyLink w i events w' → ∀ event ∈ events, event.asks →
    event.user = i ∧ w'.IsDialing i
  busy : ∀ env, w.connection = .dialing → ∃ e, e.kind = .resourceExhausted ∧
    Acquisition.entering.step env w.connection .proceed = (w.connection, .finished (.error e))
  cached : ∀ env link, w.connection = .ready link →
    Acquisition.entering.step env w.connection .proceed = (w.connection, .finished (.ok link))
  arrives : ∀ i events w', Step anyLink w i events w' → w.phases[i]? = some .entering →
    w.connection ≠ .idle → w'.connection = w.connection ∧ (∀ event ∈ events, ¬ event.asks) ∧
      ∃ p, w'.phases[i]? = some p ∧ (p = .entering ∨ p = .away ∨ (∃ e, p = .failed none e) ∨
        ∃ link, w.connection = .ready link ∧ p = .holding link)
  lands : ∀ i events w', Step anyLink w i events w' → w.IsDialing i → ¬ w'.IsDialing i →
    (∃ link, w'.phases[i]? = some (.holding link) ∧ w'.connection = .ready link) ∨
      ((∃ e, w'.phases[i]? = some (.failed none e)) ∨ w'.phases[i]? = some .away) ∧
        w'.connection = .idle
  spared : ∀ i events w', Step anyLink w i events w' → ¬ w.IsDialing i →
    w.connection = .dialing → w'.connection = .dialing

theorem Reachable.singleFlight (h : w.Reachable User.Comes anyLink) : w.SingleFlight := by
  have hw := h.guarded
  constructor
  · constructor
    · intro hc
      obtain ⟨i, hi⟩ := hw.someone hc
      exact ⟨i, hi, fun j hj => hw.alone hj hi⟩
    · rintro ⟨i, hi, -⟩
      exact hw.dialing hi
  · intro i j hi hj
    exact hw.alone hi hj
  · intro i events w' hs event hmem hasks
    obtain ⟨p, p', ht⟩ := hs.turn
    rw [ht.news] at hmem
    exact ⟨Phase.user_of_mem_news hmem, ht.isDialing_after.2 (Phase.isDialing_of_asks hmem hasks)⟩
  · intro env hc
    rw [hc]
    exact ⟨.resourceExhausted _, rfl, rfl⟩
  · intro env link hc
    rw [hc]
    rfl
  · intro i events w' hs hentering hc
    obtain ⟨p, p', ht⟩ := hs.turn
    obtain rfl : p = .entering := Option.some.inj (ht.before.symm.trans hentering)
    obtain ⟨hsame, hnot, hp'⟩ := ht.moved.entered hc
    refine ⟨hsame, ?_, p', ht.after, hp'⟩
    intro event hmem hasks
    rw [ht.news] at hmem
    rw [Phase.isDialing_of_asks hmem hasks] at hnot
    cases hnot
  · intro i events w' hs hi hi'
    obtain ⟨p, p', ht⟩ := hs.turn
    have hmoved := ht.moved
    rw [hw.dialing hi] at hmoved
    have hp' : p'.isDialing = false := by simpa [ht.isDialing_after] using hi'
    obtain ⟨link, rfl, hc⟩ | ⟨⟨e, rfl⟩ | rfl, hc⟩ := hmoved.landed (ht.isDialing_iff.1 hi) hp'
    · exact .inl ⟨link, ht.after, hc⟩
    · exact .inr ⟨.inl ⟨e, ht.after⟩, hc⟩
    · exact .inr ⟨.inr ht.after, hc⟩
  · intro i events w' hs hi hc
    obtain ⟨p, p', ht⟩ := hs.turn
    obtain ⟨-, hsame⟩ | ⟨-, -, hc'⟩ | ⟨hp, -⟩ := ht.flight hw
    · exact hsame.2 hc
    · exact hc'
    · exact absurd (ht.isDialing_iff.2 hp) hi

def noon : Env := ⟨⟨"c"⟩, .default, .default, 12, 0⟩

def contended : Shared :=
  ⟨.dialing,
    [.acquire (.dialing "a" 10012), .acquire (.finished (.error (Acquisition.busy ⟨"c"⟩))), .gone],
    [.dials 0 "a", .ended 1 none (Acquisition.busy ⟨"c"⟩), .resolves 0]⟩

theorem reachable_contended : contended.Reachable User.Comes anyLink := by
  have hcome : Reachable User.Comes anyLink
      ⟨.idle, [.acquire .entering, .acquire .entering, .poison none], []⟩ :=
    ((Reachable.start.join .acquire).join .acquire).join (.poison none)
  have htake : User.Step .idle (.acquire .entering) .dialing (.acquire .resolving) :=
    .acquire noon .proceed
  have hrefuse : User.Step .dialing (.acquire .entering) .dialing
      (.acquire (.finished (.error (Acquisition.busy ⟨"c"⟩)))) :=
    .acquire noon .proceed
  have hpoison : User.Step .dialing (.poison none) .dialing .gone := .poison
  have hdial : User.Step .dialing (.acquire .resolving) .dialing (.acquire (.dialing "a" 10012)) :=
    .acquire noon (.resolved (.ok "a"))
  have htaken := hcome.move 0 rfl htake fun _ _ => trivial
  have hrefused := htaken.move 1 rfl hrefuse fun _ _ => trivial
  have hpoisoned := hrefused.move 2 rfl hpoison fun _ _ => trivial
  exact hpoisoned.move 0 rfl hdial fun _ _ => trivial

theorem singleFlight_contended : contended.Reachable User.Comes anyLink ∧
    contended.connection = .dialing ∧ contended.IsDialing 0 ∧ contended.SingleFlight :=
  ⟨reachable_contended, rfl, ⟨_, rfl, rfl⟩, reachable_contended.singleFlight⟩

end Shared

end ModelRegistry
