import ModelRegistry.Proofs.SingleFlight

namespace ModelRegistry

namespace Phase

variable {c c' : Connection} {p p' : Phase} {i : Nat}

def toClose? : Phase → Option Link
  | closing link => some link
  | _ => none

theorem dialed_news (i : Nat) (p p' : Phase) : dialed (p.news i p') = [] ∨
    ∃ link, dialed (p.news i p') = [link] ∧ .connected i link ∈ p.news i p' := by
  cases p with
  | dialing address =>
    cases p' with
    | holding link => exact .inr ⟨link, rfl, List.mem_cons_of_mem _ (List.mem_cons_self ..)⟩
    | _ => exact .inl rfl
  | _ => cases p' <;> exact .inl rfl

theorem Moved.connected {link : Link} (h : Moved c p c' p')
    (hmem : .connected i link ∈ p.news i p') : p.isDialing ∧ c' = .ready link := by
  obtain ⟨⟨address, rfl⟩, rfl⟩ := of_connected_mem hmem
  cases h with
  | connect => exact ⟨rfl, rfl⟩

theorem Moved.count_eq (h : Moved c p c' p') (hp : p.isDialing → c = .dialing) (link : Link) :
    (dialed (p.news i p')).count link + c.link?.toList.count link + p.toClose?.toList.count link =
      (closed (p.news i p')).count link + c'.link?.toList.count link +
        p'.toClose?.toList.count link := by
  cases h with
  | stay => simp [news_self]
  | connect => simp [hp rfl, news, Event.connected?, Event.closed?, Connection.link?, toClose?]
  | miss hdialing | abandon hdialing =>
    rw [hp hdialing]
    obtain rfl | ⟨address, rfl⟩ := eq_of_isDialing hdialing <;> rfl
  | leave hwaits hnot =>
    obtain rfl | rfl | ⟨l, rfl⟩ := eq_of_waits hwaits hnot <;> simp [news, toClose?]
  | close =>
    simp [news, Event.connected?, Event.closed?, toClose?]
    omega
  | _ => simp_all [news, Event.connected?, Event.closed?, Connection.link?, toClose?]

end Phase

namespace Shared

variable {supply : Supply} {w w' : Shared} {i : Nat} {events : List Event}

def pending (w : Shared) : List Link := w.phases.filterMap Phase.toClose?

theorem count_filterMap_set {f : Phase → Option Link} {l : List Phase} {p : Phase}
    (h : l[i]? = some p) (p' : Phase) (link : Link) :
    ((l.set i p').filterMap f).count link + (f p).toList.count link =
      (l.filterMap f).count link + (f p').toList.count link := by
  induction l generalizing i with
  | nil => cases h
  | cons q l ih =>
    cases i with
    | zero =>
      obtain rfl : q = p := Option.some.inj h
      rw [List.set_cons_zero, filterMap_cons_eq, filterMap_cons_eq, List.count_append,
        List.count_append]
      omega
    | succ i =>
      have hl := ih h
      rw [List.set_cons_succ, filterMap_cons_eq, filterMap_cons_eq, List.count_append,
        List.count_append]
      omega

theorem Turn.accounted {p p' : Phase} (h : Turn supply w i p p' events w') (hw : w.Guarded)
    (hperm : (dialed w.history).Perm (closed w.history ++ w.pending ++ w.connection.link?.toList)) :
    (dialed w'.history).Perm (closed w'.history ++ w'.pending ++ w'.connection.link?.toList) := by
  -- link by link: the balance of the step itself, and of the list of those about to be closed
  rw [List.perm_iff_count] at hperm ⊢
  intro link
  have hold := hperm link
  have hstep := h.moved.count_eq (i := i) (fun hp => hw.dialing (h.isDialing_iff.2 hp)) link
  have hpending := count_filterMap_set (f := Phase.toClose?) h.before p' link
  rw [← h.phases] at hpending
  rw [h.told, h.news, dialed_append, closed_append]
  simp only [List.count_append, pending] at hold ⊢
  omega

/-- No link is lost: each one dialed is closed, about to be closed, or kept. -/
theorem Reachable.accounted (h : w.Reachable User.Comes supply) :
    (dialed w.history).Perm (closed w.history ++ w.pending ++ w.connection.link?.toList) := by
  induction h with
  | start => exact .refl _
  | @join w u _ hu ih =>
    have hnone : u.phase.toClose? = none := by
      obtain hphase | ⟨target, hphase⟩ := phase_of_comes hu <;> rw [hphase] <;> rfl
    have hpending : (w.join u).pending = w.pending := by
      simp [pending, phases_join, hnone]
    rw [hpending]
    exact ih
  | step hw hs ih =>
    obtain ⟨p, p', ht⟩ := hs.turn
    exact ht.accounted hw.guarded ih

theorem Reachable.nodup_dialed (h : w.Reachable User.Comes freshLink) :
    (dialed w.history).Nodup := by
  induction h with
  | start => exact List.nodup_nil
  | join _ _ ih => exact ih
  | @step w w' i events _ hs ih =>
    obtain ⟨p, p', ht⟩ := hs.turn
    rw [ht.told, ht.news, dialed_append]
    obtain hnone | ⟨link, hlink, hmem⟩ := Phase.dialed_news i p p'
    · rw [hnone]
      exact ih
    · rw [hlink]
      have hfresh := ht.supplied link (ht.news ▸ hmem)
      exact List.nodup_cons.2 ⟨hfresh, ih⟩

structure Conserved (w : Shared) : Prop where
  balance : (∀ (i : Nat) (link : Link), w.phases[i]? ≠ some (.closing link)) →
    (dialed w.history).length = (closed w.history).length + if w.connection.isReady then 1 else 0
  once : (closed w.history).Nodup
  sound : ∀ link, w.connection = .ready link → link ∉ closed w.history
  vacant : ∀ i events w' link, Step freshLink w i events w' → .connected i link ∈ events →
    w.connection.link? = none ∧ w'.connection = .ready link

theorem Reachable.conserved (h : w.Reachable User.Comes freshLink) : w.Conserved := by
  have hperm := h.accounted
  have hnodup := hperm.nodup_iff.1 h.nodup_dialed
  constructor
  · intro hclosing
    have hpending : w.pending = [] := by
      rw [pending, List.filterMap_eq_nil_iff]
      intro p hp
      obtain ⟨i, hi⟩ := List.mem_iff_getElem?.1 hp
      cases p with
      | closing link => exact absurd hi (hclosing i link)
      | _ => rfl
    have hlength := hperm.length_eq
    rw [hpending, List.append_nil, List.length_append] at hlength
    rw [hlength]
    cases w.connection <;> rfl
  · exact (List.nodup_append.1 (List.nodup_append.1 hnodup).1).1
  · intro link hc hmem
    have hdisjoint := (List.nodup_append.1 hnodup).2.2
    apply hdisjoint link (List.mem_append_left _ hmem) link ?_ rfl
    simp [hc, Connection.link?]
  · intro i events w' link hs hmem
    obtain ⟨p, p', ht⟩ := hs.turn
    rw [ht.news] at hmem
    obtain ⟨hp, hc⟩ := ht.moved.connected hmem
    rw [h.guarded.dialing (ht.isDialing_iff.2 hp)]
    exact ⟨rfl, hc⟩

def dialedBy (i : Nat) (link : Link) : List Event :=
  [.given i link, .connected i link, .dials i "a", .resolves i]

theorem Reachable.dial {comes : User → Prop} (h : w.Reachable comes freshLink)
    (hc : w.connection = .idle) (i : Nat) (hu : w.users[i]? = some (.acquire .entering))
    (link : Link) (hlink : link ∉ dialed w.history) :
    Reachable comes freshLink ⟨.ready link, w.users.set i (.acquire (.finished (.ok link))),
      dialedBy i link ++ w.history⟩ := by
  have hi : i < w.users.length := (List.getElem?_eq_some_iff.1 hu).1
  have htake : User.Step w.connection (.acquire .entering) .dialing (.acquire .resolving) := by
    rw [hc]
    exact .acquire noon .proceed
  have hresolve : User.Step .dialing (.acquire .resolving) .dialing
      (.acquire (.dialing "a" 10012)) :=
    .acquire noon (.resolved (.ok "a"))
  have hconnect : User.Step .dialing (.acquire (.dialing "a" 10012)) (.ready link)
      (.acquire (.finished (.ok link))) :=
    .acquire noon (.dialed (.ok link))
  have htaken := h.pass i hu htake rfl
  have hresolved := htaken.move i (by simp [hi]) hresolve
    (by simp [User.phase, Acquisition.phase, Phase.news])
  have hconnected := hresolved.move i (by simp [hi]) hconnect
    (by simpa [User.phase, Acquisition.phase, Phase.news, freshLink, Event.connected?] using hlink)
  simpa [User.phase, Acquisition.phase, Phase.news, dialedBy] using hconnected

def replaced : Shared :=
  ⟨.ready 2, [.acquire (.finished (.ok 1)), .gone, .acquire (.finished (.ok 2))],
    dialedBy 2 2 ++ [.closed 1 1, .discarded 1 1] ++ dialedBy 0 1⟩

theorem reachable_replaced : replaced.Reachable User.Comes freshLink := by
  have hcome : Reachable User.Comes freshLink
      ⟨.idle, [.acquire .entering, .poison none, .acquire .entering], []⟩ :=
    ((Reachable.start.join .acquire).join (.poison none)).join .acquire
  have hpoison : User.Step (.ready 1) (.poison none) .idle (.closing 1) := .poison
  have hclose : User.Step .idle (.closing 1) .idle .gone := .close
  have hfirst := hcome.dial rfl 0 rfl 1 (by decide)
  have hpoisoned := hfirst.pass 1 rfl hpoison rfl
  have hclosed := hpoisoned.pass 1 rfl hclose rfl
  exact hclosed.dial rfl 2 rfl 2 (by decide)

theorem conserved_replaced : replaced.Reachable User.Comes freshLink ∧
    dialed replaced.history = [2, 1] ∧ closed replaced.history = [1] ∧
    replaced.connection = .ready 2 ∧ replaced.Conserved :=
  ⟨reachable_replaced, rfl, rfl, rfl, reachable_replaced.conserved⟩

end Shared

end ModelRegistry
