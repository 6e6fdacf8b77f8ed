import ModelRegistry.Proofs.Sharing

namespace ModelRegistry

structure Shared where
  connection : Connection
  users : List User
  history : List Event

namespace Event

def user : Event → Nat
  | resolves i | dials i _ | connected i _ | given i _ | ended i _ _ | settled i _ _
  | discarded i _ | closed i _ => i

def connected? : Event → Option Link
  | connected _ link => some link
  | _ => none

def closed? : Event → Option Link
  | closed _ link => some link
  | _ => none

end Event

def dialed (history : List Event) : List Link := history.filterMap Event.connected?

def closed (history : List Event) : List Link := history.filterMap Event.closed?

abbrev Supply := List Event → Link → Prop

def anyLink : Supply := fun _ _ => True

def freshLink : Supply := fun history link => link ∉ dialed history

theorem filterMap_cons_eq {α β : Type} (f : α → Option β) (a : α) (l : List α) :
    (a :: l).filterMap f = (f a).toList ++ l.filterMap f := by
  cases h : f a <;> simp [h]

@[simp] theorem dialed_nil : dialed [] = [] := rfl

@[simp] theorem dialed_cons (event : Event) (history : List Event) :
    dialed (event :: history) = event.connected?.toList ++ dialed history :=
  filterMap_cons_eq ..

@[simp] theorem closed_nil : closed [] = [] := rfl

@[simp] theorem closed_cons (event : Event) (history : List Event) :
    closed (event :: history) = event.closed?.toList ++ closed history :=
  filterMap_cons_eq ..

theorem dialed_append (later earlier : List Event) :
    dialed (later ++ earlier) = dialed later ++ dialed earlier :=
  List.filterMap_append

theorem closed_append (later earlier : List Event) :
    closed (later ++ earlier) = closed later ++ closed earlier :=
  List.filterMap_append

theorem mem_dialed {history : List Event} {link : Link} :
    link ∈ dialed history ↔ ∃ i, .connected i link ∈ history := by
  constructor
  · intro h
    obtain ⟨event, hmem, hlink⟩ := List.mem_filterMap.1 h
    cases event with
    | connected i l =>
      obtain rfl : l = link := Option.some.inj hlink
      exact ⟨i, hmem⟩
    | _ => cases hlink
  · rintro ⟨i, hmem⟩
    exact List.mem_filterMap.2 ⟨_, hmem, rfl⟩

namespace Phase

variable {p p' : Phase} {link : Link} {used : Option Link} {e : Error} {i j : Nat}

theorem user_of_mem_news {event : Event} (h : event ∈ p.news i p') : event.user = i := by
  cases p <;> cases p' <;> simp_all [news] <;> grind [Event.user]

theorem news_self (i : Nat) (p : Phase) : p.news i p = [] := by
  cases p <;> rfl

theorem of_connected_mem (h : .connected j link ∈ p.news i p') :
    (∃ address, p = dialing address) ∧ p' = holding link := by
  cases p <;> cases p' <;> simp_all [news]

theorem of_given_mem (h : .given j link ∈ p.news i p') :
    (p = entering ∨ ∃ address, p = dialing address) ∧ p' = holding link := by
  cases p <;> cases p' <;> simp_all [news]

theorem of_ended_mem (h : .ended j used e ∈ p.news i p') :
    (∀ used' e', p ≠ failed used' e') ∧ p' = failed used e ∧
      p.news i p' = [.ended j used e] := by
  cases p <;> cases p' <;> simp_all [news]

theorem of_settled_mem (h : .settled j used e ∈ p.news i p') :
    p = failed used e ∧ ∀ used' e', p' ≠ failed used' e' := by
  cases p <;> cases p' <;> simp_all [news]

theorem of_discarded_mem (h : .discarded j link ∈ p.news i p') :
    ((∃ target, p = poisoning target) ∨ ∃ used e, p = failed used e) ∧ p' = closing link := by
  cases p <;> cases p' <;> simp_all [news]

theorem of_closed_mem (h : .closed j link ∈ p.news i p') : p = closing link ∧ p' = away := by
  cases p <;> cases p' <;> simp_all [news]

end Phase

namespace Shared

variable {supply : Supply} {w w' : Shared} {i j : Nat} {events : List Event}

def phases (w : Shared) : List Phase := w.users.map User.phase

def IsDialing (w : Shared) (i : Nat) : Prop := ∃ p, w.phases[i]? = some p ∧ p.isDialing

def join (w : Shared) (u : User) : Shared := { w with users := w.users ++ [u] }

inductive Step (supply : Supply) (w : Shared) (i : Nat) : List Event → Shared → Prop
  | move {u u' : User} {c : Connection} : w.users[i]? = some u → u.Step w.connection c u' →
      (∀ link, .connected i link ∈ u.phase.news i u'.phase → supply w.history link) →
      Step supply w i (u.phase.news i u'.phase)
        ⟨c, w.users.set i u', u.phase.news i u'.phase ++ w.history⟩

inductive Reachable (comes : User → Prop) (supply : Supply) : Shared → Prop
  | start : Reachable comes supply ⟨.idle, [], []⟩
  | join {w : Shared} {u : User} : Reachable comes supply w → comes u →
      Reachable comes supply (w.join u)
  | step {w w' : Shared} {i : Nat} {events : List Event} : Reachable comes supply w →
      Step supply w i events w' → Reachable comes supply w'

structure Turn (supply : Supply) (w : Shared) (i : Nat) (p p' : Phase) (events : List Event)
    (w' : Shared) : Prop where
  before : w.phases[i]? = some p
  after : w'.phases[i]? = some p'
  moved : p.Moved w.connection w'.connection p'
  news : events = p.news i p'
  told : w'.history = events ++ w.history
  phases : w'.phases = w.phases.set i p'
  supplied : ∀ link, .connected i link ∈ events → supply w.history link

theorem Step.turn (h : Step supply w i events w') : ∃ p p', Turn supply w i p p' events w' := by
  cases h with
  | @move u u' c hu hs hsupply =>
    have hi : i < w.users.length := (List.getElem?_eq_some_iff.1 hu).1
    refine ⟨u.phase, u'.phase, ?_, ?_, hs.moved, rfl, rfl, ?_, hsupply⟩
    · simp [phases, hu]
    · simp [phases, hi]
    · simp [phases, List.map_set]

namespace Turn

variable {p p' : Phase}

theorem others (h : Turn supply w i p p' events w') (hij : i ≠ j) :
    w'.phases[j]? = w.phases[j]? := by
  rw [h.phases, List.getElem?_set_ne hij]

theorem isDialing_iff (h : Turn supply w i p p' events w') : w.IsDialing i ↔ p.isDialing := by
  simp [IsDialing, h.before]

theorem isDialing_after (h : Turn supply w i p p' events w') : w'.IsDialing i ↔ p'.isDialing := by
  simp [IsDialing, h.after]

theorem isDialing_others (h : Turn supply w i p p' events w') (hij : i ≠ j) :
    w'.IsDialing j ↔ w.IsDialing j := by
  rw [IsDialing, IsDialing, h.others hij]

end Turn

theorem Reachable.move {comes : User → Prop} {u u' : User} {c : Connection}
    (h : w.Reachable comes supply) (i : Nat) (hu : w.users[i]? = some u)
    (hs : u.Step w.connection c u')
    (hsupply : ∀ link, .connected i link ∈ u.phase.news i u'.phase → supply w.history link) :
    Reachable comes supply ⟨c, w.users.set i u', u.phase.news i u'.phase ++ w.history⟩ :=
  h.step (.move hu hs hsupply)

theorem Reachable.pass {comes : User → Prop} {u u' : User} {c : Connection}
    (h : w.Reachable comes supply) (i : Nat) (hu : w.users[i]? = some u)
    (hs : u.Step w.connection c u') (hp : u.phase.isDialing = false) :
    Reachable comes supply ⟨c, w.users.set i u', u.phase.news i u'.phase ++ w.history⟩ := by
  apply h.move i hu hs
  intro link hmem
  obtain ⟨⟨address, hdialing⟩, -⟩ := Phase.of_connected_mem hmem
  rw [hdialing] at hp
  cases hp

theorem Reachable.mono {comes comes' : User → Prop} {supply' : Supply}
    (h : w.Reachable comes supply) (hcomes : ∀ u, comes u → comes' u)
    (hsupply : ∀ history link, supply history link → supply' history link) :
    w.Reachable comes' supply' := by
  induction h with
  | start => exact .start
  | join _ hu ih => exact ih.join (hcomes _ hu)
  | step _ hs ih =>
    cases hs with
    | move hu hstep hsupplied =>
      exact ih.step (.move hu hstep fun link hlink => hsupply _ _ (hsupplied link hlink))

theorem phase_of_comes {u : User} (h : u.Comes) :
    u.phase = .entering ∨ ∃ target, u.phase = .poisoning target := by
  cases h with
  | acquire => exact .inl rfl
  | call => exact .inl rfl
  | poison target => exact .inr ⟨target, rfl⟩

theorem phases_join (w : Shared) (u : User) : (w.join u).phases = w.phases ++ [u.phase] := by
  simp [phases, join]

theorem getElem?_phases_join {u : User} {p : Phase} (h : (w.join u).phases[j]? = some p) :
    w.phases[j]? = some p ∨ p = u.phase := by
  rw [phases_join] at h
  by_cases hj : j < w.phases.length
  · rw [List.getElem?_append_left hj] at h
    exact .inl h
  · rw [List.getElem?_append_right (by omega)] at h
    have hmem := List.mem_of_getElem? h
    exact .inr (List.mem_singleton.1 hmem)

theorem isDialing_join {u : User} (hu : u.Comes) : (w.join u).IsDialing j ↔ w.IsDialing j := by
  constructor
  · rintro ⟨p, hp, hdialing⟩
    obtain hold | rfl := getElem?_phases_join hp
    · exact ⟨p, hold, hdialing⟩
    · obtain hphase | ⟨target, hphase⟩ := phase_of_comes hu <;> rw [hphase] at hdialing <;>
        cases hdialing
  · rintro ⟨p, hp, hdialing⟩
    have hj : j < w.phases.length := (List.getElem?_eq_some_iff.1 hp).1
    refine ⟨p, ?_, hdialing⟩
    rw [phases_join, List.getElem?_append_left hj, hp]

end Shared

end ModelRegistry
