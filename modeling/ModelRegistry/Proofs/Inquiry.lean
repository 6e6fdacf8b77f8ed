import ModelRegistry.Proofs.Upkeep

namespace ModelRegistry

namespace MemoryRegistry

variable {lax : Prop} {H : ModelId → Cursor → Prop}

theorem unpark_eq_self {r : MemoryRegistry} {caller : Nat} (h : ∀ w ∈ r.parked, w.caller ≠ caller) :
    r.unpark caller = r := by
  have hp : r.parked.filter (·.caller != caller) = r.parked :=
    List.filter_eq_self.mpr (fun w hw => by simpa using h w hw)
  rw [unpark, hp]

theorem unpark_park (r : MemoryRegistry) (w : ParkedWatch) :
    (r.park w).unpark w.caller = r.unpark w.caller := by
  simp [park, unpark]

theorem mem_unpark {r : MemoryRegistry} {caller : Nat} {w : ParkedWatch} (h : w ∈ r.parked)
    (hc : w.caller ≠ caller) : w ∈ (r.unpark caller).parked :=
  List.mem_filter.mpr ⟨h, by simpa using hc⟩

theorem caller_ne_of_mem_unpark {r : MemoryRegistry} {caller : Nat} {w : ParkedWatch}
    (h : w ∈ (r.unpark caller).parked) : w.caller ≠ caller := by
  simpa using (List.mem_filter.mp h).2

theorem watch_cases (r : MemoryRegistry) (caller : Nat) (link : Link) (model : ModelId)
    (c : Cursor) : ∃ r', Keeps lax H r r' ∧
      ((∃ result, r.watch caller link model c = (r', some result) ∧
          ∀ response, result = .ok response → r'.answer model c = .ok (some response)) ∨
        (r.watch caller link model c = (r'.park ⟨caller, link, model, c⟩, none) ∧
          r'.look link model c = .ok none)) := by
  obtain ⟨callFailures, hb⟩ := (r.present model c).begin_eq link
  have hkeeps : Keeps lax H r { r.present model c with callFailures } :=
    (keeps_present r model c).trans (keeps_callFailures _ _)
  refine ⟨{ r.present model c with callFailures }, hkeeps, ?_⟩
  unfold watch
  cases hbegin : (r.present model c).begin link with
  | mk r' result =>
    obtain rfl : r' = { r.present model c with callFailures } := by rw [← hb, hbegin]
    cases result with
    | error e => exact .inl ⟨_, rfl, by simp⟩
    | ok =>
      cases hlook : look { r.present model c with callFailures } link model c with
      | error e => exact .inl ⟨.error e, by simp only [hlook], by simp⟩
      | ok found =>
        cases found with
        | some response =>
          refine .inl ⟨.ok response, by simp only [hlook], ?_⟩
          intro response' he
          obtain rfl : response = response' := by simpa using he
          exact look_eq_some hlook
        | none => exact .inr ⟨by simp only [hlook], rfl⟩

theorem lookAgain_cases (r : MemoryRegistry) (caller : Nat) :
    (r.lookAgain caller = (r, none) ∧ ∀ w ∈ r.parked, w.caller ≠ caller) ∨
      ∃ w ∈ r.parked, w.caller = caller ∧
        ((∃ result, r.lookAgain caller = (r.unpark caller, some result) ∧
            ∀ response, result = .ok response →
              (r.unpark caller).answer w.model w.cursor = .ok (some response)) ∨
          (r.lookAgain caller = ((r.unpark caller).park w, none) ∧
            (r.unpark caller).look w.link w.model w.cursor = .ok none)) := by
  unfold lookAgain
  cases hfind : r.parked.find? (·.caller == caller) with
  | none => exact .inl ⟨rfl, fun w hw => by simpa using List.find?_eq_none.mp hfind w hw⟩
  | some w =>
    refine .inr ⟨w, List.mem_of_find?_eq_some hfind, by simpa using List.find?_some hfind, ?_⟩
    cases hlook : (r.unpark caller).look w.link w.model w.cursor with
    | error e => exact .inl ⟨.error e, by simp only [hlook], by simp⟩
    | ok found =>
      cases found with
      | some response =>
        refine .inl ⟨.ok response, by simp only [hlook], ?_⟩
        intro response' he
        obtain rfl : response = response' := by simpa using he
        exact look_eq_some hlook
      | none => exact .inr ⟨by simp only [hlook], rfl⟩

theorem ask_cases (r : MemoryRegistry) (now caller : Nat) {q : Query}
    (h : ∀ link model, q = .request link (.publish model) →
      r.entries.contains model.id ∨ Lapsed lax H r model.id) :
    ∃ r', Keeps lax H r r' ∧
      (r.ask now caller q = (r', .held) ∨
        (∃ reply, r.ask now caller q = (r', .timed (some now) reply) ∧
          ∀ response, reply = .changed (.ok response) → ∃ link model c,
            q = .watch link model c ∧ r'.answer model c = .ok (some response)) ∨
        ∃ link model c, q = .watch link model c ∧
          r.ask now caller q = (r'.park ⟨caller, link, model, c⟩, .parked) ∧
          r'.look link model c = .ok none) := by
  cases q with
  | resolve cluster =>
    exact ⟨_, keeps_resolve r cluster, .inr (.inl ⟨_, rfl, by simp⟩)⟩
  | dial address =>
    refine ⟨{ r with dials := r.dials + 1 }, ?_, .inl rfl⟩
    exact keeps_of_links rfl rfl rfl rfl (Nat.le_refl _) (fun _ _ h => h)
  | request link q =>
    exact ⟨_, keeps_request (fun model hq => h link model (by rw [hq])),
      .inr (.inl ⟨_, rfl, by simp⟩)⟩
  | watch link model c =>
    obtain ⟨r', hk, ⟨result, hw, ha⟩ | ⟨hw, hl⟩⟩ := watch_cases r caller link model c
    · refine ⟨r', hk, .inr (.inl ⟨.changed result, by simp [ask, hw], ?_⟩)⟩
      intro response he
      exact ⟨link, model, c, rfl, ha response (by simpa using he)⟩
    · exact ⟨r', hk, .inr (.inr ⟨link, model, c, rfl, by simp [ask, hw], hl⟩)⟩
  | trial link cached => exact ⟨r, .refl H r, .inr (.inl ⟨_, rfl, by simp⟩)⟩

end MemoryRegistry

end ModelRegistry
