import ModelRegistry.Proofs.ChangeLog

namespace ModelRegistry

namespace MemoryRegistry

/-- From `r` to `r'` nothing is lost for those who go on from a cursor in `H`, which is of the log
or, if `lax` holds, may lie beyond it; and a watch that finds nothing new at `r` finds nothing new
at `r'` unless an announcement is made. -/
structure Keeps (lax : Prop) (H : ModelId → Cursor → Prop) (r r' : MemoryRegistry) : Prop where
  identities : r'.identities = r.identities
  parked : r'.parked = r.parked
  announced : r.announcements ≤ r'.announcements
  inStep : ∀ model c A, H model c → r.InStep lax model c A → r'.InStep lax model c A
  look : r'.announcements = r.announcements →
    ∀ link model c, r.look link model c = .ok none → r'.look link model c = .ok none

variable {lax : Prop}

theorem Keeps.refl (H : ModelId → Cursor → Prop) (r : MemoryRegistry) : Keeps lax H r r :=
  ⟨rfl, rfl, Nat.le_refl _, fun _ _ _ _ h => h, fun _ _ _ _ h => h⟩

theorem Keeps.trans {H : ModelId → Cursor → Prop} {r s t : MemoryRegistry} (h : Keeps lax H r s)
    (h' : Keeps lax H s t) : Keeps lax H r t where
  identities := h'.identities.trans h.identities
  parked := h'.parked.trans h.parked
  announced := h.announced.trans h'.announced
  inStep := fun model c A hc hs => h'.inStep model c A hc (h.inStep model c A hc hs)
  look := by
    intro ha link model c hl
    have hle := h.announced
    have hle' := h'.announced
    exact h'.look (by omega) link model c (h.look (by omega) link model c hl)

variable {H : ModelId → Cursor → Prop}

theorem keeps_of_entries {r r' : MemoryRegistry} (hi : r'.identities = r.identities)
    (hr : r'.restarts = r.restarts) (hp : r'.parked = r.parked)
    (ha : r.announcements ≤ r'.announcements)
    (he : ∀ model e', r'.entries[model]? = some e' →
      (∃ e, r.entries[model]? = some e ∧ ∀ c A, H model c → c.instanceId = r.identity →
          e.Fits lax c.seqno A → e'.Fits lax c.seqno A) ∨
        ∀ c, H model c → c.instanceId = r.identity → lax ∧ e'.next < c.seqno)
    (hl : r'.announcements = r.announcements →
      ∀ link model c, r.look link model c = .ok none → r'.look link model c = .ok none) :
    Keeps lax H r r' where
  identities := hi
  parked := hp
  announced := ha
  look := hl
  inStep := by
    intro model c A hc hs
    have hid : r'.identity = r.identity := by rw [identity, identity, hi, hr]
    constructor
    · intro hci e' he'
      rw [hid] at hci
      rcases he model e' he' with ⟨e, hre, hd⟩ | hbeyond
      · exact hd c A hc hci (hs.agrees hci e hre)
      · exact .inr (hbeyond c hc hci)
    · rcases hs.issued with h | ⟨k, hk, h⟩
      · exact .inl h
      · exact .inr ⟨k, hr ▸ hk, by rw [hi, h]⟩

theorem keeps_of_links {r r' : MemoryRegistry} (hi : r'.identities = r.identities)
    (hr : r'.restarts = r.restarts) (he : r'.entries = r.entries) (hp : r'.parked = r.parked)
    (ha : r.announcements ≤ r'.announcements)
    (hl : r'.announcements = r.announcements → ∀ link, r.isOpen link → r'.isOpen link) :
    Keeps lax H r r' := by
  apply keeps_of_entries hi hr hp ha
  · intro model e' he'
    exact .inl ⟨e', he ▸ he', fun _ _ _ _ h => h⟩
  · intro hsame link model c hlook
    obtain ⟨hopen, e, hre, hc⟩ := look_eq_none_iff.mp hlook
    rw [look_eq_none_iff]
    refine ⟨hl hsame link hopen, e, he ▸ hre, ?_⟩
    rwa [identity, hi, hr]

theorem entries_modifyEntry {r : MemoryRegistry} {id model : ModelId} {f : Entry → Entry}
    {e' : Entry} (h : (r.modifyEntry id f).entries[model]? = some e') :
    ∃ e, r.entries[model]? = some e ∧ (e' = e ∨ model = id ∧ e' = f e) := by
  unfold modifyEntry at h
  split at h
  · rename_i e he
    simp only [Std.ExtTreeMap.getElem?_insert] at h
    split at h
    · rename_i hc
      obtain rfl := Std.LawfulEqOrd.eq_of_compare hc
      exact ⟨e, he, .inr ⟨rfl, (Option.some.inj h).symm⟩⟩
    · exact ⟨e', h, .inl rfl⟩
  · exact ⟨e', h, .inl rfl⟩

theorem modifyEntry_eq (r : MemoryRegistry) (id : ModelId) (f : Entry → Entry) :
    ∃ entries, r.modifyEntry id f = { r with entries } := by
  unfold modifyEntry
  split
  · exact ⟨_, rfl⟩
  · exact ⟨r.entries, rfl⟩

def StopsShort (H : ModelId → Cursor → Prop) (r : MemoryRegistry) (id : ModelId)
    (f : Entry → Entry) : Prop :=
  ∀ e, r.entries[id]? = some e → e.next < (f e).next →
    ∀ c, H id c → c.instanceId = r.identity → c.seqno ≠ (f e).next

theorem keeps_modifyEntry_announce (r : MemoryRegistry) (id : ModelId) {f : Entry → Entry}
    (hf : ∀ e n A, e.Dates n A → (f e).Dates n A)
    (hnext : ∀ e, (f e).next ≤ e.next + 1) (hl : lax → r.StopsShort H id f) :
    Keeps lax H r (r.modifyEntry id f).announce := by
  obtain ⟨entries, heq⟩ := r.modifyEntry_eq id f
  apply keeps_of_entries
  · simp [announce, heq]
  · simp [announce, heq]
  · simp [announce, heq]
  · simp [announce, heq]
  · intro model e' he'
    obtain ⟨e, he, rfl | ⟨rfl, rfl⟩⟩ := entries_modifyEntry he'
    · exact .inl ⟨e', he, fun _ _ _ _ h => h⟩
    · refine .inl ⟨e, he, fun c A hc hci hfits => hfits.mono (hf e _ A) fun hlax hlt => ?_⟩
      have hle := hnext e
      have hne := hl hlax e he
      by_cases hgrows : e.next < (f e).next
      · have := hne hgrows c hc hci
        omega
      · omega
  · intro hsame
    simp [announce, heq] at hsame

theorem keeps_modifyEntry (r : MemoryRegistry) (id : ModelId) {f : Entry → Entry}
    (hf : ∀ e n A, e.Dates n A → (f e).Dates n A) (hnext : ∀ e, (f e).next = e.next) :
    Keeps lax H r (r.modifyEntry id f) := by
  unfold modifyEntry
  split
  · rename_i e he
    refine keeps_of_entries rfl rfl rfl (Nat.le_refl _) ?_ ?_
    · intro model e' he'
      simp only [Std.ExtTreeMap.getElem?_insert] at he'
      split at he'
      · rename_i hc
        obtain rfl := Std.LawfulEqOrd.eq_of_compare hc
        obtain rfl := Option.some.inj he'
        refine .inl ⟨e, he, fun c A _ _ hfits => hfits.mono (hf e _ A) fun _ hlt => ?_⟩
        rwa [hnext]
      · exact .inl ⟨e', he', fun _ _ _ _ h => h⟩
    · intro _ link model c hl
      obtain ⟨hopen, e₀, he₀, hi, hs⟩ := look_eq_none_iff.mp hl
      rw [look_eq_none_iff]
      refine ⟨hopen, ?_⟩
      simp only [Std.ExtTreeMap.getElem?_insert]
      split
      · rename_i hc
        obtain rfl := Std.LawfulEqOrd.eq_of_compare hc
        obtain rfl := Option.some.inj (he.symm.trans he₀)
        exact ⟨f e, rfl, hi, by rw [hnext, hs]⟩
      · exact ⟨e₀, he₀, hi, hs⟩
  · exact .refl H r

theorem keeps_restart {r : MemoryRegistry} (hr : Distinct r.identities) (id : ModelId)
    (addresses : List String) : Keeps lax H r (r.restart id addresses).announce := by
  obtain ⟨entries, heq⟩ := modifyEntry_eq
    { r with restarts := r.restarts + 1, entries := r.entries.map (fun _ => Entry.forgetLog) } id
    (fun e => { e with addresses })
  have hrestart : r.restart id addresses = { r with restarts := r.restarts + 1, entries } := heq
  rw [hrestart]
  constructor
  · rfl
  · rfl
  · exact Nat.le_succ _
  · intro model c A _ hs
    constructor
    · intro hc
      rcases hs.issued with h | ⟨k, hk, h⟩
      · exact absurd (hc.symm.trans h) (hr.nonempty _)
      · have hne := hr.injective _ _ (h.symm.trans hc)
        simp only [announce] at hne
        omega
    · rcases hs.issued with h | ⟨k, hk, h⟩
      · exact .inl h
      · exact .inr ⟨k, Nat.le_succ_of_le hk, h⟩
  · intro hsame
    simp [announce] at hsame

def Clear (H : ModelId → Cursor → Prop) (r : MemoryRegistry) (model : ModelId) : Prop :=
  ∀ c, H model c → c.instanceId ≠ r.identity

def Lapsed (lax : Prop) (H : ModelId → Cursor → Prop) (r : MemoryRegistry) (model : ModelId) :
    Prop :=
  ∀ c, H model c → c.instanceId = r.identity → lax ∧ 0 < c.seqno

theorem Clear.lapsed {r : MemoryRegistry} {model : ModelId} (h : Clear H r model) :
    Lapsed lax H r model :=
  fun c hc hci => absurd hci (h c hc)

def Lets (lax : Prop) (H : ModelId → Cursor → Prop) (r : MemoryRegistry) : Command → Prop
  | .publish model _ => Lapsed lax H r model.id
  | .addAddress id address => lax → StopsShort H r id (·.add address)
  | .removeAddress id address => lax → StopsShort H r id (·.remove address)
  | _ => True

theorem keeps_publish_announce {r : MemoryRegistry} {model : Model}
    (h : Lapsed lax H r model.id)
    (addresses : List String) : Keeps lax H r (r.command (.publish model addresses)) := by
  refine keeps_of_entries rfl rfl rfl (Nat.le_succ _) ?_ ?_
  · intro m e' he'
    simp only [command, announce, Std.ExtTreeMap.getElem?_insert] at he'
    split at he'
    · rename_i hc
      obtain rfl := Std.LawfulEqOrd.eq_of_compare hc
      obtain rfl := Option.some.inj he'
      exact .inr h
    · exact .inl ⟨e', he', fun _ _ _ _ h => h⟩
  · intro hsame
    simp [command, announce] at hsame

theorem keeps_unpublish (r : MemoryRegistry) (id : ModelId) :
    Keeps lax H r { r with entries := r.entries.erase id }.announce := by
  refine keeps_of_entries rfl rfl rfl (Nat.le_succ _) ?_ ?_
  · intro m e' he'
    simp only [announce, Std.ExtTreeMap.getElem?_erase] at he'
    split at he'
    · cases he'
    · exact .inl ⟨e', he', fun _ _ _ _ h => h⟩
  · intro hsame
    simp [announce] at hsame

theorem keeps_command {r : MemoryRegistry} (hr : Distinct r.identities) (c : Command)
    (h : Lets lax H r c) : Keeps lax H r (r.command c) := by
  cases c with
  | publish model addresses => exact keeps_publish_announce h addresses
  | unpublish id => exact keeps_unpublish r id
  | addAddress id address =>
    exact keeps_modifyEntry_announce r id (fun _ _ _ h => h.add address)
      (fun e => e.next_add_le address) h
  | removeAddress id address =>
    exact keeps_modifyEntry_announce r id (fun _ _ _ h => h.remove address)
      (fun e => e.next_remove_le address) h
  | restart id addresses => exact keeps_restart hr id addresses
  | dropConnections =>
    refine keeps_of_links rfl rfl rfl rfl (Nat.le_succ _) ?_
    intro hsame
    simp [command, announce] at hsame
  | _ => exact keeps_of_links rfl rfl rfl rfl (Nat.le_refl _) (fun _ _ h => h)

theorem keeps_resolve (r : MemoryRegistry) (cluster : ClusterId) :
    Keeps lax H r (r.resolve cluster).1 :=
  keeps_of_links rfl rfl rfl rfl (Nat.le_refl _) (fun _ _ h => h)

theorem keeps_connect (r : MemoryRegistry) : Keeps lax H r r.connect.1 := by
  unfold connect
  split
  · exact keeps_of_links rfl rfl rfl rfl (Nat.le_refl _) (fun _ _ h => h)
  · refine keeps_of_links rfl rfl rfl rfl (Nat.le_refl _) ?_
    intro _ link hopen
    unfold isOpen at hopen ⊢
    cases hl : r.links[link]? with
    | none => simp [hl] at hopen
    | some l =>
      have hlt := (Array.getElem?_eq_some_iff.mp hl).1
      have hpush : (r.links.push ⟨r.epoch, false⟩)[link]? = some l := by
        rw [Array.getElem?_push_lt hlt, ← hl, Array.getElem?_eq_getElem hlt]
      simpa [hl, hpush] using hopen

theorem keeps_present (r : MemoryRegistry) (model : ModelId) (c : Cursor) :
    Keeps lax H r (r.present model c) :=
  keeps_of_links rfl rfl rfl rfl (Nat.le_refl _) (fun _ _ h => h)

theorem keeps_close (r : MemoryRegistry) (link : Link) : Keeps lax H r (r.close link) := by
  unfold close
  split
  · split
    · exact .refl H r
    · refine keeps_of_links rfl rfl rfl rfl (Nat.le_succ _) ?_
      intro hsame
      simp [announce] at hsame
  · exact .refl H r

theorem begin_eq (r : MemoryRegistry) (link : Link) :
    ∃ callFailures, (r.begin link).1 = { r with callFailures } := by
  unfold begin
  split
  · exact ⟨r.callFailures, rfl⟩
  · exact ⟨_, rfl⟩
  · exact ⟨r.callFailures, rfl⟩

theorem keeps_callFailures (r : MemoryRegistry) (callFailures : List Error) :
    Keeps lax H r { r with callFailures } :=
  keeps_of_links rfl rfl rfl rfl (Nat.le_refl _) (fun _ _ h => h)

theorem keeps_perform {r : MemoryRegistry} {q : Request}
    (h : ∀ model, q = .publish model → r.entries.contains model.id ∨ Lapsed lax H r model.id) :
    Keeps lax H r (r.perform q).1 := by
  cases q with
  | publish model =>
    simp only [perform]
    split
    · exact .refl H r
    · rename_i hc
      have hlapsed := (h model rfl).resolve_left hc
      have hnone : r.entries[model.id]? = none := by simpa using hc
      refine keeps_of_entries rfl rfl rfl (Nat.le_refl _) ?_ ?_
      · intro m e' he'
        simp only [Std.ExtTreeMap.getElem?_insert] at he'
        split at he'
        · rename_i hm
          obtain rfl := Std.LawfulEqOrd.eq_of_compare hm
          obtain rfl := Option.some.inj he'
          exact .inr hlapsed
        · exact .inl ⟨e', he', fun _ _ _ _ h => h⟩
      · intro _ link m c hl
        obtain ⟨hopen, e, he, hc⟩ := look_eq_none_iff.mp hl
        have hm : ¬ compare model.id m = .eq := by
          intro hm
          obtain rfl := Std.LawfulEqOrd.eq_of_compare hm
          simp [hnone] at he
        refine look_eq_none_iff.mpr ⟨hopen, e, ?_, hc⟩
        simp [Std.ExtTreeMap.getElem?_insert, hm, he]
  | update model =>
    simp only [perform]
    split
    · exact keeps_modifyEntry r model.id (fun e n A h => ⟨h.start_le, h.le_next, h.replay_eq⟩)
        (fun _ => rfl)
    · exact .refl H r
  | unpublish id => exact keeps_unpublish r id
  | _ => exact .refl H r

theorem keeps_request {r : MemoryRegistry} {link : Link} {q : Request}
    (h : ∀ model, q = .publish model → r.entries.contains model.id ∨ Lapsed lax H r model.id) :
    Keeps lax H r (r.request link q).1 := by
  obtain ⟨callFailures, hb⟩ := r.begin_eq link
  unfold request
  cases hbegin : r.begin link with
  | mk r' result =>
    obtain rfl : r' = { r with callFailures } := by rw [← hb, hbegin]
    cases result with
    | ok => exact (keeps_callFailures r callFailures).trans (keeps_perform h)
    | error e => exact keeps_callFailures r callFailures

end MemoryRegistry

end ModelRegistry
