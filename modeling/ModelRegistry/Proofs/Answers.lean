import Mathlib.Logic.Function.Basic
import ModelRegistry.Proofs.ChangeLog
import ModelRegistry.Proofs.LastWord

/-!
The answers of a registry in memory about one model, for as long as the model's entry stays in
place. Whoever holds the set that the entry had when a cursor was given to him is led to the present
set by any answer to that cursor, whether it is the whole set or the rest of the log.
-/

namespace ModelRegistry

namespace Entry

def checkedLogFrom (e : Entry) (seqno : Nat) : Option (List Mutation) :=
  if e.logStart ≤ seqno ∧ seqno - e.logStart ≤ e.log.length then some (e.logFrom seqno) else none

def checkedAnswer (identity : String) (e : Entry) (c : Cursor) : Option (Option DiffBatch) :=
  if c.instanceId ≠ identity ∨ c.seqno < e.logStart ∨ e.next < c.seqno then
    some (some (.full e.addresses e.next))
  else if c.seqno < e.next then do
    let log ← e.checkedLogFrom c.seqno
    return some (.incremental log e.next)
  else some none

theorem checkedAnswer_eq (identity : String) (e : Entry) (c : Cursor) :
    e.checkedAnswer identity c = some (e.answer identity c) := by
  unfold checkedAnswer answer
  split
  · rfl
  next hfull =>
    split
    next hlt =>
      have hcut : e.logStart ≤ c.seqno ∧ c.seqno - e.logStart ≤ e.log.length := by
        simp only [next] at hlt hfull
        omega
      simp [checkedLogFrom, hcut]
    next => rfl

theorem next_of_answer {identity : String} {e : Entry} {c : Cursor} {b : DiffBatch}
    (h : e.answer identity c = some b) : b.next = e.next := by
  unfold answer at h
  split at h
  · cases h
    rfl
  · split at h
    · cases h
      rfl
    · cases h

end Entry

def Replica.Holds (r : Replica) (l : List String) : Prop := ∀ a, r.contains a ↔ a ∈ l

theorem Replica.holds_iff {r : Replica} (h : r.addresses.Coherent) {l : List String} :
    r.Holds l ↔ r.addresses.members = l.toFinset := by
  simp only [Holds, contains_iff h, Finset.ext_iff, List.mem_toFinset]

namespace MemoryRegistry

variable {r r' : MemoryRegistry} {id : ModelId} {e : Entry} {given : List (Cursor × List String)}

def Command.Replaces (id : ModelId) : Command → Prop
  | .publish model _ => model.id = id
  | .unpublish other => other = id
  | _ => False

/-- From the publication of a model on the registry has been operated without its entry being
removed or replaced. In `given` are the cursors that answers about the model have borne, each with
the addresses of the entry at that moment. -/
inductive Tended (id : ModelId) : MemoryRegistry → List (Cursor × List String) → Prop
  | publish (r : MemoryRegistry) (model : Model) (addresses : List String) : model.id = id →
      Tended id (r.command (.publish model addresses)) []
  | register (r : MemoryRegistry) (model : Model) : model.id = id → id ∉ r.entries →
      Tended id (r.perform (.publish model)).1 []
  | command {r : MemoryRegistry} {given : List (Cursor × List String)} (c : Command) :
      Tended id r given → ¬ c.Replaces id → Tended id (r.command c) given
  | request {r : MemoryRegistry} {given : List (Cursor × List String)} (q : Request) :
      Tended id r given → q ≠ .unpublish id → Tended id (r.perform q).1 given
  | answer {r : MemoryRegistry} {given : List (Cursor × List String)} {e : Entry} (c : Cursor)
      {response : Response} : Tended id r given → r.entries[id]? = some e →
      r.answer id c = .ok (some response) → Tended id r ((response.next, e.addresses) :: given)

inductive Turned (id : ModelId) (r : MemoryRegistry) (e : Entry) (r' : MemoryRegistry) : Prop
  | same {e' : Entry} : r'.entries[id]? = some e' → r'.identities = r.identities →
      r'.restarts = r.restarts → (∀ n A, e.Dates n A → e'.Dates n A) → Turned id r e r'
  | restarted {e' : Entry} : r'.entries[id]? = some e' → r'.identities = r.identities →
      r'.restarts = r.restarts + 1 → Turned id r e r'

theorem getElem?_modifyEntry (r : MemoryRegistry) (other id : ModelId) (f : Entry → Entry) :
    (r.modifyEntry other f).entries[id]? =
      if other = id then r.entries[id]?.map f else r.entries[id]? := by
  unfold modifyEntry
  split
  next e ho =>
    simp only [Std.ExtTreeMap.getElem?_insert, Std.LawfulEqOrd.compare_eq_iff_eq]
    split
    next heq =>
      subst heq
      simp [ho]
    next => rfl
  next ho =>
    split
    next heq =>
      subst heq
      simp [ho]
    next => rfl

theorem modifyEntry_process (r : MemoryRegistry) (other : ModelId) (f : Entry → Entry) :
    (r.modifyEntry other f).identities = r.identities ∧
      (r.modifyEntry other f).restarts = r.restarts := by
  unfold modifyEntry
  split <;> exact ⟨rfl, rfl⟩

theorem turned_modifyEntry (he : r.entries[id]? = some e) (other : ModelId) {f : Entry → Entry}
    (hf : ∀ n A, e.Dates n A → (f e).Dates n A) : Turned id r e (r.modifyEntry other f) := by
  obtain ⟨hidentities, hrestarts⟩ := r.modifyEntry_process other f
  have hentry := r.getElem?_modifyEntry other id f
  rw [he] at hentry
  by_cases heq : other = id
  · rw [if_pos heq] at hentry
    exact .same hentry hidentities hrestarts hf
  · rw [if_neg heq] at hentry
    exact .same hentry hidentities hrestarts fun _ _ h => h

theorem turned_of_entries (he : r.entries[id]? = some e) (hentry : r'.entries[id]? = r.entries[id]?)
    (hidentities : r'.identities = r.identities) (hrestarts : r'.restarts = r.restarts) :
    Turned id r e r' :=
  .same (hentry.trans he) hidentities hrestarts fun _ _ h => h

theorem Turned.announce (h : Turned id r e r') : Turned id r e r'.announce := by
  cases h with
  | same he hidentities hrestarts hdates => exact .same he hidentities hrestarts hdates
  | restarted he hidentities hrestarts => exact .restarted he hidentities hrestarts

theorem turned_restart (he : r.entries[id]? = some e) (other : ModelId) (addresses : List String) :
    Turned id r e (r.restart other addresses) := by
  let forgetful : MemoryRegistry :=
    { r with restarts := r.restarts + 1, entries := r.entries.map fun _ => Entry.forgetLog }
  let f (e : Entry) : Entry := { e with addresses }
  obtain ⟨hidentities, hrestarts⟩ := forgetful.modifyEntry_process other f
  have hforgotten : forgetful.entries[id]? = some e.forgetLog := by
    simp [forgetful, he]
  have hentry := forgetful.getElem?_modifyEntry other id f
  rw [hforgotten] at hentry
  by_cases heq : other = id
  · rw [if_pos heq] at hentry
    exact .restarted hentry hidentities hrestarts
  · rw [if_neg heq] at hentry
    exact .restarted hentry hidentities hrestarts

theorem turned_command (he : r.entries[id]? = some e) {c : Command} (hc : ¬ c.Replaces id) :
    Turned id r e (r.command c) := by
  cases c with
  | publish model addresses =>
    refine turned_of_entries he ?_ rfl rfl
    have hne : model.id ≠ id := hc
    simp [command, MemoryRegistry.announce, Std.ExtTreeMap.getElem?_insert, hne]
  | unpublish other =>
    refine turned_of_entries he ?_ rfl rfl
    have hne : other ≠ id := hc
    simp [command, MemoryRegistry.announce, Std.ExtTreeMap.getElem?_erase, hne]
  | addAddress other address =>
    have hturned := turned_modifyEntry (f := (·.add address)) he other fun _ _ h => h.add address
    exact hturned.announce
  | removeAddress other address =>
    have hturned := turned_modifyEntry (f := (·.remove address)) he other
      fun _ _ h => h.remove address
    exact hturned.announce
  | restart other addresses => exact (turned_restart he other addresses).announce
  | _ => exact turned_of_entries he rfl rfl rfl

theorem turned_perform (he : r.entries[id]? = some e) {q : Request} (hq : q ≠ .unpublish id) :
    Turned id r e (r.perform q).1 := by
  cases q with
  | publish model =>
    unfold perform
    simp only
    split
    · exact turned_of_entries he rfl rfl rfl
    next hfree =>
      have hne : model.id ≠ id := by
        rintro rfl
        rw [Std.ExtTreeMap.contains_eq_isSome_getElem?, he] at hfree
        exact hfree rfl
      refine turned_of_entries he ?_ rfl rfl
      simp [Std.ExtTreeMap.getElem?_insert, hne]
  | update model =>
    unfold perform
    simp only
    split
    · exact turned_modifyEntry he model.id fun _ _ h => ⟨h.start_le, h.le_next, h.replay_eq⟩
    · exact turned_of_entries he rfl rfl rfl
  | unpublish other =>
    have hne : other ≠ id := by
      rintro rfl
      exact hq rfl
    refine turned_of_entries he ?_ rfl rfl
    simp [perform, MemoryRegistry.announce, Std.ExtTreeMap.getElem?_erase, hne]
  | _ => exact turned_of_entries he rfl rfl rfl

def Dated (r : MemoryRegistry) (e : Entry) (c : Cursor) (l : List String) : Prop :=
  ∃ k ≤ r.restarts, c.instanceId = r.identities k ∧ (k = r.restarts → e.Dates c.seqno l.toFinset)

def Stands (r : MemoryRegistry) (id : ModelId) (given : List (Cursor × List String)) : Prop :=
  ∃ e, r.entries[id]? = some e ∧ ∀ p ∈ given, r.Dated e p.1 p.2

theorem Turned.stands (h : Turned id r e r') (hgiven : ∀ p ∈ given, r.Dated e p.1 p.2) :
    r'.Stands id given := by
  cases h with
  | @same e' he hidentities hrestarts hdates =>
    refine ⟨e', he, fun p hp => ?_⟩
    obtain ⟨k, hk, hinstance, hdated⟩ := hgiven p hp
    rw [Dated, hidentities, hrestarts]
    exact ⟨k, hk, hinstance, fun heq => hdates _ _ (hdated heq)⟩
  | @restarted e' he hidentities hrestarts =>
    refine ⟨e', he, fun p hp => ?_⟩
    obtain ⟨k, hk, hinstance, -⟩ := hgiven p hp
    rw [Dated, hidentities, hrestarts]
    refine ⟨k, Nat.le_succ_of_le hk, hinstance, fun heq => ?_⟩
    omega

theorem answer_of_entry (he : r.entries[id]? = some e) (c : Cursor) :
    r.answer id c = .ok ((e.answer r.identity c).map (⟨r.identity, ·⟩)) := by
  unfold answer
  rw [he]

theorem eq_of_answer {c : Cursor} {response : Response} (he : r.entries[id]? = some e)
    (h : r.answer id c = .ok (some response)) :
    ∃ b, e.answer r.identity c = some b ∧ response = ⟨r.identity, b⟩ := by
  rw [answer_of_entry he] at h
  obtain ⟨b, hb, heq⟩ := Option.map_eq_some_iff.1 (Except.ok.inj h)
  exact ⟨b, hb, heq.symm⟩

theorem Tended.stands (h : Tended id r given) : r.Stands id given := by
  induction h with
  | publish r model addresses hid =>
    subst hid
    refine ⟨.new model addresses, ?_, nofun⟩
    simp [MemoryRegistry.command, MemoryRegistry.announce]
  | register r model hid hfree =>
    subst hid
    refine ⟨.new model [], ?_, nofun⟩
    have hnot : r.entries.contains model.id = false := by
      rwa [← Bool.not_eq_true, ← Std.ExtTreeMap.mem_iff_contains]
    simp [perform, hnot]
  | command c _ hc ih =>
    obtain ⟨e, he, hgiven⟩ := ih
    exact (turned_command he hc).stands hgiven
  | request q _ hq ih =>
    obtain ⟨e, he, hgiven⟩ := ih
    exact (turned_perform he hq).stands hgiven
  | @answer r given e c response _ he hanswer ih =>
    obtain ⟨e', he', hgiven⟩ := ih
    obtain rfl : e = e' := Option.some.inj (he.symm.trans he')
    refine ⟨e, he, fun p hp => ?_⟩
    obtain rfl | hp := List.mem_cons.1 hp
    · obtain ⟨b, hb, rfl⟩ := eq_of_answer he hanswer
      refine ⟨r.restarts, Nat.le_refl _, rfl, fun _ => ?_⟩
      change e.Dates b.next e.addresses.toFinset
      rw [Entry.next_of_answer hb]
      exact e.dates_next
    · exact hgiven p hp

structure Agrees (r : MemoryRegistry) (id : ModelId) (e : Entry)
    (given : List (Cursor × List String)) : Prop where
  answer : ∀ c, r.answer id c = .ok ((e.answer r.identity c).map (⟨r.identity, ·⟩))
  inRange : ∀ c, e.checkedAnswer r.identity c = some (e.answer r.identity c)
  current : ∀ c, r.answer id c = .ok none ↔ c = ⟨r.identity, e.next⟩
  leads : ∀ c l, (c, l) ∈ given → ∀ model batches, (Replica.fed model batches).Holds l →
    ∀ response, r.answer id c = .ok (some response) →
      ((Replica.fed model batches).apply response.batch).Holds e.addresses ∧
      ((Replica.fed model batches).apply (.full e.addresses e.next)).Holds e.addresses ∧
      response.next = ⟨r.identity, e.next⟩
  rests : ∀ c l, (c, l) ∈ given → r.answer id c = .ok none →
    ∀ model batches, (Replica.fed model batches).Holds l →
      (Replica.fed model batches).Holds e.addresses

theorem Dated.dates {c : Cursor} {l : List String} (h : r.Dated e c l)
    (hfresh : Function.Injective r.identities) (hc : c.instanceId = r.identity) :
    e.Dates c.seqno l.toFinset := by
  obtain ⟨k, -, hinstance, hdates⟩ := h
  exact hdates (hfresh (hinstance.symm.trans hc))

theorem Tended.answers_agree (h : Tended id r given) (hfresh : Function.Injective r.identities) :
    ∃ e, r.entries[id]? = some e ∧ r.Agrees id e given := by
  obtain ⟨e, he, hgiven⟩ := h.stands
  have hdates {c : Cursor} {l : List String} (hc : (c, l) ∈ given)
      (hinstance : c.instanceId = r.identity) : e.Dates c.seqno l.toFinset :=
    (hgiven _ hc).dates hfresh hinstance
  have hcurrent (c : Cursor) : r.answer id c = .ok none ↔ c = ⟨r.identity, e.next⟩ := by
    rw [answer_of_entry he, Except.ok.injEq, Option.map_eq_none_iff, Entry.answer_eq_none_iff]
    cases c
    simp
  refine ⟨e, he, ?_⟩
  constructor
  · exact answer_of_entry he
  · exact e.checkedAnswer_eq r.identity
  · exact hcurrent
  · intro c l hc model batches hholds response hanswer
    obtain ⟨b, hb, rfl⟩ := eq_of_answer he hanswer
    have hcoherent := Replica.coherent_fed model batches
    rw [Replica.holds_iff hcoherent] at hholds
    obtain ⟨hact, hnext⟩ := Entry.act_of_answer (fun hinstance _ _ => hdates hc hinstance) hb
    refine ⟨?_, ?_, ?_⟩
    · rw [Replica.holds_iff (hcoherent.apply b), ← hact, ← hholds]
      exact AddressSet.members_apply hcoherent b
    · rw [Replica.holds_iff (hcoherent.apply _)]
      exact AddressSet.members_apply hcoherent _
    · rw [Response.next, hnext]
  · intro c l hc hanswer model batches hholds a
    obtain rfl := (hcurrent c).1 hanswer
    have hset := (hdates hc rfl).eq_of_next
    rw [hholds a, ← List.mem_toFinset, hset, List.mem_toFinset]

def serial (k : Nat) : String := String.ofList (.replicate (k + 1) 'i')

theorem serial_injective : Function.Injective serial := by
  intro j k h
  have hlength := congrArg String.length h
  simpa [serial] using hlength

def lm : ModelId := ⟨"lm"⟩

def doubled : MemoryRegistry := (new serial).command (.publish (.conventional lm) ["a", "a"])

def moved : MemoryRegistry := (doubled.command (.addAddress lm "b")).command (.removeAddress lm "a")

theorem answers_agree_moved : Function.Injective moved.identities ∧
    Tended lm moved [(⟨"i", 0⟩, ["a", "a"])] ∧
    moved.answer lm ⟨"i", 0⟩ = .ok (some ⟨"i", .incremental [.add "b", .remove "a"] 2⟩) ∧
    ∃ e, moved.entries[lm]? = some e ∧ e.addresses = ["b"] ∧
      moved.Agrees lm e [(⟨"i", 0⟩, ["a", "a"])] := by
  have hpublished : Tended lm doubled [] := .publish (new serial) _ _ rfl
  have hdoubled : doubled.entries[lm]? = some ⟨.conventional lm, ["a", "a"], [], 0⟩ :=
    Std.ExtTreeMap.getElem?_insert_self
  have hfirst : doubled.answer lm .empty = .ok (some ⟨"i", .full ["a", "a"] 0⟩) :=
    answer_of_entry hdoubled .empty
  have hasked : Tended lm doubled [(⟨"i", 0⟩, ["a", "a"])] :=
    hpublished.answer .empty hdoubled hfirst
  have htended : Tended lm moved [(⟨"i", 0⟩, ["a", "a"])] :=
    (hasked.command (.addAddress lm "b") nofun).command (.removeAddress lm "a") nofun
  have hmoved : moved.entries[lm]? =
      some ⟨.conventional lm, ["b"], [.add "b", .remove "a"], 0⟩ := by
    simp [moved, command, MemoryRegistry.announce, getElem?_modifyEntry, hdoubled, Entry.add,
      Entry.remove]
  obtain ⟨e, he, hagrees⟩ := htended.answers_agree serial_injective
  obtain rfl := Option.some.inj (hmoved.symm.trans he)
  exact ⟨serial_injective, htended, hagrees.answer ⟨"i", 0⟩, _, hmoved, rfl, hagrees⟩

end MemoryRegistry

end ModelRegistry
