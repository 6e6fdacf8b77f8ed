import Mathlib.Data.List.Nodup
import ModelRegistry.Proofs.DistinctKeys
import ModelRegistry.SettingsFile

namespace ModelRegistry

theorem getElem?_ofList_iff {κ : Type} [DecidableEq κ] [Ord κ] [Std.TransOrd κ] [Std.LawfulEqOrd κ]
    {l : List (κ × String)} (h : (l.map (·.1)).Nodup) {k : κ} {a : String} :
    (Std.ExtTreeMap.ofList l)[k]? = some a ↔ (k, a) ∈ l := by
  have hpairs : l.Pairwise (fun e e' => ¬ compare e.1 e'.1 = .eq) := by
    refine (List.pairwise_map.1 h).imp fun hne he => hne (Std.LawfulEqOrd.eq_of_compare he)
  have hmem {b : String} (hb : (k, b) ∈ l) : (Std.ExtTreeMap.ofList l)[k]? = some b :=
    Std.ExtTreeMap.getElem?_ofList_of_mem Std.ReflCmp.compare_self hpairs hb
  refine ⟨fun ha => ?_, hmem⟩
  have hkey : (Std.ExtTreeMap.ofList l).contains k := by
    rw [Std.ExtTreeMap.contains_eq_isSome_getElem?, ha]
    rfl
  rw [Std.ExtTreeMap.contains_ofList, List.contains_iff_mem] at hkey
  obtain ⟨⟨k', b⟩, hb, rfl⟩ := List.mem_map.1 hkey
  obtain rfl : b = a := Option.some.inj ((hmem hb).symm.trans ha)
  exact hb

namespace Settings

open Toml (Distinct Value)

structure Item where
  {α : Type}
  name : String
  default : α
  Means : α → Value → Prop
  get : Settings → α

inductive IsNumber : Binary64 → Value → Prop
  | float (x : Binary64) : IsNumber x (.float x)
  | integer (i : Int) : IsNumber (.ofInt i) (.integer i)

def textual (name default : String) (get : Settings → String) : Item :=
  ⟨name, default, fun s v => v = .text s, get⟩

def counted (name : String) (default : Nat) (get : Settings → Nat) : Item :=
  ⟨name, default, fun n v => v = .integer n, get⟩

def measured (name : String) (default : Binary64) (get : Settings → Binary64) : Item :=
  ⟨name, default, IsNumber, get⟩

structure Part where
  name : String
  items : List Item

namespace Part

def logging : Part :=
  ⟨"logging",
    [textual "level" "info" (·.logging.level), textual "format" "pretty" (·.logging.format)]⟩

def registry : Part :=
  ⟨"registry",
    [counted "admin_timeout_ms" 10000 (·.registry.adminTimeout),
      counted "dial_timeout_ms" 10000 (·.registry.dialTimeout),
      counted "watch_retry_delay_ms" 1000 (·.registry.watchRetryDelay),
      counted "watch_channel_capacity" 64 (·.registry.watchChannelCapacity)]⟩

def retry : Part :=
  ⟨"retry",
    [counted "initial_delay_ms" 100 (·.retry.initialDelay),
      counted "max_delay_ms" 5000 (·.retry.maxDelay),
      measured "backoff_multiplier" .two (·.retry.multiplier)]⟩

end Part

def parts : List Part := [.logging, .registry, .retry]

def Part.names (p : Part) : List String := p.items.map (·.name)

def IsSection (w : Value) : Prop := (members? w).isSome ∨ ∃ elements, w = .array elements

inductive Gives (names : List String) : Value → String → Value → Prop
  | named {w : Value} {members : List (String × Value)} {name : String} {v : Value} :
    members? w = some members → (name, v) ∈ members → Gives names w name v
  | placed {elements : List Value} {i : Nat} {name : String} {v : Value} :
    names[i]? = some name → elements[i]? = some v → Gives names (.array elements) name v

def Part.States (p : Part) (members : List (String × Value)) (name : String) (v : Value) : Prop :=
  ∃ w, (p.name, w) ∈ members ∧ Gives p.names w name v

def Configures (members : List (String × Value)) (cluster address : String) : Prop :=
  ∃ w entries, ("clusters", w) ∈ members ∧ members? w = some entries ∧
    (cluster, .text address) ∈ entries

structure Typed (members : List (String × Value)) : Prop where
  sections : ∀ p ∈ parts, ∀ w, (p.name, w) ∈ members → IsSection w
  fields : ∀ p ∈ parts, ∀ i ∈ p.items, ∀ v, p.States members i.name v → ∃ a, i.Means a v
  clusters : ∀ w, ("clusters", w) ∈ members →
    ∃ entries, members? w = some entries ∧ ∀ e ∈ entries, ∃ a, e.2 = .text a

structure Describes (members : List (String × Value)) (s : Settings) : Prop where
  stated : ∀ p ∈ parts, ∀ i ∈ p.items, ∀ v, p.States members i.name v → i.Means (i.get s) v
  missing : ∀ p ∈ parts, ∀ i ∈ p.items, (∀ v, ¬ p.States members i.name v) → i.get s = i.default
  clusters : ∀ c a, s.clusters[c]? = some a ↔ Configures members c a

section Fields

variable {names : List String} {name : String} {w v : Value} {members : List (String × Value)}

theorem distinct_members? (hw : w.Keyed) (h : members? w = some members) :
    Distinct Value.Keyed members := by
  cases w with
  | table l =>
    obtain rfl := Option.some.inj h
    exact hw.distinct
  | moment t =>
    obtain rfl := Option.some.inj h
    exact ⟨List.nodup_singleton _, List.forall_mem_singleton.2 (.text t)⟩
  | _ => cases h

def given? (names : List String) (w : Value) (name : String) : Option Value :=
  match w with
  | .array elements => elements[names.idxOf name]?
  | w => (members? w).bind (·.lookup name)

theorem given?_of_members (h : members? w = some members) :
    given? names w name = members.lookup name := by
  cases w with
  | table l =>
    obtain rfl := Option.some.inj h
    rfl
  | moment t =>
    obtain rfl := Option.some.inj h
    rfl
  | _ => cases h

theorem given?_eq_some_iff (hnames : names.Nodup) (hname : name ∈ names) (hw : w.Keyed) :
    given? names w name = some v ↔ Gives names w name v := by
  cases hmembers : members? w with
  | some members =>
    rw [given?_of_members hmembers, (distinct_members? hw hmembers).lookup_eq_some_iff]
    refine ⟨.named hmembers, fun h => ?_⟩
    cases h with
    | named hsame hv =>
      obtain rfl := Option.some.inj (hmembers.symm.trans hsame)
      exact hv
    | placed => cases hmembers
  | none =>
    constructor
    · intro h
      cases w with
      | array elements => exact .placed (List.getElem?_idxOf hname) h
      | table l => cases hmembers
      | moment t => cases hmembers
      | _ => cases h
    · intro h
      cases h with
      | named hsome => rw [hmembers] at hsome; cases hsome
      | @placed elements i _ _ hi hv =>
        obtain ⟨hlt, rfl⟩ := List.getElem?_eq_some_iff.1 hi
        change elements[names.idxOf names[i]]? = some v
        rwa [hnames.idxOf_getElem]

theorem fields_of_isSection (hnames : names.Nodup) (hw : IsSection w) :
    fields names w = some (names.map (given? names w)) := by
  cases w with
  | array elements =>
    refine congrArg some (List.ext_getElem (by simp) fun i hi _ => ?_)
    have hlt : i < names.length := by simpa using hi
    rw [List.getElem_map, List.getElem_map, List.getElem_range]
    change _ = elements[names.idxOf names[i]]?
    rw [hnames.idxOf_getElem i hlt]
  | table l => rfl
  | moment t => rfl
  | _ => simp [IsSection, members?] at hw

theorem isSection_of_fields {os : List (Option Value)} (h : fields names w = some os) :
    IsSection w := by
  cases w with
  | array elements => exact .inr ⟨elements, rfl⟩
  | table l => exact .inl rfl
  | moment t => exact .inl rfl
  | _ => cases h

end Fields

section Parts

variable {p : Part} {members : List (String × Value)} {s : Settings} {name : String} {v : Value}

def Part.stated? (p : Part) (members : List (String × Value)) (name : String) : Option Value :=
  (members.lookup p.name).bind fun w => given? p.names w name

theorem Part.stated?_eq_some_iff (hp : p.names.Nodup) (hname : name ∈ p.names)
    (hm : Distinct Value.Keyed members) :
    p.stated? members name = some v ↔ p.States members name v := by
  rw [stated?, Option.bind_eq_some_iff]
  refine exists_congr fun w => ?_
  rw [hm.lookup_eq_some_iff]
  exact and_congr_right fun hw => given?_eq_some_iff hp hname (hm.all _ hw)

theorem Part.field_eq_some_iff {β : Type} {read : Value → Option β}
    (build : List (Option Value) → Option β) {default b : β} (hp : p.names.Nodup)
    (hm : Distinct Value.Keyed members) (hread : ∀ w, read w = (fields p.names w).bind build)
    (hdefault : build (p.names.map fun _ => none) = some default) :
    field read default (members.lookup p.name) = some b ↔
      (∀ w, (p.name, w) ∈ members → IsSection w) ∧
        build (p.names.map (p.stated? members)) = some b := by
  have hmem (w : Value) : (p.name, w) ∈ members ↔ members.lookup p.name = some w :=
    hm.lookup_eq_some_iff.symm
  simp only [hmem]
  unfold stated?
  cases members.lookup p.name with
  | none =>
    simp only [Option.bind_none, reduceCtorEq, IsEmpty.forall_iff, implies_true, true_and, hdefault]
    rfl
  | some w =>
    simp only [field, hread, Option.some.injEq, forall_eq', Option.bind_some]
    constructor
    · intro h
      obtain ⟨os, hos, -⟩ := Option.bind_eq_some_iff.1 h
      have hw := isSection_of_fields hos
      rw [fields_of_isSection hp hw] at h
      exact ⟨hw, h⟩
    · rintro ⟨hw, h⟩
      rw [fields_of_isSection hp hw]
      exact h

def Item.Settles (i : Item) (o : Option Value) (s : Settings) : Prop :=
  (∀ v, o = some v → i.Means (i.get s) v) ∧ (o = none → i.get s = i.default)

theorem field_eq_some_iff {α : Type} {read : Value → Option α} {Means : α → Value → Prop}
    (hread : ∀ v a, read v = some a ↔ Means a v) {default a : α} {o : Option Value} :
    field read default o = some a ↔ (∀ v, o = some v → Means a v) ∧ (o = none → a = default) := by
  cases o with
  | none => simp [field, eq_comm]
  | some v => simp [field, hread]

theorem text?_eq_some_iff (v : Value) (a : String) : text? v = some a ↔ v = .text a := by
  cases v <;> simp [text?]

theorem word?_eq_some_iff (v : Value) (n : Nat) : word? v = some n ↔ v = .integer n := by
  cases v with
  | integer i =>
    simp only [word?, Option.ite_none_right_eq_some, Option.some.injEq, Value.integer.injEq]
    omega
  | _ => simp [word?]

theorem number?_eq_some_iff (v : Value) (x : Binary64) : number? v = some x ↔ IsNumber x v := by
  constructor
  · intro h
    cases v with
    | float y =>
      obtain rfl := Option.some.inj h
      exact .float y
    | integer i =>
      obtain rfl := Option.some.inj h
      exact .integer i
    | _ => cases h
  · intro h
    cases h <;> rfl

def loggingOf : List (Option Value) → Option LoggingSettings
  | [level, format] => do return ⟨← field text? "info" level, ← field text? "pretty" format⟩
  | _ => none

def registryOf : List (Option Value) → Option RegistrySettings
  | [admin, dial, delay, capacity] => do
    return ⟨← field word? 10000 admin, ← field word? 10000 dial, ← field word? 1000 delay,
      ← field word? 64 capacity⟩
  | _ => none

def retryOf : List (Option Value) → Option RetrySettings
  | [initial, max, multiplier] => do
    return ⟨← field word? 100 initial, ← field word? 5000 max, ← field number? .two multiplier⟩
  | _ => none

theorem loggingOf_eq_some_iff {o o' : Option Value} {l : LoggingSettings} :
    loggingOf [o, o'] = some l ↔
      field text? "info" o = some l.level ∧ field text? "pretty" o' = some l.format := by
  cases l
  simp [loggingOf, Option.bind_eq_some_iff]

theorem registryOf_eq_some_iff {o₁ o₂ o₃ o₄ : Option Value} {r : RegistrySettings} :
    registryOf [o₁, o₂, o₃, o₄] = some r ↔
      field word? 10000 o₁ = some r.adminTimeout ∧ field word? 10000 o₂ = some r.dialTimeout ∧
        field word? 1000 o₃ = some r.watchRetryDelay ∧
          field word? 64 o₄ = some r.watchChannelCapacity := by
  cases r
  simp [registryOf, Option.bind_eq_some_iff]

theorem retryOf_eq_some_iff {o₁ o₂ o₃ : Option Value} {r : RetrySettings} :
    retryOf [o₁, o₂, o₃] = some r ↔
      field word? 100 o₁ = some r.initialDelay ∧ field word? 5000 o₂ = some r.maxDelay ∧
        field number? .two o₃ = some r.multiplier := by
  cases r
  simp [retryOf, Option.bind_eq_some_iff]

def Part.Settled (p : Part) (members : List (String × Value)) (s : Settings) : Prop :=
  (∀ w, (p.name, w) ∈ members → IsSection w) ∧
    ∀ i ∈ p.items, i.Settles (p.stated? members i.name) s

theorem logging_settled_iff (hm : Distinct Value.Keyed members) :
    field logging? .default (members.lookup "logging") = some s.logging ↔
      Part.logging.Settled members s := by
  have hread := Part.field_eq_some_iff (p := .logging) (b := s.logging) loggingOf (by decide) hm
    (fun _ => rfl) rfl
  refine hread.trans (and_congr_right fun _ => loggingOf_eq_some_iff.trans ?_)
  simp only [field_eq_some_iff text?_eq_some_iff, Part.logging, List.forall_mem_cons,
    List.not_mem_nil, IsEmpty.forall_iff, implies_true, and_true]
  rfl

theorem registry_settled_iff (hm : Distinct Value.Keyed members) :
    field registry? .default (members.lookup "registry") = some s.registry ↔
      Part.registry.Settled members s := by
  have hread := Part.field_eq_some_iff (p := .registry) (b := s.registry) registryOf (by decide) hm
    (fun _ => rfl) rfl
  refine hread.trans (and_congr_right fun _ => registryOf_eq_some_iff.trans ?_)
  simp only [field_eq_some_iff word?_eq_some_iff, Part.registry, List.forall_mem_cons,
    List.not_mem_nil, IsEmpty.forall_iff, implies_true, and_true]
  rfl

theorem retry_settled_iff (hm : Distinct Value.Keyed members) :
    field retry? .default (members.lookup "retry") = some s.retry ↔
      Part.retry.Settled members s := by
  have hread := Part.field_eq_some_iff (p := .retry) (b := s.retry) retryOf (by decide) hm
    (fun _ => rfl) rfl
  refine hread.trans (and_congr_right fun _ => retryOf_eq_some_iff.trans ?_)
  simp only [field_eq_some_iff word?_eq_some_iff, field_eq_some_iff number?_eq_some_iff,
    Part.retry, List.forall_mem_cons, List.not_mem_nil, IsEmpty.forall_iff, implies_true, and_true]
  rfl

end Parts

section Clusters

variable {members entries : List (String × Value)} {s : Settings}

def enter (t : Std.ExtTreeMap String String) (e : String × Value) :
    Option (Std.ExtTreeMap String String) := do
  return t.insert e.1 (← text? e.2)

theorem foldlM_enter (l : List (String × String)) (t : Std.ExtTreeMap String String) :
    (l.map fun e => (e.1, Value.text e.2)).foldlM enter t = some (t.insertMany l) := by
  induction l generalizing t with
  | nil => simp
  | cons e l ih =>
    rw [Std.ExtTreeMap.insertMany_cons, ← ih]
    rfl

theorem texts_of_foldlM_enter {t t' : Std.ExtTreeMap String String}
    (h : entries.foldlM enter t = some t') : ∀ e ∈ entries, ∃ a, e.2 = .text a := by
  induction entries generalizing t with
  | nil => exact List.forall_mem_nil _
  | cons e entries ih =>
    rw [List.foldlM_cons] at h
    obtain ⟨next, hnext, h⟩ := Option.bind_eq_some_iff.1 h
    obtain ⟨a, ha, -⟩ := Option.bind_eq_some_iff.1 hnext
    exact List.forall_mem_cons.2 ⟨⟨a, (text?_eq_some_iff _ _).1 ha⟩, ih h⟩

theorem exists_map_text (h : ∀ e ∈ entries, ∃ a, e.2 = .text a) :
    ∃ l : List (String × String), entries = l.map fun e => (e.1, .text e.2) := by
  induction entries with
  | nil => exact ⟨[], rfl⟩
  | cons e entries ih =>
    obtain ⟨⟨a, ha⟩, h⟩ := List.forall_mem_cons.1 h
    obtain ⟨l, rfl⟩ := ih h
    exact ⟨(e.1, a) :: l, by rw [List.map_cons, ← ha]⟩

theorem exists_foldlM_enter (hentries : (entries.map (·.1)).Nodup)
    (h : ∀ e ∈ entries, ∃ a, e.2 = .text a) :
    ∃ t, entries.foldlM enter ∅ = some t ∧ ∀ c a, t[c]? = some a ↔ (c, .text a) ∈ entries := by
  obtain ⟨l, rfl⟩ := exists_map_text h
  rw [List.map_map] at hentries
  refine ⟨.ofList l, ?_, fun c a => ?_⟩
  · rw [foldlM_enter, Std.ExtTreeMap.ofList_eq_insertMany_empty]
  · rw [getElem?_ofList_iff hentries]
    simp

theorem foldlM_enter_eq_some_iff (hentries : (entries.map (·.1)).Nodup)
    {t : Std.ExtTreeMap String String} :
    entries.foldlM enter ∅ = some t ↔
      (∀ e ∈ entries, ∃ a, e.2 = .text a) ∧ ∀ c a, t[c]? = some a ↔ (c, .text a) ∈ entries := by
  constructor
  · intro h
    have htexts := texts_of_foldlM_enter h
    obtain ⟨t', ht', hlookup⟩ := exists_foldlM_enter hentries htexts
    obtain rfl := Option.some.inj (ht'.symm.trans h)
    exact ⟨htexts, hlookup⟩
  · rintro ⟨htexts, hlookup⟩
    obtain ⟨t', ht', hlookup'⟩ := exists_foldlM_enter hentries htexts
    have heq : t' = t := by
      ext1 c
      apply Option.ext
      intro a
      rw [hlookup', hlookup]
    rw [ht', heq]

theorem clusters?_eq (w : Value) : clusters? w = (members? w).bind (·.foldlM enter ∅) := rfl

theorem clusters_settled_iff (hm : Distinct Value.Keyed members) :
    field clusters? ∅ (members.lookup "clusters") = some s.clusters ↔
      (∀ w, ("clusters", w) ∈ members →
        ∃ entries, members? w = some entries ∧ ∀ e ∈ entries, ∃ a, e.2 = .text a) ∧
      ∀ c a, s.clusters[c]? = some a ↔ Configures members c a := by
  simp only [Configures, ← hm.lookup_eq_some_iff]
  cases hw : members.lookup "clusters" with
  | none =>
    have hnil : (([] : List (String × Value)).map (·.1)).Nodup := List.nodup_nil
    have hempty := foldlM_enter_eq_some_iff hnil (t := s.clusters)
    simpa [field] using hempty
  | some w =>
    cases hentries : members? w with
    | none => simp [field, clusters?_eq, hentries]
    | some entries =>
      have hdistinct := distinct_members? (hm.prop_of_lookup hw) hentries
      simpa [field, clusters?_eq, hentries] using foldlM_enter_eq_some_iff hdistinct.nodup

end Clusters

section Documents

variable {p : Part} {i : Item} {members : List (String × Value)} {s : Settings}

theorem Part.nodup_names : ∀ p ∈ parts, p.names.Nodup := by decide

theorem Item.settles_iff (hp : p ∈ parts) (hi : i ∈ p.items) (hm : Distinct Value.Keyed members) :
    i.Settles (p.stated? members i.name) s ↔
      (∀ v, p.States members i.name v → i.Means (i.get s) v) ∧
        ((∀ v, ¬ p.States members i.name v) → i.get s = i.default) := by
  have hname : i.name ∈ p.names := List.mem_map_of_mem hi
  simp only [Settles, Option.eq_none_iff_forall_ne_some, ne_eq,
    Part.stated?_eq_some_iff (Part.nodup_names p hp) hname hm]

theorem settled_iff (hm : Distinct Value.Keyed members) :
    ofDocument? members = some s ↔
      (∀ p ∈ parts, p.Settled members s) ∧
        field clusters? ∅ (members.lookup "clusters") = some s.clusters := by
  simp only [parts, List.forall_mem_cons, List.not_mem_nil, IsEmpty.forall_iff, implies_true,
    and_true, ← logging_settled_iff hm, ← registry_settled_iff hm, ← retry_settled_iff hm,
    and_assoc]
  cases s
  simp [ofDocument?, Option.bind_eq_some_iff]

theorem ofDocument?_eq_some_iff (hm : Distinct Value.Keyed members) :
    ofDocument? members = some s ↔ Typed members ∧ Describes members s := by
  rw [settled_iff hm, clusters_settled_iff hm]
  constructor
  · rintro ⟨hparts, hclusters, hlookup⟩
    have hitems (p : Part) (hp : p ∈ parts) (i : Item) (hi : i ∈ p.items) :=
      (Item.settles_iff hp hi hm).1 ((hparts p hp).2 i hi)
    constructor
    · exact ⟨fun p hp => (hparts p hp).1,
        fun p hp i hi v hv => ⟨i.get s, (hitems p hp i hi).1 v hv⟩, hclusters⟩
    · exact ⟨fun p hp i hi => (hitems p hp i hi).1, fun p hp i hi => (hitems p hp i hi).2, hlookup⟩
  · rintro ⟨htyped, hdescribes⟩
    refine ⟨fun p hp => ⟨htyped.sections p hp, fun i hi => ?_⟩, htyped.clusters,
      hdescribes.clusters⟩
    exact (Item.settles_iff hp hi hm).2
      ⟨hdescribes.stated p hp i hi, hdescribes.missing p hp i hi⟩

theorem exists_settled (hm : Distinct Value.Keyed members) (htyped : Typed members) (hp : p ∈ parts)
    (hi : i ∈ p.items) :
    ∃ a, (∀ v, p.stated? members i.name = some v → i.Means a v) ∧
      (p.stated? members i.name = none → a = i.default) := by
  cases ho : p.stated? members i.name with
  | none => exact ⟨i.default, nofun, fun _ => rfl⟩
  | some v =>
    have hname : i.name ∈ p.names := List.mem_map_of_mem hi
    have hv := (Part.stated?_eq_some_iff (Part.nodup_names p hp) hname hm).1 ho
    obtain ⟨a, ha⟩ := htyped.fields p hp i hi v hv
    exact ⟨a, fun _ hsame => Option.some.inj hsame ▸ ha, nofun⟩

theorem exists_clusters (hm : Distinct Value.Keyed members) (htyped : Typed members) :
    ∃ t, field clusters? ∅ (members.lookup "clusters") = some t := by
  cases hw : members.lookup "clusters" with
  | none => exact ⟨∅, rfl⟩
  | some w =>
    obtain ⟨entries, hentries, htexts⟩ := htyped.clusters w (hm.lookup_eq_some_iff.1 hw)
    have hdistinct := distinct_members? (hm.prop_of_lookup hw) hentries
    obtain ⟨t, ht, -⟩ := exists_foldlM_enter hdistinct.nodup htexts
    refine ⟨t, ?_⟩
    rw [field, clusters?_eq, hentries]
    exact ht

theorem exists_ofDocument? (hm : Distinct Value.Keyed members) (htyped : Typed members) :
    ∃ s, ofDocument? members = some s := by
  have hitems (p : Part) (hp : p ∈ parts) (i : Item) (hi : i ∈ p.items) :=
    exists_settled hm htyped hp hi
  simp only [parts, Part.logging, Part.registry, Part.retry, List.forall_mem_cons] at hitems
  obtain ⟨⟨⟨level, hlevel⟩, ⟨format, hformat⟩, -⟩,
    ⟨⟨admin, hadmin⟩, ⟨dial, hdial⟩, ⟨delay, hdelay⟩, ⟨capacity, hcapacity⟩, -⟩,
    ⟨⟨initial, hinitial⟩, ⟨max, hmax⟩, ⟨multiplier, hmultiplier⟩, -⟩, -⟩ := hitems
  obtain ⟨t, ht⟩ := exists_clusters hm htyped
  refine ⟨⟨⟨level, format⟩, ⟨admin, dial, delay, capacity⟩, ⟨initial, max, multiplier⟩, t⟩,
    (settled_iff hm).2 ⟨fun p hp => ⟨htyped.sections p hp, ?_⟩, ht⟩⟩
  revert p
  simp only [parts, Part.logging, Part.registry, Part.retry, List.forall_mem_cons, List.not_mem_nil,
    IsEmpty.forall_iff, implies_true, and_true]
  exact ⟨⟨hlevel, hformat⟩, ⟨hadmin, hdial, hdelay, hcapacity⟩, hinitial, hmax, hmultiplier⟩

end Documents

end Settings

end ModelRegistry
