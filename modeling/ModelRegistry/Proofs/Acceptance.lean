import Mathlib.Algebra.Order.Field.Rat
import Mathlib.Algebra.Order.Field.Power
import Mathlib.Tactic.Linarith
import Mathlib.Tactic.Positivity
import ModelRegistry.AddressTable
import ModelRegistry.Proofs.ByteOrder
import ModelRegistry.Proofs.Description

namespace ModelRegistry

namespace Binary64

def IsLessThanOne : Binary64 → Prop
  | nan => False
  | infinite negative => negative
  | finite negative significand exponent =>
    (if negative then -1 else 1) * ((significand : ℚ) * 2 ^ exponent) < 1

theorem isBelowOne_iff {x : Binary64} : x.isBelowOne ↔ x.IsLessThanOne := by
  cases x with
  | nan => simp [isBelowOne, IsLessThanOne]
  | infinite negative => cases negative <;> simp [isBelowOne, IsLessThanOne]
  | finite negative m e =>
    cases negative with
    | true =>
      have hpos : (0 : ℚ) ≤ m * 2 ^ e := by positivity
      simp only [isBelowOne, IsLessThanOne, ↓reduceIte, true_iff]
      linarith
    | false =>
      have hpow : (2 : ℚ) ^ e = 2 ^ e.toNat / 2 ^ (-e).toNat := by
        rw [← zpow_natCast, ← zpow_natCast, ← zpow_sub₀ two_ne_zero]
        congr 1
        omega
      have hpos : (0 : ℚ) < 2 ^ (-e).toNat := by positivity
      simp only [isBelowOne, scaled, IsLessThanOne, decide_eq_true_eq, Nat.pow_eq, Int.neg_neg,
        one_mul, Bool.false_eq_true, ↓reduceIte]
      rw [hpow, ← mul_div_assoc, div_lt_one hpos]
      norm_cast

instance : DecidablePred IsLessThanOne := fun _ => decidable_of_iff _ isBelowOne_iff

end Binary64

namespace Settings

open Toml (Distinct Value)

section Checks

variable {α β ε : Type} {f : α → Except ε Unit} {l : List α} {e : ε}

theorem bind_eq_ok_iff {x : Except ε Unit} {g : Unit → Except ε β} {b : β} :
    (x >>= g) = .ok b ↔ x = .ok () ∧ g () = .ok b := by
  cases x <;> simp [bind, Except.bind]

theorem bind_eq_error_iff {x : Except ε Unit} {g : Unit → Except ε β} :
    (x >>= g) = .error e ↔ x = .error e ∨ x = .ok () ∧ g () = .error e := by
  cases x <;> simp [bind, Except.bind]

theorem forM_cons (a : α) : (a :: l).forM f = (f a >>= fun _ => l.forM f) := rfl

theorem forM_eq_ok_iff : l.forM f = .ok () ↔ ∀ a ∈ l, f a = .ok () := by
  induction l with
  | nil => exact iff_of_true rfl (List.forall_mem_nil _)
  | cons a l ih => rw [forM_cons, bind_eq_ok_iff, List.forall_mem_cons, ih]

theorem forM_eq_error_iff : l.forM f = .error e ↔
    ∃ before a after, l = before ++ a :: after ∧ (∀ b ∈ before, f b = .ok ()) ∧ f a = .error e := by
  constructor
  · intro h
    induction l with
    | nil => cases h
    | cons a l ih =>
      rw [forM_cons, bind_eq_error_iff] at h
      obtain ha | ⟨ha, h⟩ := h
      · exact ⟨[], a, l, rfl, List.forall_mem_nil _, ha⟩
      · obtain ⟨before, b, after, rfl, hbefore, hb⟩ := ih h
        exact ⟨a :: before, b, after, rfl, List.forall_mem_cons.2 ⟨ha, hbefore⟩, hb⟩
  · rintro ⟨before, a, after, rfl, hbefore, ha⟩
    induction before with
    | nil => exact bind_eq_error_iff.2 (.inl ha)
    | cons b before ih =>
      obtain ⟨hb, hbefore⟩ := List.forall_mem_cons.1 hbefore
      exact bind_eq_error_iff.2 (.inr ⟨hb, ih hbefore⟩)

end Checks

structure Condition where
  field : String
  reason : String
  Holds : Settings → Prop
  [decidable : DecidablePred Holds]

instance (c : Condition) : DecidablePred c.Holds := c.decidable

def conditions : List Condition :=
  [⟨"admin_timeout_ms", "must be greater than 0", fun s => 0 < s.registry.adminTimeout⟩,
    ⟨"dial_timeout_ms", "must be greater than 0", fun s => 0 < s.registry.dialTimeout⟩,
    ⟨"watch_retry_delay_ms", "must be greater than 0", fun s => 0 < s.registry.watchRetryDelay⟩,
    ⟨"watch_channel_capacity", "must be greater than 0",
      fun s => 0 < s.registry.watchChannelCapacity⟩,
    ⟨"initial_delay_ms", "must be greater than 0", fun s => 0 < s.retry.initialDelay⟩,
    ⟨"max_delay_ms", "must be >= initial_delay_ms",
      fun s => s.retry.initialDelay ≤ s.retry.maxDelay⟩,
    ⟨"backoff_multiplier", "must be >= 1.0", fun s => ¬ s.retry.multiplier.IsLessThanOne⟩]

def Spoils (s : Settings) (cluster address : String) : Prop :=
  s.clusters[cluster]? = some address ∧ (cluster = "" ∨ address = "")

structure Acceptable (s : Settings) : Prop where
  conditions : ∀ c ∈ conditions, c.Holds s
  clusters : ∀ c a, ¬ s.Spoils c a

def blame (cluster : String) : ConfigError :=
  .invalid "clusters" <|
    if cluster = "" then "cluster identifier must not be empty"
    else s!"address for {cluster} must not be empty"

/-- The error for the first condition that does not hold, or for the first cluster that spoils the
settings; identifiers are ordered by their bytes. -/
inductive Refuses (s : Settings) : ConfigError → Prop
  | condition {before after : List Condition} {c : Condition} :
    conditions = before ++ c :: after → (∀ b ∈ before, b.Holds s) → ¬ c.Holds s →
      Refuses s (.invalid c.field c.reason)
  | cluster {c a : String} :
    (∀ b ∈ conditions, b.Holds s) → s.Spoils c a →
      (∀ d b, s.Spoils d b → d = c ∨ bytes c < bytes d) → Refuses s (blame c)

section Conditions

variable {s : Settings} {e : ConfigError}

def Condition.check (c : Condition) (s : Settings) : Except ConfigError Unit :=
  require (c.Holds s) c.field c.reason

theorem Condition.check_eq_ok_iff (c : Condition) : c.check s = .ok () ↔ c.Holds s := by
  simp [check, require]

theorem Condition.check_eq_error_iff (c : Condition) :
    c.check s = .error e ↔ ¬ c.Holds s ∧ .invalid c.field c.reason = e := by
  by_cases h : c.Holds s <;> simp [check, require, h]

theorem check_eq (s : Settings) :
    s.check = conditions.forM (·.check s) >>= fun _ => s.clusters.toList.forM checkCluster := by
  have hpos (n : Nat) : (n != 0) = decide (0 < n) := by
    rw [Bool.eq_iff_iff, bne_iff_ne, decide_eq_true_iff, Nat.pos_iff_ne_zero]
  have hone (x : Binary64) : (!x.isBelowOne) = decide (¬ x.IsLessThanOne) := by
    rw [Bool.eq_iff_iff, Bool.not_eq_true', ← Bool.not_eq_true, decide_eq_true_iff,
      Binary64.isBelowOne_iff]
  simp only [check, hpos, hone, conditions, forM_cons, bind_assoc]
  rfl

theorem checkCluster_eq (c a : String) :
    checkCluster (c, a) = if c = "" ∨ a = "" then .error (blame c) else .ok () := by
  by_cases hc : c = ""
  · simp [checkCluster, require, blame, hc, bind, Except.bind]
  · by_cases ha : a = "" <;>
      simp [checkCluster, require, blame, hc, ha, bind, Except.bind]

theorem checkCluster_eq_ok_iff {c a : String} :
    checkCluster (c, a) = .ok () ↔ ¬ (c = "" ∨ a = "") := by
  rw [checkCluster_eq]
  split_ifs with h <;> simp [h]

theorem checkCluster_eq_error_iff {c a : String} :
    checkCluster (c, a) = .error e ↔ (c = "" ∨ a = "") ∧ blame c = e := by
  rw [checkCluster_eq]
  split_ifs with h <;> simp [h]

theorem forM_conditions_eq_ok_iff :
    conditions.forM (·.check s) = .ok () ↔ ∀ c ∈ conditions, c.Holds s := by
  simp only [forM_eq_ok_iff, Condition.check_eq_ok_iff]

theorem mem_clusters_iff {c a : String} : (c, a) ∈ s.clusters.toList ↔ s.clusters[c]? = some a :=
  Std.ExtTreeMap.mem_toList_iff_getElem?_eq_some

theorem forM_clusters_eq_ok_iff :
    s.clusters.toList.forM checkCluster = .ok () ↔ ∀ c a, ¬ s.Spoils c a := by
  simp only [forM_eq_ok_iff, Prod.forall, checkCluster_eq_ok_iff, mem_clusters_iff, Spoils, not_and]

theorem check_eq_ok_iff : s.check = .ok () ↔ Acceptable s := by
  rw [check_eq, bind_eq_ok_iff, forM_conditions_eq_ok_iff, forM_clusters_eq_ok_iff]
  exact ⟨fun h => ⟨h.1, h.2⟩, fun h => ⟨h.conditions, h.clusters⟩⟩

theorem acceptable_default : Acceptable default := by
  constructor
  · decide +kernel
  · intro c a h
    simp [Spoils, default] at h

theorem pairwise_clusters (s : Settings) :
    s.clusters.toList.Pairwise fun e e' => bytes e.1 < bytes e'.1 := by
  refine (Std.ExtTreeMap.ordered_keys_toList (t := s.clusters)).imp fun h => ?_
  exact bytes_lt_of_lt (Std.LawfulLTCmp.eq_lt_iff_lt.1 h)

theorem forM_clusters_eq_error_iff :
    s.clusters.toList.forM checkCluster = .error e ↔
      ∃ c a, s.Spoils c a ∧ (∀ d b, s.Spoils d b → d = c ∨ bytes c < bytes d) ∧ blame c = e := by
  have hsorted := s.pairwise_clusters
  rw [forM_eq_error_iff]
  constructor
  · rintro ⟨before, ⟨c, a⟩, after, hlist, hbefore, hc⟩
    obtain ⟨hempty, he⟩ := checkCluster_eq_error_iff.1 hc
    have hmem : s.clusters[c]? = some a := mem_clusters_iff.1 (by simp [hlist])
    refine ⟨c, a, ⟨hmem, hempty⟩, fun d b hd => ?_, he⟩
    have hmem' := mem_clusters_iff.2 hd.1
    rw [hlist, List.mem_append, List.mem_cons] at hmem'
    obtain hd' | hd' | hd' := hmem'
    · exact absurd hd.2 (checkCluster_eq_ok_iff.1 (hbefore _ hd'))
    · exact .inl (congrArg Prod.fst hd')
    · rw [hlist, List.pairwise_append, List.pairwise_cons] at hsorted
      exact .inr (hsorted.2.1.1 _ hd')
  · rintro ⟨c, a, ⟨hmem, hempty⟩, hfirst, he⟩
    obtain ⟨before, after, hlist⟩ := List.append_of_mem (mem_clusters_iff.2 hmem)
    refine ⟨before, (c, a), after, hlist, ?_, checkCluster_eq_error_iff.2 ⟨hempty, he⟩⟩
    rintro ⟨d, b⟩ hd
    rw [checkCluster_eq_ok_iff]
    intro hspoils
    have hmem' : s.clusters[d]? = some b := mem_clusters_iff.1 (by simp [hlist, hd])
    rw [hlist, List.pairwise_append] at hsorted
    have hlt : bytes d < bytes c := hsorted.2.2 _ hd _ List.mem_cons_self
    obtain rfl | hgt := hfirst d b ⟨hmem', hspoils⟩
    · exact List.lt_irrefl _ hlt
    · exact List.lt_asymm hlt hgt

theorem check_eq_error_iff : s.check = .error e ↔ Refuses s e := by
  rw [check_eq, bind_eq_error_iff, forM_conditions_eq_ok_iff, forM_clusters_eq_error_iff,
    forM_eq_error_iff]
  simp only [Condition.check_eq_ok_iff, Condition.check_eq_error_iff]
  constructor
  · rintro (⟨before, c, after, hlist, hbefore, hc, rfl⟩ | ⟨hall, c, a, hspoils, hfirst, rfl⟩)
    · exact .condition hlist hbefore hc
    · exact .cluster hall hspoils hfirst
  · rintro (⟨hlist, hbefore, hc⟩ | ⟨hall, hspoils, hfirst⟩)
    · exact .inl ⟨_, _, _, hlist, hbefore, hc, rfl⟩
    · exact .inr ⟨hall, _, _, hspoils, hfirst, rfl⟩

end Conditions

section Resolving

variable {s : Settings} {cluster : ClusterId} {a : String}

theorem addresses_foldl_set (entries : List (ClusterId × String)) (t : AddressTable) :
    (entries.foldl (fun t e => t.set e.1 e.2) t).addresses = t.addresses.insertMany entries := by
  induction entries generalizing t with
  | nil => simp
  | cons e entries ih =>
    rw [List.foldl_cons, ih, Std.ExtTreeMap.insertMany_cons]
    rfl

theorem addresses_ofSettings (s : Settings) : (AddressTable.ofSettings s).addresses =
    Std.ExtTreeMap.ofList (s.clusters.toList.map fun e => (ClusterId.mk e.1, e.2)) := by
  rw [Std.ExtTreeMap.ofList_eq_insertMany_empty]
  exact addresses_foldl_set _ _

theorem getElem?_addresses_ofSettings :
    (AddressTable.ofSettings s).addresses[cluster]? = s.clusters[cluster.text]? := by
  have hkeys : ((s.clusters.toList.map fun e => (ClusterId.mk e.1, e.2)).map (·.1)).Nodup := by
    rw [List.map_map, List.Nodup, List.pairwise_map]
    refine s.pairwise_clusters.imp fun h heq => ?_
    rw [ClusterId.mk.inj heq] at h
    exact List.lt_irrefl _ h
  apply Option.ext
  intro a
  rw [addresses_ofSettings, getElem?_ofList_iff hkeys, ← mem_clusters_iff]
  cases cluster
  simp

theorem resolve_ofSettings_eq_ok_iff :
    (AddressTable.ofSettings s).resolve cluster = .ok a ↔ s.clusters[cluster.text]? = some a := by
  rw [AddressTable.resolve, getElem?_addresses_ofSettings]
  cases s.clusters[cluster.text]? <;> simp

theorem resolve_ofSettings_of_none (h : s.clusters[cluster.text]? = none) :
    (AddressTable.ofSettings s).resolve cluster =
      .error (.notFound s!"no registry address for cluster {cluster}") := by
  rw [AddressTable.resolve, getElem?_addresses_ofSettings, h]

end Resolving

section Documents

variable {text : String} {members : List (String × Value)} {s s' : Settings} {e : ConfigError}

theorem parse_eq (h : (Toml.document text).bind ofDocument? = some s) :
    parse text = s.check >>= fun _ => .ok s := by
  rw [parse, h]
  rfl

theorem parse_eq_ok_iff (h : (Toml.document text).bind ofDocument? = some s) :
    parse text = .ok s' ↔ s' = s ∧ Acceptable s := by
  rw [parse_eq h, bind_eq_ok_iff, check_eq_ok_iff, and_comm, Except.ok.injEq, eq_comm]

theorem parse_eq_error_iff (h : (Toml.document text).bind ofDocument? = some s) :
    parse text = .error e ↔ Refuses s e := by
  rw [parse_eq h, bind_eq_error_iff, check_eq_error_iff]
  simp

theorem isSome_ofDocument?_iff : ((Toml.document text).bind ofDocument?).isSome ↔
    ∃ members, Toml.document text = some members ∧ Typed members := by
  rw [Option.isSome_bind, Option.any_eq_true]
  refine exists_congr fun members => and_congr_right fun hdocument => ?_
  have hm := Toml.distinct_document hdocument
  rw [Option.isSome_iff_exists]
  constructor
  · rintro ⟨s, hs⟩
    exact ((ofDocument?_eq_some_iff hm).1 hs).1
  · exact exists_ofDocument? hm

theorem parse_eq_malformed_iff : parse text = .error .malformed ↔
    ∀ members, Toml.document text = some members → ¬ Typed members := by
  have hread : parse text = .error .malformed ↔
      ¬ ((Toml.document text).bind ofDocument?).isSome := by
    cases h : (Toml.document text).bind ofDocument? with
    | none => simp [parse, h]
    | some s =>
      rw [parse_eq_error_iff h]
      exact iff_of_false nofun (by simp)
  rw [hread, isSome_ofDocument?_iff, not_exists]
  exact forall_congr' fun members => not_and

structure Judged (text : String) (members : List (String × Value)) (s : Settings) : Prop where
  describes : Describes members s
  unique : ∀ s', Describes members s' → s' = s
  accepted : ∀ s', parse text = .ok s' ↔ s' = s ∧ Acceptable s
  refused : ∀ e, parse text = .error e ↔ Refuses s e
  nonempty : Acceptable s → ∀ c a, Configures members c a → c ≠ "" ∧ a ≠ ""
  resolved : ∀ cluster a, (AddressTable.ofSettings s).resolve cluster = .ok a ↔
    Configures members cluster.text a
  unknown : ∀ cluster : ClusterId, (∀ a, ¬ Configures members cluster.text a) →
    (AddressTable.ofSettings s).resolve cluster =
      .error (.notFound s!"no registry address for cluster {cluster}")

theorem judged_of_typed (hdocument : Toml.document text = some members) (htyped : Typed members) :
    ∃ s, Judged text members s := by
  have hm := Toml.distinct_document hdocument
  obtain ⟨s, hs⟩ := exists_ofDocument? hm htyped
  have hdescribes := ((ofDocument?_eq_some_iff hm).1 hs).2
  have hread : (Toml.document text).bind ofDocument? = some s := by
    rw [hdocument]
    exact hs
  refine ⟨s, hdescribes, fun s' hs' => ?_, fun s' => parse_eq_ok_iff hread,
    fun e => parse_eq_error_iff hread, fun hacceptable c a hc => ?_, fun cluster a => ?_,
    fun cluster hnone => ?_⟩
  · have hread' := (ofDocument?_eq_some_iff hm).2 ⟨htyped, hs'⟩
    exact Option.some.inj (hread'.symm.trans hs)
  · have hmem := (hdescribes.clusters c a).2 hc
    refine not_or.1 fun hempty => ?_
    exact hacceptable.clusters c a ⟨hmem, hempty⟩
  · rw [resolve_ofSettings_eq_ok_iff]
    exact hdescribes.clusters cluster.text a
  · apply resolve_ofSettings_of_none
    rw [Option.eq_none_iff_forall_ne_some]
    intro a ha
    exact hnone a ((hdescribes.clusters cluster.text a).1 ha)

def refusal (text : String) : Option ConfigError :=
  match parse text with
  | .ok _ => none
  | .error e => some e

theorem refusal_eq_some_iff : refusal text = some e ↔ parse text = .error e := by
  unfold refusal
  cases parse text <;> simp

def impatient : String :=
  "[retry]\ninitial_delay_ms = 6000\nbackoff_multiplier = 0.5\n[clusters]\n\"/a\" = \"\""

theorem judged_of_typed_impatient :
    ∃ members s, Toml.document impatient = some members ∧ Typed members ∧ Describes members s ∧
      Refuses s (.invalid "max_delay_ms" "must be >= initial_delay_ms") := by
  have hread : ((Toml.document impatient).bind ofDocument?).isSome := by decide +kernel
  have hrefusal : refusal impatient =
      some (.invalid "max_delay_ms" "must be >= initial_delay_ms") := by decide +kernel
  obtain ⟨members, hdocument, htyped⟩ := isSome_ofDocument?_iff.1 hread
  obtain ⟨s, hs⟩ := judged_of_typed hdocument htyped
  exact ⟨members, s, hdocument, htyped, hs.describes,
    (hs.refused _).1 (refusal_eq_some_iff.1 hrefusal)⟩

end Documents

end Settings

end ModelRegistry
