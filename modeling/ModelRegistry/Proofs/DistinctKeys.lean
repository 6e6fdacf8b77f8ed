import Mathlib.Data.List.Nodup
import ModelRegistry.Toml.Document

namespace ModelRegistry

namespace Text.Reader

variable {α β : Type} {r r' : Reader α} {f : α → Reader β} {P : α → Prop} {Q : β → Prop}

def Yields (r : Reader α) (P : α → Prop) : Prop := ∀ cs a rest, r cs = some (a, rest) → P a

theorem yields_pure {a : α} (h : P a) : Yields (pure a) P := by
  rintro cs b rest hb
  obtain rfl : a = b := congrArg Prod.fst (Option.some.inj hb)
  exact h

theorem yields_failure : Yields (failure : Reader α) P := by
  intro cs a rest h
  cases h

theorem Yields.bind (hr : Yields r P) (hf : ∀ a, P a → Yields (f a) Q) : Yields (r >>= f) Q := by
  intro cs b rest h
  obtain ⟨⟨a, cs'⟩, ha, hb⟩ := Option.bind_eq_some_iff.1 h
  exact hf a (hr cs a cs' ha) cs' b rest hb

theorem yields_bind (hf : ∀ a, Yields (f a) Q) : Yields (r >>= f) Q :=
  Yields.bind (P := fun _ => True) (fun _ _ _ _ => trivial) fun a _ => hf a

theorem yields_map {g : α → β} (h : ∀ a, Q (g a)) : Yields (g <$> r) Q :=
  yields_bind fun a => yields_pure (h a)

theorem Yields.orElse (hr : Yields r P) (hr' : Yields r' P) : Yields (r <|> r') P := by
  intro cs a rest h
  change (r cs <|> r' cs) = some (a, rest) at h
  cases hcs : r cs with
  | some b =>
    rw [hcs] at h
    exact hr cs a rest (hcs.trans h)
  | none =>
    rw [hcs] at h
    exact hr' cs a rest h

theorem Yields.option (hr : Yields r P) : Yields (option r) fun o => ∀ a ∈ o, P a := by
  intro cs o rest h
  unfold Reader.option at h
  split at h
  next a cs' ha =>
    obtain rfl : some a = o := congrArg Prod.fst (Option.some.inj h)
    intro b hb
    obtain rfl : a = b := Option.some.inj hb
    exact hr cs a cs' ha
  next =>
    obtain rfl : none = o := congrArg Prod.fst (Option.some.inj h)
    rintro b ⟨⟩

theorem Yields.upTo (hr : Yields r P) {n : Nat} {before : List α} (hbefore : ∀ a ∈ before, P a) :
    Yields (upTo r n before) fun as => ∀ a ∈ as, P a := by
  induction n generalizing before with
  | zero => exact yields_pure fun a ha => hbefore a (List.mem_reverse.1 ha)
  | succ n ih =>
    intro cs as rest h
    unfold Reader.upTo at h
    split at h
    next a cs' ha => exact ih (List.forall_mem_cons.2 ⟨hr cs a cs' ha, hbefore⟩) cs' as rest h
    next =>
      obtain rfl : before.reverse = as := congrArg Prod.fst (Option.some.inj h)
      exact fun a ha => hbefore a (List.mem_reverse.1 ha)

theorem Yields.many (hr : Yields r P) : Yields (many r) fun as => ∀ a ∈ as, P a := by
  intro cs
  exact Yields.upTo hr (List.forall_mem_nil P) cs

theorem Yields.separated (hr : Yields r P) (separator : Reader Unit) :
    Yields (separated r separator) fun as => ∀ a ∈ as, P a := by
  have hrest : Yields (Reader.many (do separator; r)) fun as => ∀ a ∈ as, P a :=
    Yields.many (yields_bind fun _ => hr)
  exact hr.bind fun first hfirst => hrest.bind fun rest hrest =>
    yields_pure (List.forall_mem_cons.2 ⟨hfirst, hrest⟩)

theorem Yields.whole {s : String} {a : α} (hr : Yields r P) (h : r.whole s = some a) : P a := by
  obtain ⟨⟨b, rest⟩, hb, h⟩ := Option.bind_eq_some_iff.1 h
  obtain ⟨-, h⟩ := Option.ite_none_right_eq_some.1 h
  obtain rfl : b = a := Option.some.inj h
  exact hr _ _ _ hb

end Text.Reader

namespace Toml

open Text Reader

structure Distinct {α : Type} (P : α → Prop) (members : List (String × α)) : Prop where
  nodup : (members.map (·.1)).Nodup
  all : ∀ m ∈ members, P m.2

theorem foldlM_keeps {α σ : Type} {step : σ → α → Option σ} {P : α → Prop} {I : σ → Prop}
    (hstep : ∀ a s s', P a → I s → step s a = some s' → I s') {l : List α} (hl : ∀ a ∈ l, P a)
    {s s' : σ} (hs : I s) (h : l.foldlM step s = some s') : I s' := by
  induction l generalizing s with
  | nil =>
    obtain rfl := Option.some.inj h
    exact hs
  | cons a l ih =>
    obtain ⟨ha, hl⟩ := List.forall_mem_cons.1 hl
    rw [List.foldlM_cons] at h
    obtain ⟨next, hnext, h⟩ := Option.bind_eq_some_iff.1 h
    exact ih hl (hstep a s next ha hs hnext) h

section Members

variable {α : Type} {P : α → Prop} {members : List (String × α)} {key : String} {a : α}

theorem distinct_nil : Distinct P ([] : List (String × α)) :=
  ⟨List.nodup_nil, List.forall_mem_nil _⟩

theorem Distinct.concat (h : Distinct P members) (hkey : members.lookup key = none) (ha : P a) :
    Distinct P (members ++ [(key, a)]) := by
  have hnew : key ∉ members.map (·.1) := by
    intro hmem
    obtain ⟨m, hm, rfl⟩ := List.mem_map.1 hmem
    simpa using List.lookup_eq_none_iff.1 hkey m hm
  constructor
  · rw [List.map_append, List.map_singleton]
    exact List.nodup_append.2 ⟨h.nodup, List.nodup_singleton key, by grind⟩
  · intro m hm
    rcases List.mem_append.1 hm with hm | hm
    · exact h.all m hm
    · obtain rfl := List.mem_singleton.1 hm
      exact ha

theorem Distinct.replace (h : Distinct P members) (ha : P a) :
    Distinct P (members.map fun m => if m.1 == key then (key, a) else m) := by
  constructor
  · have hkeys : (members.map fun m => if m.1 == key then (key, a) else m).map (·.1) =
        members.map (·.1) := by
      rw [List.map_map]
      apply List.map_congr_left
      intro m _
      by_cases hm : m.1 = key <;> simp [hm]
    rw [hkeys]
    exact h.nodup
  · intro m hm
    obtain ⟨n, hn, rfl⟩ := List.mem_map.1 hm
    split
    · exact ha
    · exact h.all n hn

theorem Distinct.lookup_eq_some_iff (h : Distinct P members) :
    members.lookup key = some a ↔ (key, a) ∈ members := by
  rw [List.lookup_eq_some_iff]
  constructor
  · rintro ⟨before, after, rfl, -⟩
    exact List.mem_append_right _ List.mem_cons_self
  · intro hmem
    obtain ⟨before, after, rfl⟩ := List.append_of_mem hmem
    refine ⟨before, after, rfl, fun m hm => ?_⟩
    have hnodup := h.nodup
    rw [List.map_append, List.map_cons] at hnodup
    have hne : m.1 ≠ key := (List.nodup_append.1 hnodup).2.2 _ (List.mem_map_of_mem hm) _
      List.mem_cons_self
    simpa using hne.symm

theorem Distinct.prop_of_lookup (h : Distinct P members) (ha : members.lookup key = some a) :
    P a :=
  h.all (key, a) (h.lookup_eq_some_iff.1 ha)

end Members

inductive Value.Keyed : Value → Prop
  | text (s : String) : Keyed (.text s)
  | integer (i : Int) : Keyed (.integer i)
  | float (x : Binary64) : Keyed (.float x)
  | boolean (b : Bool) : Keyed (.boolean b)
  | moment (s : String) : Keyed (.moment s)
  | array {elements : List Value} : (∀ v ∈ elements, Keyed v) → Keyed (.array elements)
  | table {members : List (String × Value)} : (members.map (·.1)).Nodup →
      (∀ m ∈ members, Keyed m.2) → Keyed (.table members)

inductive Node.Keyed : Node → Prop
  | leaf {v : Value} : v.Keyed → Keyed (.leaf v)
  | table {origin : Origin} {members : Members} : (members.map (·.1)).Nodup →
      (∀ m ∈ members, Keyed m.2) → Keyed (.table origin members)
  | tables {elements : List Members} : (∀ t ∈ elements, (t.map (·.1)).Nodup) →
      (∀ t ∈ elements, ∀ m ∈ t, Keyed m.2) → Keyed (.tables elements)

theorem Value.Keyed.distinct {members : List (String × Value)} (h : (Value.table members).Keyed) :
    Distinct Keyed members := by
  cases h with
  | table hnodup hall => exact ⟨hnodup, hall⟩

namespace Node

variable {origin : Origin} {members : Members} {elements : List Members}

theorem Keyed.distinct (h : (Node.table origin members).Keyed) : Distinct Keyed members := by
  cases h with
  | table hnodup hall => exact ⟨hnodup, hall⟩

theorem keyed_table (h : Distinct Keyed members) : (Node.table origin members).Keyed :=
  .table h.nodup h.all

theorem keyed_tables_iff : (Node.tables elements).Keyed ↔ ∀ t ∈ elements, Distinct Keyed t := by
  constructor
  · intro h t ht
    cases h with
    | tables hnodup hall => exact ⟨hnodup t ht, hall t ht⟩
  · intro h
    exact .tables (fun t ht => (h t ht).nodup) fun t ht => (h t ht).all

theorem valuesOf_eq (members : Members) :
    valuesOf members = members.map fun m => (m.1, m.2.value) := by
  induction members with
  | nil => rfl
  | cons m members ih => rw [valuesOf, ih, List.map_cons]

theorem tablesOf_eq (elements : List Members) :
    tablesOf elements = elements.map fun t => .table (valuesOf t) := by
  induction elements with
  | nil => rfl
  | cons t elements ih => rw [tablesOf, ih, List.map_cons]

theorem distinct_valuesOf (hnodup : (members.map (·.1)).Nodup)
    (hall : ∀ m ∈ members, m.2.value.Keyed) : Distinct Value.Keyed (valuesOf members) := by
  rw [valuesOf_eq]
  constructor
  · rw [List.map_map]
    exact hnodup
  · intro m hm
    obtain ⟨n, hn, rfl⟩ := List.mem_map.1 hm
    exact hall n hn

theorem Keyed.value {n : Node} (h : n.Keyed) : n.value.Keyed := by
  induction h with
  | leaf hv => exact hv
  | table hnodup _ ih =>
    have h := distinct_valuesOf hnodup ih
    exact .table h.nodup h.all
  | tables hnodup _ ih =>
    refine .array fun v hv => ?_
    rw [tablesOf_eq, List.mem_reverse] at hv
    obtain ⟨t, ht, rfl⟩ := List.mem_map.1 hv
    have h := distinct_valuesOf (hnodup t ht) (ih t ht)
    exact .table h.nodup h.all

end Node

namespace Members

variable {m m' : Members} {key : String} {n : Node} {path table : List String} {v : Value}

theorem distinct_set (h : Distinct Node.Keyed m) (hn : n.Keyed) :
    Distinct Node.Keyed (m.set key n) := by
  unfold Members.set
  split
  · exact h.replace hn
  next hnew => exact h.concat (Option.not_isSome_iff_eq_none.1 hnew) hn

theorem distinct_visit {inKey : Bool} {act : Bool → Members → Option Members}
    (hact : ∀ isDotted t t', act isDotted t = some t' → Distinct Node.Keyed t →
      Distinct Node.Keyed t')
    {isDotted : Bool} (hm : Distinct Node.Keyed m)
    (h : visit inKey act path isDotted m = some m') : Distinct Node.Keyed m' := by
  induction path generalizing isDotted m m' with
  | nil => exact hact isDotted m m' h hm
  | cons key path ih =>
    unfold visit at h
    split at h
    next =>
      obtain ⟨inner, hinner, h⟩ := Option.bind_eq_some_iff.1 h
      obtain rfl := Option.some.inj h
      exact distinct_set hm (Node.keyed_table (ih distinct_nil hinner))
    next => cases h
    next origin inner hget =>
      split at h
      next => cases h
      next =>
        obtain ⟨inner', hinner, h⟩ := Option.bind_eq_some_iff.1 h
        obtain rfl := Option.some.inj h
        have hold : Distinct Node.Keyed inner := (hm.prop_of_lookup hget).distinct
        exact distinct_set hm (Node.keyed_table (ih hold hinner))
    next => cases h
    next latest earlier hget =>
      obtain ⟨latest', hlatest, h⟩ := Option.bind_eq_some_iff.1 h
      obtain rfl := Option.some.inj h
      have hold := Node.keyed_tables_iff.1 (hm.prop_of_lookup hget)
      obtain ⟨hfirst, hrest⟩ := List.forall_mem_cons.1 hold
      have hnew := List.forall_mem_cons.2 ⟨ih hfirst hlatest, hrest⟩
      exact distinct_set hm (Node.keyed_tables_iff.2 hnew)

theorem distinct_assign (hv : v.Keyed) (hm : Distinct Node.Keyed m)
    (h : assign path key v m = some m') : Distinct Node.Keyed m' := by
  refine distinct_visit (fun isDotted t t' hact ht => ?_) hm h
  split at hact
  next => cases hact
  next hnew =>
    obtain rfl := Option.some.inj hact
    rw [Bool.or_eq_true, not_or, Option.not_isSome_iff_eq_none] at hnew
    exact ht.concat hnew.2 (.leaf hv)

theorem distinct_openTable (hm : Distinct Node.Keyed m) (h : openTable path key m = some m') :
    Distinct Node.Keyed m' := by
  refine distinct_visit (fun isDotted t t' hact ht => ?_) hm h
  split at hact
  next hnone =>
    obtain rfl := Option.some.inj hact
    exact ht.concat hnone (Node.keyed_table distinct_nil)
  next inner hget =>
    obtain rfl := Option.some.inj hact
    exact distinct_set ht (Node.keyed_table (ht.prop_of_lookup hget).distinct)
  next => cases hact

theorem distinct_openElement (hm : Distinct Node.Keyed m) (h : openElement path key m = some m') :
    Distinct Node.Keyed m' := by
  refine distinct_visit (fun isDotted t t' hact ht => ?_) hm h
  split at hact
  next hnone =>
    obtain rfl := Option.some.inj hact
    exact ht.concat hnone (Node.keyed_tables_iff.2 (by simp [distinct_nil]))
  next elements hget =>
    obtain rfl := Option.some.inj hact
    have hold := Node.keyed_tables_iff.1 (ht.prop_of_lookup hget)
    exact distinct_set ht
      (Node.keyed_tables_iff.2 (List.forall_mem_cons.2 ⟨distinct_nil, hold⟩))
  next => cases hact

theorem distinct_assignIn (hv : v.Keyed) (hm : Distinct Node.Keyed m)
    (h : assignIn table path key v m = some m') : Distinct Node.Keyed m' :=
  distinct_visit (fun _ _ _ hact ht => distinct_assign hv ht hact) hm h

end Members

section Values

open Value (Keyed)

theorem yields_decimalFloat : Yields Scalar.decimalFloat Keyed := by
  refine yields_bind fun _ => yields_bind fun _ => yields_bind fun _ => ?_
  dsimp only
  split
  · exact yields_failure
  · exact yields_pure (.float _)

theorem yields_specialFloat : Yields Scalar.specialFloat Keyed :=
  yields_bind fun _ => (yields_bind fun _ => yields_pure (.float _)).orElse
    (yields_bind fun _ => yields_pure (.float _))

theorem yields_inRange (i : Int) : Yields (Scalar.inRange i) Keyed := by
  unfold Scalar.inRange
  split
  · exact yields_pure (.integer i)
  · exact yields_failure

theorem yields_radix (mark : String) (base : Nat) (isDigit : Char → Bool) :
    Yields (Scalar.radix mark base isDigit) Keyed :=
  yields_bind fun _ => yields_bind fun _ => yields_inRange _

theorem yields_integer : Yields Scalar.integer Keyed :=
  (yields_radix _ _ _).orElse <| (yields_radix _ _ _).orElse <| (yields_radix _ _ _).orElse <|
    yields_bind fun _ => yields_bind fun _ => yields_inRange _

theorem yields_boolean : Yields Scalar.boolean Keyed :=
  (yields_bind fun _ => yields_pure (.boolean _)).orElse
    (yields_bind fun _ => yields_pure (.boolean _))

theorem yields_scalar : Yields Scalar.read Keyed :=
  (yields_map .text).orElse <| yields_boolean.orElse <| (yields_map .moment).orElse <|
    yields_decimalFloat.orElse <| yields_specialFloat.orElse yields_integer

variable {value : Reader Value}

theorem yields_array (hvalue : Yields value Keyed) : Yields (array value) Keyed := by
  have helement : Yields (do gaps; let v ← value; gaps; return v) Keyed :=
    yields_bind fun _ => hvalue.bind fun v hv => yields_bind fun _ => yields_pure hv
  refine yields_bind fun _ => (helement.separated _).option.bind fun elements helements => ?_
  have hlast : Yields (do gaps; char ']'; return .array (elements.getD [])) Keyed := by
    refine yields_bind fun _ => yields_bind fun _ => yields_pure (.array fun v hv => ?_)
    cases elements with
    | none => cases hv
    | some l => exact helements l rfl v hv
  dsimp only
  split
  · exact yields_bind fun _ => hlast
  · exact hlast

theorem yields_keyValue (hvalue : Yields value Keyed) :
    Yields (keyValue value) fun e => e.2.2.Keyed :=
  yields_bind fun _ => yields_bind fun _ => yields_bind fun _ => hvalue.bind fun _ hv =>
    yields_bind fun _ => yields_pure hv

theorem yields_inlineTable (hvalue : Yields value Keyed) : Yields (inlineTable value) Keyed := by
  refine yields_bind fun _ =>
    ((yields_keyValue hvalue).separated _).option.bind fun pairs hpairs => ?_
  refine yields_bind fun _ => yields_bind fun _ => ?_
  split
  next members hmembers =>
    have hkeyed : ∀ e ∈ pairs.getD [], e.2.2.Keyed := by
      cases pairs with
      | none => exact nofun
      | some l => exact hpairs l rfl
    have hdistinct : Distinct Node.Keyed members :=
      foldlM_keeps (fun _ _ _ hv hm h => Members.distinct_assign hv hm h) hkeyed distinct_nil
        hmembers
    have h := Node.distinct_valuesOf hdistinct.nodup fun m hm => (hdistinct.all m hm).value
    exact yields_pure (.table h.nodup h.all)
  next => exact yields_failure

theorem yields_valueWithin (depth : Nat) : Yields (valueWithin depth) Keyed := by
  induction depth with
  | zero => exact yields_scalar
  | succ depth ih =>
    refine yields_bind fun _ => ?_
    split
    · exact yields_array ih
    · exact yields_inlineTable ih
    · exact yields_scalar

end Values

section Documents

def Statement.Keyed : Statement → Prop
  | .assign _ _ v => v.Keyed
  | _ => True

theorem yields_statements : Yields statements fun l => ∀ s ∈ l, s.Keyed := by
  have hassignment : Yields assignment Statement.Keyed :=
    (yields_keyValue (yields_valueWithin _)).bind fun _ hv => yields_pure hv
  have helement : Yields elementHeader Statement.Keyed :=
    yields_bind fun _ => yields_bind fun _ => yields_bind fun _ => yields_pure trivial
  have htable : Yields tableHeader Statement.Keyed :=
    yields_bind fun _ => yields_bind fun _ => yields_bind fun _ => yields_pure trivial
  have hstatement : Yields statement Statement.Keyed :=
    (helement.orElse (htable.orElse hassignment)).bind fun _ hs =>
      yields_bind fun _ => yields_pure hs
  have hline : Yields line fun o => ∀ s ∈ o, s.Keyed := by
    refine Yields.bind (Yields.orElse ?_ ?_) fun _ ho => yields_bind fun _ => yields_pure ho
    · exact hstatement.bind fun s hs => yields_pure fun t ht => Option.some.inj ht ▸ hs
    · exact yields_bind fun _ => yields_pure nofun
  refine yields_bind fun _ => yields_bind fun _ => hline.many.bind fun lines hlines => ?_
  refine yields_bind fun _ => yields_pure fun s hs => ?_
  obtain ⟨o, ho, rfl⟩ := List.mem_filterMap.1 hs
  exact hlines _ ho s rfl

theorem distinct_add {d d' : Draft} {s : Statement} (hs : s.Keyed)
    (hd : Distinct Node.Keyed d.root) (h : d.add s = some d') : Distinct Node.Keyed d'.root := by
  cases s with
  | table path key =>
    obtain ⟨root, hroot, h⟩ := Option.bind_eq_some_iff.1 h
    obtain rfl := Option.some.inj h
    exact Members.distinct_openTable hd hroot
  | element path key =>
    obtain ⟨root, hroot, h⟩ := Option.bind_eq_some_iff.1 h
    obtain rfl := Option.some.inj h
    exact Members.distinct_openElement hd hroot
  | assign path key v =>
    obtain ⟨root, hroot, h⟩ := Option.bind_eq_some_iff.1 h
    obtain rfl := Option.some.inj h
    exact Members.distinct_assignIn hs hd hroot

theorem distinct_document {text : String} {members : List (String × Value)}
    (h : document text = some members) : Distinct Value.Keyed members := by
  obtain ⟨l, hl, h⟩ := Option.bind_eq_some_iff.1 h
  obtain ⟨draft, hdraft, h⟩ := Option.bind_eq_some_iff.1 h
  obtain rfl := Option.some.inj h
  have hroot : Distinct Node.Keyed draft.root :=
    foldlM_keeps (fun _ _ _ hs hd h => distinct_add hs hd h) (yields_statements.whole hl)
      distinct_nil hdraft
  exact Node.distinct_valuesOf hroot.nodup fun m hm => (hroot.all m hm).value

end Documents

end Toml

end ModelRegistry
