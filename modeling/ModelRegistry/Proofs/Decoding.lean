import Mathlib.Data.List.Basic
import ModelRegistry.Proofs.Encoding

namespace ModelRegistry

open Json (Value)

namespace Wire

/-- A field of a record: its name, whether it has to be there, and the values that it takes. -/
structure Field where
  name : String
  required : Bool
  Accepts : Value → Prop

def Field.Takes (f : Field) : Option Value → Prop
  | some v => f.Accepts v
  | none => f.required = false

def valuesUnder (name : String) (members : List (String × Value)) : List Value :=
  (members.filter (·.1 == name)).map (·.2)

structure Acceptable (known : List Field) (members : List (String × Value)) : Prop where
  once : ∀ f ∈ known, (valuesUnder f.name members).length ≤ 1
  complete : ∀ f ∈ known, f.required → valuesUnder f.name members ≠ []
  accepted : ∀ f ∈ known, ∀ v ∈ valuesUnder f.name members, f.Accepts v

def Decodes (α : Type) [Wire α] (v : Value) : Prop := ∃ a : α, decode v = some a

structure Reads (α : Type) [Wire α] (known : List Field) : Prop where
  accepts : ∀ members, Decodes α (.record members) ↔ Acceptable known members
  -- an object is refused if the name of a member stands for no text
  nameless : ∀ members v, (none, v) ∈ members → ¬ Decodes α (.object members)
  sees : ∀ members members',
    (∀ f ∈ known, valuesUnder f.name members = valuesUnder f.name members') →
    (decode (.record members) : Option α) = decode (.record members')
  reordered : ∀ members members', members.Perm members' →
    (decode (.record members) : Option α) = decode (.record members')
  ignores : ∀ before (m : String × Value) after, (∀ f ∈ known, m.1 ≠ f.name) →
    (decode (.record (before ++ m :: after)) : Option α) = decode (.record (before ++ after))
  -- the values of all fields in order may be given without the names
  array : ∀ members values,
    known.map (fun f => valuesUnder f.name members) = values.map (fun v => [v]) →
    (decode (.array values) : Option α) = decode (.record members)

section Fields

variable {names : List String} {members members' : List (String × Value)}

theorem lookup_eq_head? (name : String) (members : List (String × Value)) :
    (members.map (fun m => (some m.1, m.2))).lookup (some name) =
      (valuesUnder name members).head? := by
  induction members with
  | nil => rfl
  | cons m members ih =>
    by_cases h : m.1 = name
    · simp [valuesUnder, h]
    · have hbeq : (some name == some m.1) = false := by simpa using Ne.symm h
      have hne : (m.1 == name) = false := by simpa using h
      rw [List.map_cons, List.lookup_cons, hbeq, ih]
      simp [valuesUnder, hne]

theorem countP_eq_length (name : String) (members : List (String × Value)) :
    (members.map (fun m => (some m.1, m.2))).countP (·.1 == some name) =
      (valuesUnder name members).length := by
  rw [valuesUnder, List.length_map, ← List.countP_eq_length_filter, List.countP_map]
  exact List.countP_congr fun m _ => by simp

theorem fields_record_eq (names : List String) (members : List (String × Value)) :
    fields names (.record members) =
      if ∀ n ∈ names, (valuesUnder n members).length ≤ 1 then
        some (names.map fun n => (valuesUnder n members).head?)
      else none := by
  have hsome : (members.map (fun m => (some m.1, m.2))).all (·.1.isSome) := by simp
  simp only [Value.record, fields, fieldsOfObject, hsome, Bool.true_and, lookup_eq_head?,
    countP_eq_length, List.all_eq_true, decide_eq_true_eq]

theorem fields_nameless {members : List (Option String × Value)} {v : Value}
    (h : (none, v) ∈ members) : fields names (.object members) = none := by
  have hnone : members.all (·.1.isSome) = false := by
    rw [List.all_eq_false]
    exact ⟨_, h, by simp⟩
  simp [fields, fieldsOfObject, hnone]

theorem fields_record_congr
    (h : ∀ n ∈ names, valuesUnder n members = valuesUnder n members') :
    fields names (.record members) = fields names (.record members') := by
  have hlengths : (∀ n ∈ names, (valuesUnder n members).length ≤ 1) ↔
      ∀ n ∈ names, (valuesUnder n members').length ≤ 1 :=
    forall₂_congr fun n hn => by rw [h n hn]
  have hvalues : names.map (fun n => (valuesUnder n members).head?) =
      names.map fun n => (valuesUnder n members').head? :=
    List.map_congr_left fun n hn => by rw [h n hn]
  rw [fields_record_eq, fields_record_eq, hvalues]
  exact if_congr hlengths rfl rfl

theorem perm_valuesUnder (h : members.Perm members') (name : String) :
    (valuesUnder name members).Perm (valuesUnder name members') :=
  (h.filter _).map _

theorem fields_record_perm (h : members.Perm members') :
    fields names (.record members) = fields names (.record members') := by
  have hlength (n : String) :
      (valuesUnder n members).length = (valuesUnder n members').length :=
    (perm_valuesUnder h n).length_eq
  by_cases honce : ∀ n ∈ names, (valuesUnder n members).length ≤ 1
  · apply fields_record_congr
    intro n hn
    have hperm := perm_valuesUnder h n
    obtain hnone | hone := Nat.le_one_iff_eq_zero_or_eq_one.1 (honce n hn)
    · rw [List.length_eq_zero_iff] at hnone
      rw [hnone] at hperm ⊢
      exact hperm.nil_eq
    · obtain ⟨v, hv⟩ := List.length_eq_one_iff.1 hone
      rw [hv] at hperm ⊢
      exact List.singleton_perm.1 hperm
  · have honce' : ¬ ∀ n ∈ names, (valuesUnder n members').length ≤ 1 := by
      simpa only [hlength] using honce
    rw [fields_record_eq, fields_record_eq, if_neg honce, if_neg honce']

theorem valuesUnder_insert {m : String × Value} {name : String} (h : m.1 ≠ name)
    (before after : List (String × Value)) :
    valuesUnder name (before ++ m :: after) = valuesUnder name (before ++ after) := by
  have hne : (m.1 == name) = false := by simpa using h
  simp [valuesUnder, List.filter_append, hne]

theorem fields_array_eq {values : List Value} (h : values.length = names.length) :
    fields names (.array values) = some (values.map some) := by
  have hvalues : (List.range names.length).map (values[·]?) = values.map some := by
    apply List.ext_getElem?
    intro i
    by_cases hi : i < names.length <;> simp [h, hi]
  rw [fields, if_pos (Nat.le_of_eq h), hvalues]

end Fields

section Records

variable {α : Type} [Wire α] {known : List Field} {members : List (String × Value)}
  {build : List (Option Value) → Option α}

theorem takes_head?_iff {f : Field} {values : List Value} (h : values.length ≤ 1) :
    f.Takes values.head? ↔ (f.required → values ≠ []) ∧ ∀ v ∈ values, f.Accepts v := by
  cases values with
  | nil => simp [Field.Takes]
  | cons v rest =>
    have hrest : rest = [] := by simpa using h
    simp [Field.Takes, hrest]

theorem acceptable_iff_takes (honce : ∀ f ∈ known, (valuesUnder f.name members).length ≤ 1) :
    Acceptable known members ↔ ∀ f ∈ known, f.Takes (valuesUnder f.name members).head? := by
  have htakes : (∀ f ∈ known, f.Takes (valuesUnder f.name members).head?) ↔
      ∀ f ∈ known, (f.required → valuesUnder f.name members ≠ []) ∧
        ∀ v ∈ valuesUnder f.name members, f.Accepts v :=
    forall₂_congr fun f hf => takes_head?_iff (honce f hf)
  rw [htakes]
  constructor
  · intro h f hf
    exact ⟨h.complete f hf, h.accepted f hf⟩
  · intro h
    exact ⟨honce, fun f hf => (h f hf).1, fun f hf => (h f hf).2⟩

theorem fields_known_eq (members : List (String × Value)) :
    fields (known.map (·.name)) (.record members) =
      if ∀ f ∈ known, (valuesUnder f.name members).length ≤ 1 then
        some (known.map fun f => (valuesUnder f.name members).head?)
      else none := by
  simp only [fields_record_eq, List.forall_mem_map, List.map_map, Function.comp_def]

theorem fields_array_of_values {values : List Value}
    (h : known.map (fun f => valuesUnder f.name members) = values.map fun v => [v]) :
    fields (known.map (·.name)) (.array values) =
      fields (known.map (·.name)) (.record members) := by
  have hlength : values.length = (known.map (·.name)).length := by
    simpa using (congrArg List.length h).symm
  have honce : ∀ f ∈ known, (valuesUnder f.name members).length ≤ 1 := by
    intro f hf
    have hmem := List.mem_map_of_mem (f := fun f => valuesUnder f.name members) hf
    rw [h] at hmem
    obtain ⟨v, -, hv⟩ := List.mem_map.1 hmem
    simp [← hv]
  have hheads : known.map (fun f => (valuesUnder f.name members).head?) = values.map some := by
    simpa [Function.comp_def] using congrArg (List.map List.head?) h
  rw [fields_array_eq hlength, fields_known_eq, if_pos honce, hheads]

/-- A record is read as said if it is built from its fields alone, and can be whenever each takes
what it is given. -/
theorem reads_of_build (hdecode : ∀ v, decode v = (fields (known.map (·.name)) v).bind build)
    (hbuild : ∀ given : Field → Option Value,
      (∃ a, build (known.map given) = some a) ↔ known.Forall fun f => f.Takes (given f)) :
    Reads α known := by
  simp only [List.forall_iff_forall_mem] at hbuild
  constructor
  · intro members
    rw [Decodes, hdecode, fields_known_eq]
    split
    next honce => exact (hbuild _).trans (acceptable_iff_takes honce).symm
    next htwice =>
      constructor
      · rintro ⟨a, ⟨⟩⟩
      · intro h
        exact absurd h.once htwice
  · rintro members v hv ⟨a, ha⟩
    rw [hdecode, fields_nameless hv] at ha
    cases ha
  · intro members members' h
    rw [hdecode, hdecode, fields_record_congr (List.forall_mem_map.2 h)]
  · intro members members' h
    rw [hdecode, hdecode, fields_record_perm h]
  · intro before m after h
    have hsame : ∀ f ∈ known, valuesUnder f.name (before ++ m :: after) =
        valuesUnder f.name (before ++ after) :=
      fun f hf => valuesUnder_insert (h f hf) before after
    rw [hdecode, hdecode, fields_record_congr (List.forall_mem_map.2 hsame)]
  · intro members values h
    rw [hdecode, hdecode, fields_array_of_values h]

end Records

section Values

def IsText (v : Value) : Prop := ∃ s, v = .text s

def IsWord (bits : Nat) (v : Value) : Prop := ∃ n : Nat, n < 2 ^ bits ∧ v = .integer n

def IsList (P : Value → Prop) (v : Value) : Prop := ∃ values, v = .array values ∧ ∀ w ∈ values, P w

def IsTextMap (v : Value) : Prop :=
  ∃ members : List (String × Value), v = .record members ∧ ∀ m ∈ members, IsText m.2

inductive IsKind : Value → Prop
  | name (name : String) : name ∈ ["Add", "Remove"] → IsKind (.text name)
  | empty (name : String) : name ∈ ["Add", "Remove"] → IsKind (.record [(name, .null)])
  | tag (tag : Int) : -2 ^ 31 ≤ tag → tag < 2 ^ 31 → IsKind (.record [("Unknown", .integer tag)])

variable {α : Type} [Wire α] {v : Value}

theorem text?_iff : (∃ s, text? v = some s) ↔ IsText v := by
  cases v <;> simp [text?, IsText]

theorem exists_mapM_iff {values : List Value} :
    (∃ l : List α, values.mapM decode = some l) ↔ ∀ w ∈ values, Decodes α w := by
  induction values with
  | nil => simp
  | cons w values ih =>
    rw [List.forall_mem_cons, ← ih, List.mapM_cons]
    simp only [Option.bind_eq_bind, Option.bind_eq_some_iff, Option.pure_def, Option.some.injEq]
    constructor
    · rintro ⟨l, a, ha, as, has, -⟩
      exact ⟨⟨a, ha⟩, as, has⟩
    · rintro ⟨⟨a, ha⟩, as, has⟩
      exact ⟨a :: as, a, ha, as, has, rfl⟩

theorem decodes_list : Decodes (List α) v ↔ IsList (Decodes α) v := by
  cases v with
  | array values =>
    refine exists_mapM_iff.trans ?_
    simp [IsList]
  | _ => simp [Decodes, decode, IsList]

theorem decodes_text : Decodes String v ↔ IsText v := text?_iff

theorem decodes_texts : Decodes (List String) v ↔ IsList IsText v := by
  rw [decodes_list, IsList, IsList]
  simp only [decodes_text]

theorem decodes_option : Decodes (Option α) v ↔ v = .null ∨ Decodes α v := by
  cases v with
  | null => simp [Decodes, decode]
  | _ => simp [Decodes, decode]

theorem decodes_modelId : Decodes ModelId v ↔ IsText v := by
  simp [Decodes, decode, ← text?_iff]

theorem exists_foldlM_iff {members : List (Option String × Value)}
    (t : Std.ExtTreeMap String String) :
    (∃ t', members.foldlM (fun t (k, v) => do return t.insert (← k) (← text? v)) t = some t') ↔
      ∀ m ∈ members, m.1.isSome ∧ IsText m.2 := by
  induction members generalizing t with
  | nil => simp
  | cons m members ih =>
    obtain ⟨k, v⟩ := m
    rw [List.forall_mem_cons, List.foldlM_cons, ← text?_iff]
    cases k with
    | none => simp
    | some k =>
      cases hs : text? v with
      | none => simp [hs]
      | some s =>
        have hnext := ih (t.insert k s)
        simpa [hs] using hnext

theorem decodes_textMap : Decodes (Std.ExtTreeMap String String) v ↔ IsTextMap v := by
  cases v with
  | object members =>
    refine (exists_foldlM_iff ∅).trans ?_
    constructor
    · intro h
      refine ⟨members.map fun m => (m.1.getD "", m.2), ?_, ?_⟩
      · rw [Value.record, List.map_map]
        congr 1
        refine (List.map_congr_left ?_).trans (List.map_id _) |>.symm
        rintro ⟨k, v⟩ hm
        obtain ⟨n, rfl⟩ := Option.isSome_iff_exists.1 (h _ hm).1
        rfl
      · intro m hm
        obtain ⟨n, hn, rfl⟩ := List.mem_map.1 hm
        exact (h n hn).2
    · rintro ⟨named, hnamed, htexts⟩ m hm
      obtain rfl := Value.object.inj hnamed
      obtain ⟨n, hn, rfl⟩ := List.mem_map.1 hm
      exact ⟨rfl, htexts n hn⟩
  | _ => simp [Decodes, decode, textMap?, IsTextMap, Value.record]

theorem integer?_iff {low high : Int} :
    (∃ i, integer? low high v = some i) ↔ ∃ i, low ≤ i ∧ i ≤ high ∧ v = .integer i := by
  cases v <;> simp [integer?, and_assoc]

theorem word32?_iff : (∃ n, word32? v = some n) ↔ IsWord 32 v :=
  exists_congr fun n => word32?_eq_some_iff v n

theorem word64?_iff : (∃ n, word64? v = some n) ↔ IsWord 64 v :=
  exists_congr fun n => word64?_eq_some_iff v n

theorem decodes_kind : Decodes MutationKind v ↔ IsKind v := by
  constructor
  · rintro ⟨k, h⟩
    simp only [decode] at h
    split at h
    · exact .name _ (by simp)
    · exact .empty "Add" (by simp)
    · exact .name _ (by simp)
    · exact .empty "Remove" (by simp)
    · obtain ⟨i, hi, -⟩ := Option.map_eq_some_iff.1 h
      obtain ⟨tag, hlow, hhigh, rfl⟩ := integer?_iff.1 ⟨i, hi⟩
      exact .tag tag (by omega) (by omega)
    · cases h
  · intro h
    cases h with
    | name name hname =>
      obtain rfl | rfl : name = "Add" ∨ name = "Remove" := by simpa using hname
      · exact ⟨.add, rfl⟩
      · exact ⟨.remove, rfl⟩
    | empty name hname =>
      obtain rfl | rfl : name = "Add" ∨ name = "Remove" := by simpa using hname
      · exact ⟨.add, rfl⟩
      · exact ⟨.remove, rfl⟩
    | tag tag hlow hhigh =>
      refine ⟨.unknown tag, ?_⟩
      change (integer? _ _ (.integer tag)).map MutationKind.unknown = _
      rw [integer?_self (by omega)]
      rfl

end Values

end Wire

section Fields

open Wire

def Model.fields : List Field :=
  [⟨"model_id", true, IsText⟩, ⟨"model_path", true, IsText⟩, ⟨"checkpoint_path", true, IsText⟩,
    ⟨"requested_replicas", true, IsWord 32⟩, ⟨"overrides", false, IsTextMap⟩]

def PublishedModel.fields : List Field :=
  [⟨"model", true, Decodes Model⟩, ⟨"modelet_addresses", false, IsList IsText⟩]

def ServerTypeStats.fields : List Field :=
  [⟨"chip_type", true, IsText⟩, ⟨"chip_topology", true, IsText⟩, ⟨"replicas", true, IsWord 32⟩]

def ClusterStats.fields : List Field :=
  [⟨"server_types", false, IsList (Decodes ServerTypeStats)⟩]

def Mutation.fields : List Field := [⟨"kind", true, IsKind⟩, ⟨"address", true, IsText⟩]

def DiffBatch.fields : List Field :=
  [⟨"snapshot", false, fun v => v = .null ∨ IsList IsText v⟩,
    ⟨"log", false, IsList (Decodes Mutation)⟩, ⟨"next_seqno", true, IsWord 64⟩]

def Cursor.fields : List Field := [⟨"registry_instance", true, IsText⟩, ⟨"seqno", true, IsWord 64⟩]

def Response.fields : List Field :=
  [⟨"registry_instance", true, IsText⟩, ⟨"batch", true, Decodes DiffBatch⟩]

end Fields

namespace Wire

section Members

variable {α β : Type} {Accepts : Value → Prop} {name : String} {given : Option Value}

theorem exists_bind_iff {o : Option α} {f : α → Option β} :
    (∃ b, o >>= f = some b) ↔ ∃ a, o = some a ∧ ∃ b, f a = some b := by
  cases o <;> simp

theorem exists_pure {a : α} : ∃ b, (pure a : Option α) = some b := ⟨a, rfl⟩

theorem takes_bind_iff {f : Value → Option α} (h : ∀ v, (∃ a, f v = some a) ↔ Accepts v) :
    (∃ a, given.bind f = some a) ↔ (Field.mk name true Accepts).Takes given := by
  cases given with
  | none => simp [Field.Takes]
  | some v => exact h v

variable [Wire α]

theorem takes_required_iff (h : ∀ v, Decodes α v ↔ Accepts v) :
    (∃ a : α, required given = some a) ↔ (Field.mk name true Accepts).Takes given := by
  cases given with
  | none => simp [required, Field.Takes]
  | some v => exact h v

theorem takes_defaulting_iff {default : α} (h : ∀ v, Decodes α v ↔ Accepts v) :
    (∃ a, defaulting default given = some a) ↔ (Field.mk name false Accepts).Takes given := by
  cases given with
  | none => simp [defaulting, Field.Takes]
  | some v => exact h v

end Members

theorem reads_model : Reads Model Model.fields := by
  apply reads_of_build fun v => rfl
  intro given
  simp only [Model.fields, List.map_cons, List.map_nil, exists_bind_iff, exists_pure, and_true,
    exists_and_right]
  exact and_congr (takes_required_iff fun _ => decodes_modelId) <|
    and_congr (takes_required_iff fun _ => decodes_text) <|
    and_congr (takes_required_iff fun _ => decodes_text) <|
    and_congr (takes_bind_iff fun _ => word32?_iff)
      (takes_defaulting_iff fun _ => decodes_textMap)

theorem reads_publishedModel : Reads PublishedModel PublishedModel.fields := by
  apply reads_of_build fun v => rfl
  intro given
  simp only [PublishedModel.fields, List.map_cons, List.map_nil, exists_bind_iff, exists_pure,
    and_true, exists_and_right]
  exact and_congr (takes_required_iff fun _ => Iff.rfl)
    (takes_defaulting_iff fun _ => decodes_texts)

theorem reads_serverTypeStats : Reads ServerTypeStats ServerTypeStats.fields := by
  apply reads_of_build fun v => rfl
  intro given
  simp only [ServerTypeStats.fields, List.map_cons, List.map_nil, exists_bind_iff, exists_pure,
    and_true, exists_and_right]
  exact and_congr (takes_required_iff fun _ => decodes_text) <|
    and_congr (takes_required_iff fun _ => decodes_text) (takes_bind_iff fun _ => word32?_iff)

theorem reads_clusterStats : Reads ClusterStats ClusterStats.fields := by
  apply reads_of_build fun v => rfl
  intro given
  simp only [ClusterStats.fields, List.map_cons, List.map_nil, exists_bind_iff, exists_pure,
    and_true]
  exact takes_defaulting_iff fun _ => decodes_list

theorem reads_mutation : Reads Mutation Mutation.fields := by
  apply reads_of_build fun v => rfl
  intro given
  simp only [Mutation.fields, List.map_cons, List.map_nil, exists_bind_iff, exists_pure, and_true,
    exists_and_right]
  exact and_congr (takes_required_iff fun _ => decodes_kind)
    (takes_required_iff fun _ => decodes_text)

theorem reads_diffBatch : Reads DiffBatch DiffBatch.fields := by
  apply reads_of_build fun v => rfl
  intro given
  simp only [DiffBatch.fields, List.map_cons, List.map_nil, exists_bind_iff, exists_pure, and_true,
    exists_and_right]
  exact and_congr
    (takes_defaulting_iff fun _ => decodes_option.trans (or_congr_right decodes_texts)) <|
    and_congr (takes_defaulting_iff fun _ => decodes_list) (takes_bind_iff fun _ => word64?_iff)

theorem reads_cursor : Reads Cursor Cursor.fields := by
  apply reads_of_build fun v => rfl
  intro given
  simp only [Cursor.fields, List.map_cons, List.map_nil, exists_bind_iff, exists_pure, and_true,
    exists_and_right]
  exact and_congr (takes_required_iff fun _ => decodes_text) (takes_bind_iff fun _ => word64?_iff)

theorem reads_response : Reads Response Response.fields := by
  apply reads_of_build fun v => rfl
  intro given
  simp only [Response.fields, List.map_cons, List.map_nil, exists_bind_iff, exists_pure, and_true,
    exists_and_right]
  exact and_congr (takes_required_iff fun _ => decodes_text) (takes_required_iff fun _ => Iff.rfl)

/-- Every record is read from the objects that have its fields, each of its own type. -/
theorem reads_records :
    Reads Model Model.fields ∧ Reads PublishedModel PublishedModel.fields ∧
      Reads ServerTypeStats ServerTypeStats.fields ∧ Reads ClusterStats ClusterStats.fields ∧
      Reads Mutation Mutation.fields ∧ Reads DiffBatch DiffBatch.fields ∧
      Reads Cursor Cursor.fields ∧ Reads Response Response.fields :=
  ⟨reads_model, reads_publishedModel, reads_serverTypeStats, reads_clusterStats, reads_mutation,
    reads_diffBatch, reads_cursor, reads_response⟩

end Wire

end ModelRegistry
