import ModelRegistry.Proofs.Reading
import ModelRegistry.Wire

namespace ModelRegistry

open Json (Plain Value)

namespace Wire

/-- The records of a type that travel are those that fit: they are read back from what they are
written as, and no others are ever read. -/
class Lawful (α : Type) [Wire α] where
  Fits : α → Prop
  plain : ∀ a : α, Plain (encode a)
  decode_encode : ∀ {a : α}, Fits a → decode (encode a) = some a
  fits_of_decode : ∀ {v : Value} {a : α}, decode v = some a → Fits a

section Fields

theorem lookup_of_nodup {members : List (String × Value)} (h : (members.map (·.1)).Nodup)
    {m : String × Value} (hm : m ∈ members) :
    (members.map (fun m => (some m.1, m.2))).lookup (some m.1) = some m.2 := by
  induction members with
  | nil => cases hm
  | cons n members ih =>
    obtain ⟨hn, hnodup⟩ := List.nodup_cons.1 h
    rcases List.mem_cons.1 hm with rfl | hm
    · simp
    · have hne : m.1 ≠ n.1 := by
        intro he
        exact hn (List.mem_map.2 ⟨m, hm, he⟩)
      have hbeq : (some m.1 == some n.1) = false := by simpa using hne
      rw [List.map_cons, List.lookup_cons, hbeq]
      exact ih hnodup hm

theorem fields_record {members : List (String × Value)} (h : (members.map (·.1)).Nodup) :
    fields (members.map (·.1)) (.record members) = some (members.map (fun m => some m.2)) := by
  have hsome : (members.map (fun m => (some m.1, m.2))).all (·.1.isSome) := by simp
  have honce : (members.map (·.1)).all (fun n =>
      (members.map (fun m => (some m.1, m.2))).countP (·.1 == some n) ≤ 1) := by
    rw [List.all_eq_true]
    intro n _
    have hcount : (members.map (fun m => (some m.1, m.2))).countP (·.1 == some n) =
        (members.map (·.1)).count n := by
      simp [List.count, List.countP_map, Function.comp_def]
    rw [hcount]
    exact decide_eq_true (List.nodup_iff_count.1 h n)
  have hlookup : (members.map (·.1)).map (fun n =>
      (members.map (fun m => (some m.1, m.2))).lookup (some n)) =
        members.map (fun m => some m.2) := by
    rw [List.map_map]
    exact List.map_congr_left fun m hm => lookup_of_nodup h hm
  rw [Value.record, fields, fieldsOfObject, hsome, honce, hlookup]
  rfl

end Fields

section Words

theorem integer?_self {low high i : Int} (h : low ≤ i ∧ i ≤ high) :
    integer? low high (.integer i) = some i := if_pos h

theorem integer?_eq_some_iff {low high i : Int} {v : Value} :
    integer? low high v = some i ↔ (low ≤ i ∧ i ≤ high) ∧ v = .integer i := by
  cases v with
  | integer j =>
    simp only [integer?, Option.ite_none_right_eq_some, Option.some.injEq, Value.integer.injEq]
    constructor
    · rintro ⟨hj, rfl⟩
      exact ⟨hj, rfl⟩
    · rintro ⟨hj, rfl⟩
      exact ⟨hj, rfl⟩
  | _ => simp [integer?]

theorem word_eq_some_iff {high : Int} {bound : Nat} (hbound : (bound : Int) = high + 1) (v : Value)
    (n : Nat) : (integer? 0 high v).map Int.toNat = some n ↔ n < bound ∧ v = .integer n := by
  rw [Option.map_eq_some_iff]
  constructor
  · rintro ⟨i, hi, rfl⟩
    obtain ⟨⟨hlow, hhigh⟩, rfl⟩ := integer?_eq_some_iff.1 hi
    exact ⟨by omega, by rw [Int.toNat_of_nonneg hlow]⟩
  · rintro ⟨hn, rfl⟩
    exact ⟨n, integer?_self ⟨by omega, by omega⟩, rfl⟩

theorem word32?_eq_some_iff (v : Value) (n : Nat) :
    word32? v = some n ↔ n < 2 ^ 32 ∧ v = .integer n := word_eq_some_iff (by decide) v n

theorem word64?_eq_some_iff (v : Value) (n : Nat) :
    word64? v = some n ↔ n < 2 ^ 64 ∧ v = .integer n := word_eq_some_iff (by decide) v n

end Words

section Texts

theorem textMap?_foldlM (entries : List (String × String)) (t : Std.ExtTreeMap String String) :
    (entries.map (fun e => (some e.1, Value.text e.2))).foldlM
        (fun t (k, v) => do return t.insert (← k) (← text? v)) t = some (t.insertMany entries) := by
  induction entries generalizing t with
  | nil => simp
  | cons e entries ih =>
    rw [Std.ExtTreeMap.insertMany_cons, ← ih]
    rfl

theorem ofList_toList (t : Std.ExtTreeMap String String) : .ofList t.toList = t := by
  ext1 k
  cases hk : t[k]? with
  | some v =>
    have hmem : (k, v) ∈ t.toList := Std.ExtTreeMap.mem_toList_iff_getElem?_eq_some.2 hk
    exact Std.ExtTreeMap.getElem?_ofList_of_mem Std.ReflCmp.compare_self t.distinct_keys_toList hmem
  | none =>
    apply Std.ExtTreeMap.getElem?_ofList_of_contains_eq_false
    rw [Std.ExtTreeMap.map_fst_toList_eq_keys, Std.ExtTreeMap.contains_keys,
      Std.ExtTreeMap.contains_eq_isSome_getElem?, hk]
    rfl

theorem textMap?_encode (t : Std.ExtTreeMap String String) : textMap? (encode t) = some t := by
  have hfold := textMap?_foldlM t.toList ∅
  rw [← Std.ExtTreeMap.ofList_eq_insertMany_empty, ofList_toList] at hfold
  rw [← hfold]
  change textMap? (.object _) = _
  rw [List.map_map]
  rfl

end Texts

theorem exists_of_mem_mapM {α : Type} {f : Value → Option α} {vs : List Value} {as : List α}
    (h : vs.mapM f = some as) {a : α} (ha : a ∈ as) : ∃ v, f v = some a := by
  induction vs generalizing as with
  | nil =>
    obtain rfl : [] = as := by simpa using h
    cases ha
  | cons v vs ih =>
    rw [List.mapM_cons] at h
    obtain ⟨b, hb, h⟩ := Option.bind_eq_some_iff.1 h
    obtain ⟨bs, hbs, h⟩ := Option.bind_eq_some_iff.1 h
    obtain rfl : b :: bs = as := Option.some.inj h
    rcases List.mem_cons.1 ha with rfl | ha
    · exact ⟨v, hb⟩
    · exact ih hbs ha

open Lawful (Fits)

instance : Lawful String where
  Fits _ := True
  plain s := .text s
  decode_encode _ := rfl
  fits_of_decode _ := trivial

instance : Lawful ClusterId where
  Fits _ := True
  plain c := .text c.text
  decode_encode _ := rfl
  fits_of_decode _ := trivial

instance : Lawful ModelId where
  Fits _ := True
  plain m := .text m.text
  decode_encode _ := rfl
  fits_of_decode _ := trivial

instance {α : Type} [Wire α] [Lawful α] : Lawful (List α) where
  Fits l := ∀ a ∈ l, Fits a
  plain l := by
    apply Plain.array
    intro v hv
    obtain ⟨a, -, rfl⟩ := List.mem_map.1 hv
    exact Lawful.plain a
  decode_encode := by
    intro l hl
    change (l.map encode).mapM decode = some l
    induction l with
    | nil => rfl
    | cons a l ih =>
      rw [List.map_cons, List.mapM_cons, Lawful.decode_encode (hl a (by simp)),
        ih fun b hb => hl b (List.mem_cons_of_mem _ hb)]
      rfl
  fits_of_decode := by
    intro v l h a ha
    cases v with
    | array elements =>
      obtain ⟨v, hv⟩ := exists_of_mem_mapM h ha
      exact Lawful.fits_of_decode hv
    | _ => cases h

instance {α : Type} [Wire α] [Lawful α] : Lawful (Option (List α)) where
  Fits o := ∀ l ∈ o, Fits l
  plain o := by
    cases o with
    | none => exact .null
    | some l => exact Lawful.plain l
  decode_encode := by
    intro o ho
    cases o with
    | none => rfl
    | some l => exact congrArg (Option.map some) (Lawful.decode_encode (ho l rfl))
  fits_of_decode := by
    intro v o h l hl
    obtain rfl : o = some l := hl
    cases v with
    | null => cases h
    | array elements =>
      obtain ⟨l', hl', hsome⟩ := Option.map_eq_some_iff.1 h
      obtain rfl := Option.some.inj hsome
      exact Lawful.fits_of_decode hl'
    | _ => cases h

theorem fits_nil {α : Type} [Wire α] [Lawful α] : Fits ([] : List α) := fun _ h =>
  absurd h List.not_mem_nil

theorem fits_none {α : Type} [Wire α] [Lawful α] : Fits (none : Option (List α)) := by
  intro l hl
  cases hl

instance : Lawful (Std.ExtTreeMap String String) where
  Fits _ := True
  plain t := by
    apply Plain.record
    intro m hm
    obtain ⟨e, -, rfl⟩ := List.mem_map.1 hm
    exact .text e.2
  decode_encode _ := textMap?_encode _
  fits_of_decode _ := trivial

/-- A field of a record: what is written under its name, and what has to be given for the record to
be read with it. -/
structure Member (α : Type) where
  name : String
  value : α → Value
  Fits : α → Prop
  Reads : Option Value → α → Prop
  plain : ∀ a, Plain (value a)
  reads_value : ∀ {a}, Fits a → Reads (some (value a)) a
  fits_of_reads : ∀ {given a}, Reads given a → Fits a

section Members

variable {α β : Type} [Wire β] [Lawful β]

def Member.required (name : String) (get : α → β) : Member α where
  name := name
  value a := encode (get a)
  Fits a := Lawful.Fits (get a)
  Reads given a := Wire.required given = some (get a)
  plain a := Lawful.plain (get a)
  reads_value := Lawful.decode_encode
  fits_of_reads := by
    intro given a h
    cases given with
    | none => cases h
    | some v => exact Lawful.fits_of_decode h

def Member.defaulting (name : String) (get : α → β) (default : β) (hdefault : Lawful.Fits default) :
    Member α where
  name := name
  value a := encode (get a)
  Fits a := Lawful.Fits (get a)
  Reads given a := Wire.defaulting default given = some (get a)
  plain a := Lawful.plain (get a)
  reads_value := Lawful.decode_encode
  fits_of_reads := by
    intro given a h
    cases given with
    | none => exact Option.some.inj h ▸ hdefault
    | some v => exact Lawful.fits_of_decode h

def Member.word (name : String) (get : α → Nat) {word? : Value → Option Nat} {bound : Nat}
    (hword : ∀ v n, word? v = some n ↔ n < bound ∧ v = .integer n) : Member α where
  name := name
  value a := .integer (get a)
  Fits a := get a < bound
  Reads given a := given.bind word? = some (get a)
  plain a := .integer (get a)
  reads_value h := (hword _ _).2 ⟨h, rfl⟩
  fits_of_reads := by
    intro given a h
    obtain ⟨v, -, hv⟩ := Option.bind_eq_some_iff.1 h
    exact ((hword _ _).1 hv).1

variable {name : String} {given : Option Value} {a : α}

@[simp]
theorem Member.name_required {get : α → β} : (Member.required name get).name = name := rfl

@[simp]
theorem Member.reads_required {get : α → β} : (Member.required name get).Reads given a ↔
    Wire.required given = some (get a) := .rfl

@[simp]
theorem Member.fits_required {get : α → β} : (Member.required name get).Fits a ↔
    Lawful.Fits (get a) := .rfl

@[simp]
theorem Member.name_defaulting {get : α → β} {default : β} {hdefault : Lawful.Fits default} :
    (Member.defaulting name get default hdefault).name = name := rfl

@[simp]
theorem Member.reads_defaulting {get : α → β} {default : β} {hdefault : Lawful.Fits default} :
    (Member.defaulting name get default hdefault).Reads given a ↔
      Wire.defaulting default given = some (get a) := .rfl

@[simp]
theorem Member.fits_defaulting {get : α → β} {default : β} {hdefault : Lawful.Fits default} :
    (Member.defaulting name get default hdefault).Fits a ↔ Lawful.Fits (get a) := .rfl

section Word

variable {get : α → Nat} {word? : Value → Option Nat} {bound : Nat}
  {hword : ∀ v n, word? v = some n ↔ n < bound ∧ v = .integer n}

@[simp]
theorem Member.name_word : (Member.word name get hword).name = name := rfl

@[simp]
theorem Member.reads_word : (Member.word name get hword).Reads given a ↔
    given.bind word? = some (get a) := .rfl

@[simp]
theorem Member.fits_word : (Member.word name get hword).Fits a ↔ get a < bound := .rfl

end Word

end Members

theorem exists_given {names : List String} (hdistinct : names.Nodup) {v : Value}
    {values : List (Option Value)} (h : fields names v = some values) :
    ∃ given : String → Option Value, names.map given = values := by
  cases v with
  | object members =>
    rw [fields, fieldsOfObject] at h
    split at h
    · exact ⟨_, Option.some.inj h⟩
    · cases h
  | array elements =>
    rw [fields] at h
    split at h
    · obtain rfl := Option.some.inj h
      refine ⟨fun n => elements[names.idxOf n]?, ?_⟩
      apply List.ext_getElem (by simp)
      intro i hi hi'
      simp [hdistinct.idxOf_getElem]
    · cases h
  | _ => cases h

structure Consists (α : Type) [Wire α] (members : List (Member α)) : Prop where
  distinct : (members.map (·.name)).Nodup
  encode_eq : ∀ a, encode a = .record (members.map fun m => (m.name, m.value a))
  decode_iff : ∀ v a, decode v = some a ↔ ∃ given : Member α → Option Value,
    fields (members.map (·.name)) v = some (members.map given) ∧
      members.Forall fun m => m.Reads (given m) a

theorem consists_of_build {α : Type} [Wire α] {members : List (Member α)}
    {build : List (Option Value) → Option α} (hdistinct : (members.map (·.name)).Nodup)
    (hencode : ∀ a, encode a = .record (members.map fun m => (m.name, m.value a)))
    (hdecode : ∀ v, decode v = (fields (members.map (·.name)) v).bind build)
    (hbuild : ∀ (given : Member α → Option Value) (a : α),
      build (members.map given) = some a ↔ members.Forall fun m => m.Reads (given m) a) :
    Consists α members := by
  refine ⟨hdistinct, hencode, fun v a => ?_⟩
  rw [hdecode, Option.bind_eq_some_iff]
  constructor
  · rintro ⟨values, hvalues, ha⟩
    obtain ⟨given, rfl⟩ := exists_given hdistinct hvalues
    rw [List.map_map] at hvalues ha
    exact ⟨_, hvalues, (hbuild _ a).1 ha⟩
  · rintro ⟨given, hvalues, hreads⟩
    exact ⟨_, hvalues, (hbuild given a).2 hreads⟩

section Consists

variable {α : Type} [Wire α] {members : List (Member α)}

theorem Consists.plain (h : Consists α members) (a : α) : Plain (encode a) := by
  rw [h.encode_eq]
  exact .record (List.forall_mem_map.2 fun m _ => m.plain a)

theorem Consists.decode_encode (h : Consists α members) {a : α}
    (ha : members.Forall fun m => m.Fits a) : decode (encode a) = some a := by
  have hnames : (members.map fun m => (m.name, m.value a)).map (·.1) = members.map (·.name) := by
    rw [List.map_map]
    rfl
  have hfields := fields_record (hnames ▸ h.distinct)
  rw [hnames, List.map_map, ← h.encode_eq] at hfields
  refine (h.decode_iff _ a).2 ⟨_, hfields, ?_⟩
  exact ha.imp fun m hm => m.reads_value hm

theorem Consists.fits_of_decode (h : Consists α members) {v : Value} {a : α}
    (ha : decode v = some a) : members.Forall fun m => m.Fits a := by
  obtain ⟨given, -, hreads⟩ := (h.decode_iff v a).1 ha
  exact hreads.imp fun m hm => m.fits_of_reads hm

@[reducible]
def Consists.lawful (h : Consists α members) (Fits : α → Prop)
    (hfits : ∀ a, Fits a ↔ members.Forall fun m => m.Fits a) : Lawful α where
  Fits := Fits
  plain := h.plain
  decode_encode ha := h.decode_encode ((hfits _).1 ha)
  fits_of_decode hv := (hfits _).2 (h.fits_of_decode hv)

end Consists

end Wire

section Records

open Wire

def Model.Fits (m : Model) : Prop := m.requestedReplicas < 2 ^ 32

def PublishedModel.Fits (m : PublishedModel) : Prop := m.model.Fits

def ServerTypeStats.Fits (s : ServerTypeStats) : Prop := s.replicas < 2 ^ 32

def ClusterStats.Fits (s : ClusterStats) : Prop := ∀ t ∈ s.serverTypes, t.Fits

def MutationKind.Fits : MutationKind → Prop
  | unknown tag => -2 ^ 31 ≤ tag ∧ tag < 2 ^ 31
  | _ => True

def Mutation.Fits (m : Mutation) : Prop := m.kind.Fits

def DiffBatch.Fits (b : DiffBatch) : Prop := (∀ m ∈ b.log, m.Fits) ∧ b.next < 2 ^ 64

def Cursor.Fits (c : Cursor) : Prop := c.seqno < 2 ^ 64

def Response.Fits (r : Response) : Prop := r.batch.Fits

def Model.members : List (Member Model) :=
  [.required "model_id" (·.id), .required "model_path" (·.path),
    .required "checkpoint_path" (·.checkpoint),
    .word "requested_replicas" (·.requestedReplicas) word32?_eq_some_iff,
    .defaulting "overrides" (·.overrides) ∅ trivial]

theorem Model.consists : Consists Model Model.members := by
  apply consists_of_build (by simp [Model.members]) (fun _ => rfl) fun _ => rfl
  rintro given ⟨id, path, checkpoint, replicas, overrides⟩
  simp [Model.members, Option.bind_eq_some_iff]

instance : Lawful Model :=
  Model.consists.lawful Model.Fits fun m => by
    simp [Model.members, Model.Fits, Lawful.Fits]

def PublishedModel.members : List (Member PublishedModel) :=
  [.required "model" (·.model), .defaulting "modelet_addresses" (·.addresses) [] fits_nil]

theorem PublishedModel.consists : Consists PublishedModel PublishedModel.members := by
  apply consists_of_build (by simp [PublishedModel.members]) (fun _ => rfl) fun _ => rfl
  rintro given ⟨model, addresses⟩
  simp [PublishedModel.members, Option.bind_eq_some_iff]

instance : Lawful PublishedModel :=
  PublishedModel.consists.lawful PublishedModel.Fits fun m => by
    simp [PublishedModel.members, PublishedModel.Fits, Lawful.Fits]

def ServerTypeStats.members : List (Member ServerTypeStats) :=
  [.required "chip_type" (·.chipType), .required "chip_topology" (·.chipTopology),
    .word "replicas" (·.replicas) word32?_eq_some_iff]

theorem ServerTypeStats.consists : Consists ServerTypeStats ServerTypeStats.members := by
  apply consists_of_build (by simp [ServerTypeStats.members]) (fun _ => rfl) fun _ => rfl
  rintro given ⟨chip, topology, replicas⟩
  simp [ServerTypeStats.members, Option.bind_eq_some_iff]

instance : Lawful ServerTypeStats :=
  ServerTypeStats.consists.lawful ServerTypeStats.Fits fun s => by
    simp [ServerTypeStats.members, ServerTypeStats.Fits, Lawful.Fits]

def ClusterStats.members : List (Member ClusterStats) :=
  [.defaulting "server_types" (·.serverTypes) [] fits_nil]

theorem ClusterStats.consists : Consists ClusterStats ClusterStats.members := by
  apply consists_of_build (by simp [ClusterStats.members]) (fun _ => rfl) fun _ => rfl
  rintro given ⟨types⟩
  simp [ClusterStats.members, Option.bind_eq_some_iff]

instance : Lawful ClusterStats :=
  ClusterStats.consists.lawful ClusterStats.Fits fun s => by
    simp [ClusterStats.members, ClusterStats.Fits, Lawful.Fits]

instance : Lawful MutationKind where
  Fits := MutationKind.Fits
  plain k := by
    cases k with
    | unknown tag => exact .record (List.forall_mem_singleton.2 (.integer tag))
    | _ => exact .text _
  decode_encode := by
    intro k hk
    cases k with
    | unknown tag =>
      have htag : -2 ^ 31 ≤ tag ∧ tag < 2 ^ 31 := hk
      change (integer? _ _ (.integer tag)).map MutationKind.unknown = _
      rw [integer?_self (by omega)]
      rfl
    | _ => rfl
  fits_of_decode := by
    intro v k h
    cases k with
    | unknown tag =>
      have htag : ∃ w, integer? (-0x80000000) 0x7fffffff w = some tag := by
        simp only [decode] at h
        split at h
        · cases h
        · cases h
        · cases h
        · cases h
        · rename_i w
          obtain ⟨i, hi, hk⟩ := Option.map_eq_some_iff.1 h
          obtain rfl := MutationKind.unknown.inj hk
          exact ⟨w, hi⟩
        · cases h
      obtain ⟨w, hw⟩ := htag
      have hbounds := (integer?_eq_some_iff.1 hw).1
      change -2 ^ 31 ≤ tag ∧ tag < 2 ^ 31
      omega
    | _ => trivial

def Mutation.members : List (Member Mutation) :=
  [.required "kind" (·.kind), .required "address" (·.address)]

theorem Mutation.consists : Consists Mutation Mutation.members := by
  apply consists_of_build (by simp [Mutation.members]) (fun _ => rfl) fun _ => rfl
  rintro given ⟨kind, address⟩
  simp [Mutation.members, Option.bind_eq_some_iff]

instance : Lawful Mutation :=
  Mutation.consists.lawful Mutation.Fits fun m => by
    simp [Mutation.members, Mutation.Fits, Lawful.Fits]

def DiffBatch.members : List (Member DiffBatch) :=
  [.defaulting "snapshot" (·.snapshot) none fits_none, .defaulting "log" (·.log) [] fits_nil,
    .word "next_seqno" (·.next) word64?_eq_some_iff]

theorem DiffBatch.consists : Consists DiffBatch DiffBatch.members := by
  apply consists_of_build (by simp [DiffBatch.members]) (fun _ => rfl) fun _ => rfl
  rintro given ⟨snapshot, log, next⟩
  simp [DiffBatch.members, Option.bind_eq_some_iff]

instance : Lawful DiffBatch :=
  DiffBatch.consists.lawful DiffBatch.Fits fun b => by
    simp [DiffBatch.members, DiffBatch.Fits, Lawful.Fits]

def Cursor.members : List (Member Cursor) :=
  [.required "registry_instance" (·.instanceId), .word "seqno" (·.seqno) word64?_eq_some_iff]

theorem Cursor.consists : Consists Cursor Cursor.members := by
  apply consists_of_build (by simp [Cursor.members]) (fun _ => rfl) fun _ => rfl
  rintro given ⟨instanceId, seqno⟩
  simp [Cursor.members, Option.bind_eq_some_iff]

instance : Lawful Cursor :=
  Cursor.consists.lawful Cursor.Fits fun c => by
    simp [Cursor.members, Cursor.Fits, Lawful.Fits]

def Response.members : List (Member Response) :=
  [.required "registry_instance" (·.instanceId), .required "batch" (·.batch)]

theorem Response.consists : Consists Response Response.members := by
  apply consists_of_build (by simp [Response.members]) (fun _ => rfl) fun _ => rfl
  rintro given ⟨instanceId, batch⟩
  simp [Response.members, Option.bind_eq_some_iff]

instance : Lawful Response :=
  Response.consists.lawful Response.Fits fun r => by
    simp [Response.members, Response.Fits, Lawful.Fits]

end Records

namespace Wire

def rewritten (α : Type) [Wire α] (text : String) : Option String :=
  (ofText? text : Option α).map toText

structure RoundTrips (α : Type) [Wire α] (fits : α → Prop) : Prop where
  reads_back : ∀ a : α, fits a → ofText? (toText a) = some a
  fits : ∀ text (a : α), ofText? text = some a → fits a
  again : ∀ text (a : α), ofText? text = some a → ofText? (toText a) = some a
  idempotent : ∀ text text', rewritten α text = some text' → rewritten α text' = some text'
  same_iff : ∀ text text' (a a' : α), ofText? text = some a → ofText? text' = some a' →
    (rewritten α text = rewritten α text' ↔ a = a')

variable {α : Type} [Wire α] [Lawful α]

theorem ofText?_toText {a : α} (h : Lawful.Fits a) : ofText? (toText a) = some a := by
  rw [ofText?, toText, Json.read_compact (Lawful.plain a)]
  exact Lawful.decode_encode h

theorem fits_of_ofText? {text : String} {a : α} (h : ofText? text = some a) : Lawful.Fits a := by
  obtain ⟨v, -, hv⟩ := Option.bind_eq_some_iff.1 h
  exact Lawful.fits_of_decode hv

theorem toText_inj {a a' : α} (h : Lawful.Fits a) (h' : Lawful.Fits a') :
    toText a = toText a' ↔ a = a' := by
  constructor
  · intro he
    have hread := ofText?_toText h
    rw [he, ofText?_toText h'] at hread
    exact (Option.some.inj hread).symm
  · rintro rfl
    rfl

theorem roundTrips_of_lawful : RoundTrips α Lawful.Fits where
  reads_back _ := ofText?_toText
  fits _ _ := fits_of_ofText?
  again _ _ h := ofText?_toText (fits_of_ofText? h)
  idempotent := by
    intro text text' h
    obtain ⟨a, ha, rfl⟩ := Option.map_eq_some_iff.1 h
    rw [rewritten, ofText?_toText (fits_of_ofText? ha)]
    rfl
  same_iff := by
    intro text text' a a' h h'
    rw [rewritten, rewritten, h, h', Option.map_some, Option.map_some, Option.some.injEq]
    exact toText_inj (fits_of_ofText? h) (fits_of_ofText? h')

/-- Every identifier and every record whose numbers fit their words survives the wire, and these are
all that any text stands for. -/
theorem roundTrips_records :
    RoundTrips ClusterId (fun _ => True) ∧ RoundTrips ModelId (fun _ => True) ∧
      RoundTrips Model Model.Fits ∧ RoundTrips PublishedModel PublishedModel.Fits ∧
      RoundTrips ServerTypeStats ServerTypeStats.Fits ∧ RoundTrips ClusterStats ClusterStats.Fits ∧
      RoundTrips MutationKind MutationKind.Fits ∧ RoundTrips Mutation Mutation.Fits ∧
      RoundTrips DiffBatch DiffBatch.Fits ∧ RoundTrips Cursor Cursor.Fits ∧
      RoundTrips Response Response.Fits :=
  ⟨roundTrips_of_lawful, roundTrips_of_lawful, roundTrips_of_lawful, roundTrips_of_lawful,
    roundTrips_of_lawful, roundTrips_of_lawful, roundTrips_of_lawful, roundTrips_of_lawful,
    roundTrips_of_lawful, roundTrips_of_lawful, roundTrips_of_lawful⟩

end Wire

end ModelRegistry
