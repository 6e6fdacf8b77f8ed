import ModelRegistry.Proofs.Inquiry

namespace ModelRegistry

abbrev Catalog := Std.ExtTreeMap ModelId PublishedModel

namespace Catalog

def serve (t : Catalog) : Request → Option (Answer × Catalog)
  | .publish model =>
    if model.id ∈ t then none else some (.done, t.insert model.id ⟨model, []⟩)
  | .update model => t[model.id]?.map fun p => (.done, t.insert model.id { p with model })
  | .unpublish id => if id ∈ t then some (.done, t.erase id) else none
  | .list id => t[id]?.map fun p => (.model p, t)
  | .listAll => some (.models (t.toList.map (·.2)), t)
  | .stats id => t[id]?.map fun p => (.stats ⟨[⟨"cpu", "1", p.addresses.length % 0x100000000⟩]⟩, t)

def Yields (q : Request) (result : Except Error Answer) (t t' : Catalog) : Prop :=
  match result with
  | .ok a => t.serve q = some (a, t')
  | .error _ => t' = t

theorem erase_eq_self {t : Catalog} {id : ModelId} (h : id ∉ t) : t.erase id = t := by
  ext1 other
  rw [Std.ExtTreeMap.getElem?_erase]
  split
  · rename_i hc
    obtain rfl := Std.LawfulEqOrd.eq_of_compare hc
    exact (Std.ExtTreeMap.getElem?_eq_none h).symm
  · rfl

def revise (t : Catalog) (id : ModelId) (f : PublishedModel → PublishedModel) : Catalog :=
  match t[id]? with
  | some p => t.insert id (f p)
  | none => t

def operate (t : Catalog) : MemoryRegistry.Command → Catalog
  | .publish model addresses => t.insert model.id ⟨model, addresses⟩
  | .unpublish id => t.erase id
  | .addAddress id address => t.revise id fun p =>
    if address ∈ p.addresses then p else { p with addresses := p.addresses ++ [address] }
  | .removeAddress id address => t.revise id fun p =>
    { p with addresses := p.addresses.filter (· != address) }
  | .restart id addresses => t.revise id fun p => { p with addresses }
  | _ => t

end Catalog

namespace Entry

theorem published_add (e : Entry) (address : String) :
    (e.add address).published =
      if address ∈ e.published.addresses then e.published
      else { e.published with addresses := e.published.addresses ++ [address] } := by
  unfold add
  change (if address ∈ e.addresses then _ else _ : Entry).published =
    if address ∈ e.addresses then _ else _
  split <;> rfl

theorem published_remove (e : Entry) (address : String) :
    (e.remove address).published =
      { e.published with addresses := e.published.addresses.filter (· != address) } := by
  unfold remove
  split
  · rfl
  · rename_i h
    have hfilter : e.addresses.filter (· != address) = e.addresses := by
      refine List.filter_eq_self.mpr fun a ha => ?_
      rw [bne_iff_ne]
      rintro rfl
      exact h ha
    change e.published = ⟨e.model, e.addresses.filter (· != address)⟩
    rw [hfilter]
    rfl

end Entry

namespace MemoryRegistry

def catalog (r : MemoryRegistry) : Catalog := r.entries.map fun _ e => e.published

theorem getElem?_catalog (r : MemoryRegistry) (id : ModelId) :
    r.catalog[id]? = r.entries[id]?.map Entry.published :=
  Std.ExtTreeMap.getElem?_map

theorem mem_catalog {r : MemoryRegistry} {id : ModelId} :
    id ∈ r.catalog ↔ r.entries.contains id :=
  Std.ExtTreeMap.mem_map.trans Std.ExtTreeMap.mem_iff_contains

theorem catalog_new (identities : Nat → String) : (new identities).catalog = ∅ := by
  ext1 id
  simp [getElem?_catalog, new]

theorem catalog_insert (r : MemoryRegistry) (id : ModelId) (e : Entry) :
    catalog { r with entries := r.entries.insert id e } = r.catalog.insert id e.published := by
  ext1 other
  simp only [getElem?_catalog, Std.ExtTreeMap.getElem?_insert]
  split <;> rfl

theorem catalog_erase (r : MemoryRegistry) (id : ModelId) :
    catalog { r with entries := r.entries.erase id } = r.catalog.erase id := by
  ext1 other
  simp only [getElem?_catalog, Std.ExtTreeMap.getElem?_erase]
  split <;> rfl

theorem catalog_modifyEntry (r : MemoryRegistry) (id : ModelId) {f : Entry → Entry}
    {g : PublishedModel → PublishedModel} (h : ∀ e, (f e).published = g e.published) :
    (r.modifyEntry id f).catalog = r.catalog.revise id g := by
  unfold modifyEntry Catalog.revise
  rw [getElem?_catalog]
  cases he : r.entries[id]? with
  | none => rfl
  | some e =>
    simp only [Option.map_some]
    rw [catalog_insert, h]

theorem catalog_restart (r : MemoryRegistry) (id : ModelId) (addresses : List String) :
    (r.restart id addresses).catalog = r.catalog.revise id fun p => { p with addresses } := by
  have hforget : catalog { r with
      restarts := r.restarts + 1, entries := r.entries.map fun _ => Entry.forgetLog } =
        r.catalog := by
    ext1 other
    simp only [getElem?_catalog, Std.ExtTreeMap.getElem?_map, Option.map_map]
    rfl
  unfold restart
  rw [catalog_modifyEntry (g := fun p => { p with addresses }) _ _ (fun _ => rfl), hforget]

theorem values_entries (r : MemoryRegistry) :
    r.entries.values.map Entry.published = r.catalog.toList.map (·.2) := by
  have hvalues : r.entries.values = r.entries.toList.map (·.2) := by
    have hfold : r.entries.values = r.entries.foldr (fun _ e l => e :: l) [] := by
      obtain ⟨⟨m⟩⟩ := r.entries
      rfl
    rw [hfold, Std.ExtTreeMap.foldr_eq_foldr_toList]
    induction r.entries.toList with
    | nil => rfl
    | cons p l ih => simp [ih]
  rw [hvalues, catalog, Std.ExtTreeMap.toList_map]
  simp [Function.comp_def]

theorem catalog_command (r : MemoryRegistry) (c : Command) :
    (r.command c).catalog = r.catalog.operate c := by
  cases c with
  | publish model addresses => exact catalog_insert r model.id (.new model addresses)
  | unpublish id => exact catalog_erase r id
  | addAddress id address => exact catalog_modifyEntry r id (fun e => e.published_add address)
  | removeAddress id address => exact catalog_modifyEntry r id (fun e => e.published_remove address)
  | restart id addresses => exact catalog_restart r id addresses
  | _ => rfl

theorem yields_perform (r : MemoryRegistry) (q : Request) :
    Catalog.Yields q ((r.perform q).2.bind q.conclude) r.catalog (r.perform q).1.catalog := by
  cases q with
  | publish model =>
    simp only [perform]
    split
    · rfl
    · rename_i hc
      have hnot := fun h => hc (mem_catalog.mp h)
      simp only [Except.bind, Request.conclude, Catalog.Yields, Catalog.serve, if_neg hnot,
        catalog_insert]
      rfl
  | update model =>
    simp only [perform]
    split
    · rename_i hc
      obtain ⟨e, he⟩ : ∃ e, r.entries[model.id]? = some e := by
        rw [← Option.isSome_iff_exists, Std.ExtTreeMap.isSome_getElem?_eq_contains]
        exact hc
      have hrevise := catalog_modifyEntry r model.id (f := fun e => { e with model })
        (g := fun p => { p with model }) (fun _ => rfl)
      simp only [Except.bind, Request.conclude, Catalog.Yields, Catalog.serve, hrevise,
        Catalog.revise, getElem?_catalog, he, Option.map_some]
    · rfl
  | unpublish id =>
    have herase : (({ r with entries := r.entries.erase id } : MemoryRegistry).announce).catalog =
        r.catalog.erase id := catalog_erase r id
    simp only [perform, herase]
    split
    · rename_i hc
      simp only [Except.bind, Request.conclude, Catalog.Yields, Catalog.serve,
        if_pos (mem_catalog.mpr hc)]
    · rename_i hc
      exact Catalog.erase_eq_self fun h => hc (mem_catalog.mp h)
  | list id =>
    simp only [perform, Except.bind]
    cases he : r.entries[id]? with
    | none => rfl
    | some e =>
      simp only [Option.map_some, Option.toList_some, Request.conclude, Catalog.Yields,
        Catalog.serve, getElem?_catalog, he]
  | listAll =>
    simp only [perform, Except.bind, Request.conclude, Catalog.Yields, Catalog.serve,
      values_entries]
  | stats id =>
    simp only [perform]
    cases he : r.entries[id]? with
    | none => rfl
    | some e =>
      simp only [Except.bind, Request.conclude, Catalog.Yields, Catalog.serve, getElem?_catalog, he,
        Option.map_some]
      rfl

theorem catalog_begin (r : MemoryRegistry) (link : Link) :
    (r.begin link).1.catalog = r.catalog := by
  obtain ⟨callFailures, h⟩ := r.begin_eq link
  rw [h]
  rfl

theorem yields_request (r : MemoryRegistry) (link : Link) (q : Request) :
    Catalog.Yields q ((r.request link q).2.bind q.conclude) r.catalog
      (r.request link q).1.catalog := by
  have hbegin := r.catalog_begin link
  unfold request
  cases hb : r.begin link with
  | mk r' result =>
    rw [hb] at hbegin
    cases result with
    | ok => exact hbegin ▸ r'.yields_perform q
    | error e => exact hbegin

theorem catalog_close (r : MemoryRegistry) (link : Link) : (r.close link).catalog = r.catalog := by
  unfold close
  split
  · split <;> rfl
  · rfl

theorem catalog_connect (r : MemoryRegistry) : r.connect.1.catalog = r.catalog := by
  unfold connect
  split <;> rfl

theorem catalog_watch (r : MemoryRegistry) (caller : Nat) (link : Link) (model : ModelId)
    (c : Cursor) : (r.watch caller link model c).1.catalog = r.catalog := by
  have hbegin : ((r.present model c).begin link).1.catalog = r.catalog :=
    (r.present model c).catalog_begin link
  unfold watch
  cases hb : (r.present model c).begin link with
  | mk r' result =>
    rw [hb] at hbegin
    cases result with
    | error e => exact hbegin
    | ok =>
      simp only
      split <;> exact hbegin

theorem catalog_lookAgain (r : MemoryRegistry) (caller : Nat) :
    (r.lookAgain caller).1.catalog = r.catalog := by
  unfold lookAgain
  split
  · rfl
  · simp only
    split <;> rfl

theorem catalog_ask (r : MemoryRegistry) (now caller : Nat) {q : Query}
    (h : ∀ link request, q ≠ .request link request) :
    (r.ask now caller q).1.catalog = r.catalog := by
  cases q with
  | request link request => exact absurd rfl (h link request)
  | watch link model c =>
    have hwatch := r.catalog_watch caller link model c
    simp only [ask]
    generalize r.watch caller link model c = answered at hwatch ⊢
    obtain ⟨r', _ | reply⟩ := answered
    · exact hwatch
    · exact hwatch
  | _ => rfl

theorem catalog_poll (r : MemoryRegistry) (now caller : Nat) (f : Flight) :
    (r.poll now caller f).1.catalog = r.catalog := by
  cases f with
  | held =>
    simp only [poll]
    split
    · rfl
    · exact r.catalog_connect
  | parked => exact r.catalog_lookAgain caller
  | _ => rfl

end MemoryRegistry

end ModelRegistry
