import HeadDriven.Proofs.Model.Entering

/-! Names and ids. However names are entered into a symbol table, it lists each of them once, in
the order in which they first came, behind the sentinels. Its look-ups in both directions are
inverse to each other, and more names never change what it answers about those it has. -/
namespace HeadDriven.SymbolTable

open Model.Table (appendNew foldl_appendNew)

variable {t : SymbolTable} {name : String} {s : Symbol}

theorem name_eq_ok_iff : t.name s = .ok name ↔ t.name? s = some name := by
  unfold SymbolTable.name
  cases t.name? s <;> simp

theorem name_eq_error_iff : t.name s = .error .unknownSymbol ↔ t.size ≤ s.id := by
  have none_iff : t.name? s = none ↔ t.size ≤ s.id := Array.getElem?_eq_none_iff
  rw [← none_iff, SymbolTable.name]
  cases t.name? s <;> simp

theorem mem_names_iff : name ∈ t.names.toList ↔ ∃ s, t.get? name = some s := by
  simp only [get?_iff_name?, name?, Array.mem_toList_iff, Array.mem_iff_getElem?]
  exact ⟨fun ⟨id, found⟩ => ⟨⟨id⟩, found⟩, fun ⟨s, found⟩ => ⟨s.id, found⟩⟩

theorem names_intern (t : SymbolTable) (name : String) :
    (t.intern name).1.names.toList = appendNew t.names.toList name := by
  unfold appendNew
  cases found : t.get? name with
  | some s => rw [intern_of_get? found, if_pos (mem_names_iff.mpr ⟨s, found⟩)]
  | none =>
    have fresh : name ∉ t.names.toList := fun listed => by
      obtain ⟨s, found'⟩ := mem_names_iff.mp listed
      rw [found] at found'
      cases found'
    rw [intern_of_fresh found, if_neg fresh]
    exact Array.toList_push

theorem names_internAll (t : SymbolTable) (names : List String) :
    (t.internAll names).1.names.toList = names.foldl appendNew t.names.toList := by
  induction names generalizing t with
  | nil => rfl
  | cons name names ih =>
    rw [List.foldl_cons, ← names_intern]
    exact ih _

theorem names_eq_eraseDups (names : List String) :
    (empty.internAll names).1.names.toList = (sentinels ++ names).eraseDups := by
  rw [empty, ← internAll_append, names_internAll]
  exact foldl_appendNew (sentinels ++ names) []

theorem toList_names (t : SymbolTable) : t.toList.map Prod.snd = t.names.toList := by
  simp [toList, Function.comp_def]

theorem toList_ids (t : SymbolTable) : t.toList.map (·.1.id) = List.range t.size := by
  simp [toList, Function.comp_def, size, List.range_eq_range']

theorem mem_toList_iff : (s, name) ∈ t.toList ↔ t.get? name = some s := by
  have zipped : (name, s.id) ∈ t.names.toList.zipIdx ↔ t.name? s = some name := by
    rw [List.mem_zipIdx_iff_getElem?, Array.getElem?_toList, name?]
  rw [get?_iff_name?, ← zipped, toList, List.mem_map]
  constructor
  · rintro ⟨⟨name', id⟩, listed, same⟩
    cases same
    exact listed
  · exact fun listed => ⟨(name, s.id), listed, rfl⟩

theorem toList_intern_of_fresh (fresh : t.get? name = none) :
    (t.intern name).1.toList = t.toList ++ [(⟨t.size⟩, name)] := by
  rw [intern_of_fresh fresh]
  simp [toList, enter, size, List.zipIdx_append]

/-- Names and ids correspond. Whatever is entered, the names that were entered or are sentinels
have the ids below the size of the table, and looking up a name and looking up an id are inverse.
A name that is there is entered without effect, a new one gets the next id, and later names leave
both look-ups as they were; of the other ids none has a name. All pairs are listed once, by id. -/
theorem names_and_ids_correspond (names : List String) :
    let t := (empty.internAll names).1
    let distinct := (sentinels ++ names).eraseDups
    (∀ name s, t.get? name = some s ↔ t.name s = .ok name) ∧
    (∀ name, (∃ s, t.get? name = some s) ↔ name ∈ sentinels ++ names) ∧
    (∀ s, (∃ name, t.name s = .ok name) ↔ s.id < t.size) ∧
    (∀ s, t.name s = .error .unknownSymbol ↔ t.size ≤ s.id) ∧
    sentinels.map t.get? =
      [some Symbol.start, some Symbol.stop, some Symbol.top, some Symbol.unknown] ∧
    (t.size = distinct.length ∧
      (distinct.length ≤ 2 ^ 32 → ∀ name s, t.get? name = some s → s.id < 2 ^ 32)) ∧
    (∀ name s, t.get? name = some s → t.intern name = (t, s)) ∧
    (∀ name, t.get? name = none → (t.intern name).2 = ⟨t.size⟩ ∧
      (t.intern name).1.toList = t.toList ++ [(⟨t.size⟩, name)]) ∧
    (∀ later, let u := (t.internAll later).1
      (∀ name s, t.get? name = some s → u.get? name = some s) ∧
        ∀ s name, t.name s = .ok name → u.name s = .ok name) ∧
    t.toList.map (·.1.id) = List.range t.size ∧ t.toList.map Prod.snd = distinct ∧
    ∀ s name, (s, name) ∈ t.toList ↔ t.get? name = some s := by
  intro t distinct
  have listed : t.names.toList = distinct := names_eq_eraseDups names
  have inverse {u : SymbolTable} (name s) : u.get? name = some s ↔ u.name s = .ok name :=
    get?_iff_name?.trans name_eq_ok_iff.symm
  have size_eq : t.size = distinct.length := by rw [← listed, Array.length_toList, size]
  refine ⟨inverse, fun name => ?_, fun s => ?_, fun s => name_eq_error_iff, ?_,
    ⟨size_eq, fun few name s found => ?_⟩, fun name s => intern_of_get?, fun name fresh => ?_,
    fun later => ?_, t.toList_ids, t.toList_names.trans listed, fun s name => mem_toList_iff⟩
  · rw [← mem_names_iff, listed, List.mem_eraseDups]
  · refine ⟨fun named => ?_, Knows.name⟩
    obtain ⟨_, named⟩ := named
    exact knows_of_name named
  · have kept := internAll_extends empty names
    have first : sentinels.map empty.get? =
        [some Symbol.start, some Symbol.stop, some Symbol.top, some Symbol.unknown] := by
      decide +kernel
    simp only [sentinels, List.map_cons, List.map_nil, List.cons.injEq, and_true] at first ⊢
    exact ⟨kept _ _ first.1, kept _ _ first.2.1, kept _ _ first.2.2.1, kept _ _ first.2.2.2⟩
  · have known : s.id < t.size := knows_of_get? found
    omega
  · exact ⟨by rw [intern_of_fresh fresh], toList_intern_of_fresh fresh⟩
  · have kept := t.internAll_extends later
    exact ⟨kept, fun s name named => (inverse name s).mp (kept name s ((inverse name s).mpr named))⟩

example : (empty.internAll ["NP", "+TOP+", "VP", "NP"]).2 = [⟨4⟩, .top, ⟨5⟩, ⟨4⟩] := by
  decide +kernel

end HeadDriven.SymbolTable
