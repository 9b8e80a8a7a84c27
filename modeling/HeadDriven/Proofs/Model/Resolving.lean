import HeadDriven.Proofs.Frames

/-! Symbols and frames for names. A table gives symbols to its own names, and any symbols that it
does not know may stand for the others; then two names have one symbol only if the table knows
neither. So frames that are named alike are equal, and bags that are named in another order are
equal, too. -/
namespace HeadDriven

namespace SymbolTable

variable {t : SymbolTable} {sym : String → Symbol} {name other : String}
  {names others : List String}

/-- Symbols for all names. A name of the table has its own symbol, and any other name has one
that the table has not handed out. -/
structure Resolves (t : SymbolTable) (sym : String → Symbol) : Prop where
  known : ∀ name s, t.get? name = some s → sym name = s
  foreign : ∀ name, t.get? name = none → ¬t.Knows (sym name)

/-- Any foreign symbol may stand for all names that a table does not have. -/
theorem resolves_getD {foreign : Symbol} (h : ¬t.Knows foreign) :
    t.Resolves fun name => (t.get? name).getD foreign where
  known name s found := by rw [found, Option.getD_some]
  foreign name none := by rwa [none, Option.getD_none]

theorem Resolves.get? (h : t.Resolves sym) (known : t.Knows (sym name)) :
    t.get? name = some (sym name) := by
  cases found : t.get? name with
  | none => exact absurd known (h.foreign name found)
  | some s => rw [h.known name s found]

theorem Resolves.name? (h : t.Resolves sym) (known : t.Knows (sym name)) :
    t.name? (sym name) = some name := name?_of_get? (h.get? known)

theorem Resolves.eq_iff (h : t.Resolves sym) (known : t.Knows (sym name)) :
    sym other = sym name ↔ other = name := by
  refine ⟨fun same => ?_, fun same => same ▸ rfl⟩
  exact Option.some.inj ((h.name? (same ▸ known)).symm.trans (same ▸ h.name? known))

theorem Resolves.intern (h : (t.intern name).1.Resolves sym) :
    t.Resolves sym ∧ (t.intern name).2 = sym name := by
  refine ⟨⟨fun other s found => h.known other s (t.intern_extends name other s found), ?_⟩,
    (h.known name _ (t.get?_intern name)).symm⟩
  intro other none known
  have grown := h.get? (known.grows (t.intern_spec name).1)
  cases found : t.get? name with
  | some s =>
    rw [intern_of_get? found, none] at grown
    cases grown
  | none =>
    rw [intern_of_fresh found, get?_enter, none] at grown
    split at grown
    · rw [← Option.some.inj grown] at known
      exact absurd known (Nat.lt_irrefl _)
    · cases grown

theorem Resolves.internAll (h : (t.internAll names).1.Resolves sym) :
    t.Resolves sym ∧ (t.internAll names).2 = names.map sym := by
  induction names generalizing t with
  | nil => exact ⟨h, rfl⟩
  | cons name names ih =>
    obtain ⟨h, rest⟩ := ih h
    obtain ⟨h, first⟩ := h.intern
    exact ⟨h, congrArg₂ List.cons first rest⟩

theorem Resolves.filterMap_name? (h : t.Resolves sym)
    (known : ∀ name ∈ names, t.Knows (sym name)) : (names.map sym).filterMap t.name? = names := by
  induction names with
  | nil => rfl
  | cons name names ih =>
    obtain ⟨first, rest⟩ := List.forall_mem_cons.mp known
    rw [List.map_cons, List.filterMap_cons_some (h.name? first), ih rest]

end SymbolTable

def FrameKind.Same : FrameKind → List String → List String → Prop
  | .bag, names, others => names.Perm others
  | .list, names, others => names = others

instance : (kind : FrameKind) → (names others : List String) → Decidable (kind.Same names others)
  | .bag, names, others => inferInstanceAs (Decidable (names.Perm others))
  | .list, names, others => inferInstanceAs (Decidable (names = others))

namespace Frame

theorem ofList_bag_eq_iff {labels others : List Symbol} :
    ofList .bag labels = ofList .bag others ↔ labels.Perm others := by
  have made := ofList_recasts .bag ⟨.bag, labels⟩
  have made' := ofList_recasts .bag ⟨.bag, others⟩
  rw [(holds_ofList .bag labels).eq_iff (holds_ofList .bag others) made.kind made'.kind,
    Multiset.coe_eq_coe]
  constructor
  · exact fun perm => made.labels.trans (perm.trans made'.labels.symm)
  · exact fun perm => made.labels.symm.trans (perm.trans made'.labels)

def ofNames (kind : FrameKind) (sym : String → Symbol) (names : List String) : Frame :=
  ofList kind (names.map sym)

variable {symbols : SymbolTable} {kind : FrameKind} {sym : String → Symbol}
  {names others : List String}

theorem ofNames_eq_iff (h : symbols.Resolves sym)
    (known : ∀ name ∈ names, symbols.Knows (sym name)) :
    ofNames kind sym others = ofNames kind sym names ↔ kind.Same others names := by
  have back (perm : (others.map sym).Perm (names.map sym)) :
      (others.map sym).filterMap symbols.name? = others := by
    refine h.filterMap_name? fun name hname => ?_
    obtain ⟨name', hname', same⟩ :=
      List.mem_map.mp (perm.subset (List.mem_map_of_mem hname))
    exact same ▸ known name' hname'
  cases kind with
  | bag =>
    refine ofList_bag_eq_iff.trans ⟨fun perm => ?_, fun perm => perm.map sym⟩
    have := perm.filterMap symbols.name?
    rwa [back perm, h.filterMap_name? known] at this
  | list =>
    rw [ofNames, ofNames, ofList_list, ofList_list, Frame.mk.injEq]
    refine ⟨fun same => ?_, fun same => ⟨rfl, congrArg _ same⟩⟩
    rw [← back (.of_eq same.2), same.2, h.filterMap_name? known]
    rfl

end Frame

end HeadDriven
