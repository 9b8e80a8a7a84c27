import HeadDriven.Proofs.Chart.Trim
import HeadDriven.Proofs.Outcome

/-! The standing of offers. Which offers a group holds can be told from the offers alone:
under each key the earliest of the best scores leads, the leaders within the beam of the best
score are ranked, and the first of them hold the places. The entries of a group are these,
whatever the order of the offers and whatever was cut off in between. -/
namespace HeadDriven

open LogProb

/-- An offer among those made to a group, with its place in their order. -/
structure Offer where
  score : Float
  key : Key
  time : Nat
  deriving DecidableEq, Repr

namespace Offer

/-- Whether an offer ranks no later than another. -/
def precedes (a b : Offer) : Bool :=
  decide (b.score ≤ a.score) && (!decide (a.score ≤ b.score) || decide (a.time ≤ b.time))

/-- Whether an offer is the earliest of the best under its key. -/
def leads (a : Offer) (offers : List Offer) : Bool :=
  offers.all fun b => b.key ≠ a.key ||
    (decide (b.score ≤ a.score) && (decide (a.time ≤ b.time) || decide (b.score < a.score)))

end Offer

def contest (offers : List (Float × Key)) : List Offer :=
  offers.zipIdx.map fun ((score, key), time) => ⟨score, key, time⟩

def champions (offers : List (Float × Key)) : List Offer :=
  (contest offers).filter (·.leads (contest offers))

/-- Whether a score is within the beam of the best score that is offered. -/
def withinBeam (offers : List (Float × Key)) (beam score : Float) : Bool :=
  (offers.map Prod.fst).max?.any fun top => decide (top - beam ≤ score)

def contenders (offers : List (Float × Key)) (beam : Float) : List Offer :=
  (champions offers).filter fun o => withinBeam offers beam o.score

/-- The offers that hold the places of a group, best first. -/
def standing (offers : List (Float × Key)) (beam : Float) (cap : Nat) : List Offer :=
  ((contenders offers beam).mergeSort Offer.precedes).take cap

section Sorting

variable {α : Type} {r : α → α → Prop} {ranked places : List α} {cap : Nat}

/-- The first elements of a sorted list are those before which no other element stands. -/
theorem take_eq_of_pairwise [DecidableEq α]
    (antisymm : ∀ a ∈ ranked, ∀ b ∈ ranked, r a b → r b a → a = b)
    (sorted : ranked.Pairwise r)
    (nodup : ranked.Nodup) (ordered : places.Pairwise r) (distinct : places.Nodup)
    (mem : ∀ p ∈ places, p ∈ ranked) (capped : places.length ≤ cap)
    (others : ∀ a ∈ ranked, a ∈ places ∨ cap ≤ places.length ∧ ∀ p ∈ places, r p a) :
    ranked.take cap = places := by
  have apart : (places ++ ranked.filter (· ∉ places)).Nodup := by
    refine List.nodup_append'.mpr ⟨distinct, nodup.filter _, fun a ha ha' => ?_⟩
    simpa [ha] using List.of_mem_filter ha'
  have shared : ranked.Perm (places ++ ranked.filter (· ∉ places)) := by
    refine (List.perm_ext_iff_of_nodup nodup apart).mpr fun a => ?_
    rw [List.mem_append, List.mem_filter, decide_eq_true_eq]
    exact ⟨fun ha => (Decidable.em (a ∈ places)).imp_right fun hn => ⟨ha, hn⟩,
      fun ha => ha.elim (mem a) And.left⟩
  -- The places and then the others are sorted too, and sorted rows of the same offers agree.
  have whole : ranked = places ++ ranked.filter (· ∉ places) := by
    refine shared.eq_of_pairwise
      (fun a b ha hb => antisymm a ha b (shared.mem_iff.mpr hb)) sorted ?_
    refine List.pairwise_append.mpr ⟨ordered, sorted.sublist List.filter_sublist, ?_⟩
    intro p hp a ha
    have habsent : a ∉ places := by simpa using List.of_mem_filter ha
    exact ((others a (List.mem_of_mem_filter ha)).resolve_left habsent).2 p hp
  cases hrest : ranked.filter (· ∉ places) with
  | nil =>
    rw [hrest, List.append_nil] at whole
    rw [whole, List.take_of_length_le capped]
  | cons a rest =>
    have ha : a ∈ ranked.filter (· ∉ places) := hrest ▸ List.mem_cons_self
    have habsent : a ∉ places := by simpa using List.of_mem_filter ha
    have full := ((others a (List.mem_of_mem_filter ha)).resolve_left habsent).1
    rw [whole, Nat.le_antisymm full capped, List.take_left]

theorem filter_prefix_of_pairwise {p : α → Bool} (sorted : ranked.Pairwise r)
    (along : ∀ a b, r a b → p b = true → p a = true) : ranked.filter p <+: ranked := by
  induction ranked with
  | nil => exact List.nil_prefix
  | cons a l ih =>
    rw [List.pairwise_cons] at sorted
    cases ha : p a with
    | true =>
      rw [List.filter_cons_of_pos ha]
      exact List.cons_prefix_cons.mpr ⟨rfl, ih sorted.2⟩
    | false =>
      have none : l.filter p = [] := List.filter_eq_nil_iff.mpr fun b hb hpb => by
        have := along a b (sorted.1 b hb) hpb
        rw [ha] at this
        cases this
      rw [List.filter_cons_of_neg (by simp [ha]), none]
      exact List.nil_prefix

end Sorting

section Precedence

variable {a b : Offer} {l : List Offer}

theorem Offer.precedes_iff : a.precedes b = true ↔
    b.score ≤ a.score ∧ (a.score ≤ b.score → a.time ≤ b.time) := by
  simp only [precedes, Bool.and_eq_true, Bool.or_eq_true, Bool.not_eq_true', decide_eq_true_eq,
    decide_eq_false_iff_not]
  tauto

theorem Offer.leads_iff {offers : List Offer} : a.leads offers = true ↔ ∀ b ∈ offers,
    b.key = a.key → b.score ≤ a.score ∧ (a.time ≤ b.time ∨ b.score < a.score) := by
  simp only [leads, List.all_eq_true, Bool.or_eq_true, Bool.and_eq_true, decide_eq_true_eq,
    ne_eq, imp_iff_not_or]

/-- Offers with scores that are numbers are ranked as pairs of numbers are. -/
theorem pairwise_mergeSort_precedes (numbers : ∀ o ∈ l, o.score.isNaN = false) :
    (l.mergeSort Offer.precedes).Pairwise fun a b => a.precedes b = true := by
  -- Sorting needs a total order, which precedence is only away from NaN: it is one on ranks.
  let f : Offer → Int × Nat := fun o => (rank o.score, o.time)
  let le : Int × Nat → Int × Nat → Bool := fun p q =>
    decide (q.1 < p.1 ∨ q.1 = p.1 ∧ p.2 ≤ q.2)
  have same : ∀ a ∈ l, ∀ b ∈ l, a.precedes b = le (f a) (f b) := by
    intro a ha b hb
    rw [Bool.eq_iff_iff, Offer.precedes_iff, le_iff_rank (numbers b hb) (numbers a ha),
      le_iff_rank (numbers a ha) (numbers b hb), decide_eq_true_eq]
    simp only [f]
    omega
  have sorted : ((l.map f).mergeSort le).Pairwise fun p q => le p q = true := by
    refine List.pairwise_mergeSort (fun p q t hpq hqt => ?_) (fun p q => ?_) _
    · simp only [le, decide_eq_true_eq] at hpq hqt ⊢
      omega
    · simp only [le, Bool.or_eq_true, decide_eq_true_eq]
      omega
  rw [← List.map_mergeSort same, List.pairwise_map] at sorted
  refine sorted.imp_of_mem fun ha hb hle => ?_
  rw [same _ ((List.mergeSort_perm _ _).mem_iff.mp ha) _ ((List.mergeSort_perm _ _).mem_iff.mp hb)]
  exact hle

end Precedence

section Best

variable {l : List Float} {x y top : Float}

theorem max_spec (hx : x.isNaN = false) (hy : y.isNaN = false) :
    (max x y = x ∨ max x y = y) ∧ x ≤ max x y ∧ y ≤ max x y := by
  have value : max x y = if x ≤ y then y else x := rfl
  rw [value]
  split
  · rename_i hle
    exact ⟨Or.inr rfl, hle, numbers_le_refl hy⟩
  · rename_i hgt
    exact ⟨Or.inl rfl, numbers_le_refl hx, le_of_lt ((not_le_iff_lt hx hy).mp hgt)⟩

theorem max?_spec (numbers : ∀ x ∈ l, x.isNaN = false) (h : l.max? = some top) :
    top ∈ l ∧ ∀ x ∈ l, x ≤ top := by
  cases l with
  | nil => cases h
  | cons a l =>
    rw [List.max?_cons', Option.some.injEq] at h
    subst h
    induction l generalizing a with
    | nil => simpa using numbers_le_refl (numbers a List.mem_cons_self)
    | cons b l ih =>
      have hmax := max_spec (numbers a (by simp)) (numbers b (by simp))
      have hnumber : (max a b).isNaN = false := by
        rcases hmax.1 with h | h <;> rw [h] <;> exact numbers _ (by simp)
      obtain ⟨hmem, hle⟩ := ih (max a b) (by
        simp only [List.mem_cons] at numbers ⊢
        rintro x (rfl | hx)
        · exact hnumber
        · exact numbers x (Or.inr (Or.inr hx)))
      rw [List.foldl_cons]
      refine ⟨?_, ?_⟩
      · rcases List.mem_cons.mp hmem with h | h
        · rw [h]
          rcases hmax.1 with h | h <;> simp [h]
        · simp [h]
      · have hfirst := hle (max a b) List.mem_cons_self
        simp only [List.mem_cons]
        rintro x (rfl | rfl | hx)
        · exact numbers_le_trans hmax.2.1 hfirst
        · exact numbers_le_trans hmax.2.2 hfirst
        · exact hle x (List.mem_cons_of_mem _ hx)

end Best

section Contest

variable {offers : List (Float × Key)} {p : Float × Key} {o : Offer}
  {beam narrow : Float} {cap : Nat}

theorem mem_contest_iff : o ∈ contest offers ↔ offers[o.time]? = some (o.score, o.key) := by
  obtain ⟨score, key, time⟩ := o
  simp only [contest, List.mem_map, Offer.mk.injEq, Prod.exists, List.mem_zipIdx_iff_getElem?]
  constructor
  · rintro ⟨_, _, _, h, rfl, rfl, rfl⟩
    exact h
  · exact fun h => ⟨_, _, _, h, rfl, rfl, rfl⟩

theorem nodup_contest (offers : List (Float × Key)) : ((contest offers).map Offer.time).Nodup := by
  have times : (contest offers).map Offer.time = List.range' 0 offers.length := by
    rw [contest, List.map_map, ← List.zipIdx_map_snd 0 offers]
    rfl
  rw [times]
  exact List.nodup_range'

theorem exists_top (numbers : ∀ p ∈ offers, p.1.isNaN = false) (hp : p ∈ offers) :
    ∃ top ∈ offers, (∀ q ∈ offers, q.1 ≤ top.1) ∧
      ∀ beam score, withinBeam offers beam score = true ↔ top.1 - beam ≤ score := by
  cases hmax : (offers.map Prod.fst).max? with
  | none =>
    rw [List.max?_eq_none_iff, List.map_eq_nil_iff] at hmax
    exact absurd (hmax ▸ hp) List.not_mem_nil
  | some score =>
    obtain ⟨hmem, hle⟩ := max?_spec (List.forall_mem_map.mpr numbers) hmax
    obtain ⟨top, htop, rfl⟩ := List.mem_map.mp hmem
    refine ⟨top, htop, fun q hq => hle q.1 (List.mem_map_of_mem hq), fun beam score => ?_⟩
    rw [withinBeam, hmax, Option.any_some, decide_eq_true_eq]

theorem mem_contenders_iff : o ∈ contenders offers beam ↔
    offers[o.time]? = some (o.score, o.key) ∧ o.leads (contest offers) = true ∧
      withinBeam offers beam o.score = true := by
  rw [contenders, champions, List.mem_filter, List.mem_filter, mem_contest_iff, and_assoc]

theorem contenders_sublist (offers : List (Float × Key)) (beam : Float) :
    (contenders offers beam).Sublist (contest offers) :=
  List.filter_sublist.trans List.filter_sublist

theorem ranked_contenders (numbers : ∀ p ∈ offers, p.1.isNaN = false) (beam : Float) :
    ((contenders offers beam).mergeSort Offer.precedes).Pairwise (fun a b => a.precedes b = true) ∧
      ((contenders offers beam).mergeSort Offer.precedes).Nodup := by
  refine ⟨pairwise_mergeSort_precedes fun o ho => ?_, ?_⟩
  · exact numbers (o.score, o.key) (List.mem_of_getElem? (mem_contenders_iff.mp ho).1)
  · have distinct : (contest offers).Nodup := List.Nodup.of_map Offer.time (nodup_contest offers)
    exact (List.mergeSort_perm (contenders offers beam) Offer.precedes).nodup_iff.mpr
      (distinct.sublist (contenders_sublist offers beam))

theorem eq_of_time {a b : Offer} (ha : a ∈ contest offers) (hb : b ∈ contest offers)
    (h : a.time = b.time) : a = b :=
  List.inj_on_of_nodup_map (nodup_contest offers) ha hb h

theorem eq_of_precedes {a b : Offer} (ha : a ∈ contest offers) (hb : b ∈ contest offers)
    (hab : a.precedes b = true) (hba : b.precedes a = true) : a = b := by
  rw [Offer.precedes_iff] at hab hba
  exact eq_of_time ha hb (Nat.le_antisymm (hab.2 hba.1) (hba.2 hab.1))

/-- A narrower beam leaves a prefix of the offers that a wider one leaves. -/
theorem standing_prefix (bounded : ∀ p ∈ offers, Bounded p.1) (hnarrow : 0.0 ≤ narrow)
    (hbeam : 0.0 ≤ beam) (h : narrow ≤ beam) (cap : Nat) :
    standing offers narrow cap <+: standing offers beam cap := by
  have numbers := fun p hp => (bounded p hp).number
  rcases List.eq_nil_or_concat offers with rfl | ⟨_, p, hlast⟩
  · have none (beam : Float) : standing [] beam cap = [] := by
      simp [standing, contenders, champions, contest]
    rw [none, none]
  obtain ⟨top, htop, -, within⟩ := exists_top numbers (p := p) (by simp [hlast])
  have widens (score : Float) (hs : withinBeam offers narrow score = true) :
      withinBeam offers beam score = true := by
    rw [within] at hs ⊢
    have bounded := bounded top htop
    exact numbers_le_trans (bounded.sub_le_sub bounded hnarrow hbeam
      (numbers_le_refl bounded.number) h) hs
  have nested : contenders offers narrow =
      (contenders offers beam).filter fun o => withinBeam offers narrow o.score := by
    rw [contenders, contenders, List.filter_filter]
    refine List.filter_congr fun o _ => ?_
    cases hs : withinBeam offers narrow o.score with
    | false => rfl
    | true => rw [widens _ hs, Bool.true_and]
  obtain ⟨sorted, -⟩ := ranked_contenders numbers beam
  obtain ⟨sorted', -⟩ := ranked_contenders numbers narrow
  -- Both rankings are sorted, so the narrow one is what is left of the wide one.
  have same : (contenders offers narrow).mergeSort Offer.precedes =
      ((contenders offers beam).mergeSort Offer.precedes).filter
        fun o => withinBeam offers narrow o.score := by
    refine List.Perm.eq_of_pairwise (fun a b ha hb => ?_) sorted'
      (sorted.sublist List.filter_sublist) ?_
    · refine eq_of_precedes ((contenders_sublist offers narrow).subset ?_)
        ((contenders_sublist offers beam).subset ?_)
      · exact (List.mergeSort_perm _ _).mem_iff.mp ha
      · exact (List.mergeSort_perm _ _).mem_iff.mp (List.mem_of_mem_filter hb)
    · rw [nested]
      exact (List.mergeSort_perm _ _).trans ((List.mergeSort_perm _ _).filter _).symm
  rw [standing, standing, same]
  refine List.IsPrefix.take (filter_prefix_of_pairwise sorted fun a b hab hb => ?_) cap
  rw [within] at hb ⊢
  exact numbers_le_trans hb (Offer.precedes_iff.mp hab).1

end Contest

def Entry.bid (e : Entry) : Float × Key := (e.score, e.key)

/-- An offer among others, with its place in their order. -/
def Entry.among (offers : List Entry) (e : Entry) : Offer := ⟨e.score, e.key, offers.idxOf e⟩

structure BeatsEarlier (offers : List Entry) (x : Entry) : Prop where
  made : x ∈ offers
  earlier : ∀ t o, t < offers.idxOf x → offers[t]? = some o → o.key = x.key → o.score < x.score

theorem BeatsEarlier.append {offers : List Entry} {x : Entry} (h : BeatsEarlier offers x)
    (more : List Entry) : BeatsEarlier (offers ++ more) x := by
  refine ⟨List.mem_append_left more h.made, fun t o ht ho => ?_⟩
  rw [List.idxOf_append_of_mem h.made] at ht
  rw [List.getElem?_append_left (Nat.lt_trans ht (List.idxOf_lt_length_of_mem h.made))] at ho
  exact h.earlier t o ht ho

namespace LabelGroup

/-- A group after some offers. Each entry is an offer that beat all earlier ones of its key, and
of the offers that were made none has a place to come. -/
structure Contested (g : LabelGroup) (beam : Float) (cap : Nat) (offers : List Entry) : Prop
    extends g.Trim beam cap where
  scores : ∀ o ∈ offers, Bounded o.score
  arrivals : offers.Pairwise fun a b => a.index ≤ b.index
  offered : ∀ x ∈ g.entries, BeatsEarlier offers x
  settled : ∀ o ∈ offers, g.Settled beam cap o

variable {g : LabelGroup} {e o x : Entry} {beam score score' : Float} {key : Key} {cap : Nat}
  {offers : List Entry}

theorem contested_empty : empty.Contested beam cap [] where
  toTrim := trim_empty
  scores _ ho := absurd ho List.not_mem_nil
  arrivals := List.Pairwise.nil
  offered _ hx := absurd hx List.not_mem_nil
  settled _ ho := absurd ho List.not_mem_nil

theorem refuses_of_le (h : g.Distinct) (hle : score' ≤ score)
    (hrefuses : g.refuses beam cap score key = true) : g.refuses beam cap score' key = true := by
  rw [refuses_eq_true_iff h] at hrefuses ⊢
  rcases hrefuses with ⟨best, hbest, low⟩ | ⟨full, worst, hworst, hscore⟩ | ⟨x, hx, hkey, hscore⟩
  · exact Or.inl ⟨best, hbest, numbers_lt_of_le_of_lt hle low⟩
  · exact Or.inr (Or.inl ⟨full, worst, hworst, numbers_le_trans hle hscore⟩)
  · exact Or.inr (Or.inr ⟨x, hx, hkey, numbers_le_trans hle hscore⟩)

section Step

variable (h : g.Contested beam cap offers) (he : Bounded e.score)
  (later : ∀ o ∈ offers, o.index ≤ e.index) (fresh : ∀ x ∈ g.entries, x.index < e.index)

include h later in
theorem Contested.arrivals_append : (offers ++ [e]).Pairwise fun a b => a.index ≤ b.index :=
  List.pairwise_append.mpr ⟨h.arrivals, List.pairwise_singleton _ _, by simpa using later⟩

include h he later fresh in
theorem Contested.refused (closes : g.refuses beam cap e.score e.key = true) :
    g.Contested beam cap (offers ++ [e]) where
  toTrim := h.toTrim
  scores := List.forall_mem_append.mpr ⟨h.scores, List.forall_mem_singleton.mpr he⟩
  arrivals := h.arrivals_append later
  offered x hx := (h.offered x hx).append [e]
  settled := List.forall_mem_append.mpr ⟨h.settled, List.forall_mem_singleton.mpr
    (h.settled_of_refuses closes fresh)⟩

include h he in
theorem Contested.beatsEarlier (hcap : 1 ≤ cap)
    (opens : g.refuses beam cap e.score e.key = false) :
    BeatsEarlier (offers ++ [e]) e := by
  have place : (offers ++ [e]).idxOf e ≤ offers.length := by
    rw [List.idxOf_append]
    split
    · exact List.idxOf_le_length
    · simp
  refine ⟨List.mem_append_right _ (List.mem_singleton_self e), fun t o ht ho hkey => ?_⟩
  rw [List.getElem?_append_left (Nat.lt_of_lt_of_le ht place)] at ho
  have hmem := List.mem_of_getElem? ho
  have closed := h.refuses_of_settled (h.scores o hmem) hcap (h.settled o hmem)
  refine (not_le_iff_lt he.number (h.scores o hmem).number).mp fun hle => ?_
  rw [← hkey, refuses_of_le h.toDistinct hle closed] at opens
  cases opens

include h he later fresh in
theorem Contested.accept (hbeam : 0.0 ≤ beam) (hcap : 1 ≤ cap)
    (opens : g.refuses beam cap e.score e.key = false) :
    (g.accept beam cap e).1.Contested beam cap (offers ++ [e]) where
  toTrim := h.toTrim.accept he fresh hbeam hcap
  scores := List.forall_mem_append.mpr ⟨h.scores, List.forall_mem_singleton.mpr he⟩
  arrivals := h.arrivals_append later
  offered x hx := by
    have accepted : g.Accepted (g.accept beam cap e).1 (g.accept beam cap e).2 e :=
      accepted_accept h.toDistinct fun x hx => Nat.ne_of_lt (fresh x hx)
    rcases accepted.mem x hx with rfl | ⟨hold, -⟩
    · exact h.beatsEarlier he hcap opens
    · exact (h.offered x hold).append [e]
  settled := List.forall_mem_append.mpr
    ⟨fun o ho => h.settled_accept he fresh hbeam hcap opens (h.scores o ho) (h.settled o ho),
      List.forall_mem_singleton.mpr (h.settled_self he fresh hbeam hcap)⟩

end Step

section Reading

variable (h : g.Contested beam cap offers) (hbeam : 0.0 ≤ beam)

include h in
theorem Contested.numbers : ∀ p ∈ offers.map Entry.bid, p.1.isNaN = false := by
  intro p hp
  obtain ⟨o, ho, rfl⟩ := List.mem_map.mp hp
  exact (h.scores o ho).number

include h in
theorem Contested.le_entry (ho : o ∈ offers) (hx : x ∈ g.entries)
    (which : x ∈ g.best? ∨ x.key = o.key) : o.score ≤ x.score := by
  cases h.settled o ho with
  | below best hbest low => exact numbers_le_trans (le_of_lt low) (h.within best hbest x hx)
  | crowded _ behind => exact (behind x hx).1
  | held y hy hkey front =>
    have held : o.score ≤ y.score := by
      rcases front with rfl | before
      · exact numbers_le_refl (h.scores y ho).number
      · exact before.1
    rcases which with hbest | same
    · exact numbers_le_trans held (le_best? h.bounded h.ordered hbest hy)
    · rwa [h.eq_of_key hy hx (hkey.trans same.symm)] at held

theorem mem_contest_bids {a : Offer} (ha : a ∈ contest (offers.map Entry.bid)) :
    ∃ o ∈ offers, offers[a.time]? = some o ∧ o.score = a.score ∧ o.key = a.key := by
  rw [mem_contest_iff, List.getElem?_map, Option.map_eq_some_iff] at ha
  obtain ⟨o, ho, hbid⟩ := ha
  exact ⟨o, List.mem_of_getElem? ho, ho, congrArg Prod.fst hbid, congrArg Prod.snd hbid⟩

include h in
theorem Contested.leads (hx : x ∈ g.entries) :
    x.among offers ∈ contest (offers.map Entry.bid) ∧
      (x.among offers).leads (contest (offers.map Entry.bid)) = true := by
  have beats := h.offered x hx
  constructor
  · rw [mem_contest_iff, Entry.among, List.getElem?_map, List.getElem?_idxOf beats.made]
    rfl
  · rw [Offer.leads_iff]
    intro b hb same
    obtain ⟨o, ho, htime, hscore, hkey⟩ := mem_contest_bids hb
    refine ⟨hscore ▸ h.le_entry ho hx (Or.inr (same.symm.trans hkey.symm)), ?_⟩
    rcases Nat.lt_or_ge b.time (offers.idxOf x) with hlt | hge
    · exact Or.inr (hscore ▸ beats.earlier _ o hlt htime (hkey.trans same))
    · exact Or.inl hge

include h in
theorem Contested.time_lt {a b : Entry} {i j : Nat} (ha : offers[i]? = some a)
    (hb : offers[j]? = some b) (hindex : a.index < b.index) : i < j := by
  obtain ⟨hi, rfl⟩ := List.getElem?_eq_some_iff.mp ha
  obtain ⟨hj, rfl⟩ := List.getElem?_eq_some_iff.mp hb
  rcases Nat.lt_trichotomy i j with hlt | rfl | hgt
  · exact hlt
  · exact absurd hindex (Nat.lt_irrefl _)
  · exact absurd hindex (Nat.not_lt.mpr (List.pairwise_iff_getElem.mp h.arrivals j i hj hi hgt))

include h in
theorem Contested.precedes {a : Offer} (hx : x ∈ g.entries) (ho : offers[a.time]? = some o)
    (score : o.score = a.score) (before : x.Before o) :
    (x.among offers).precedes a = true := by
  refine Offer.precedes_iff.mpr ⟨score ▸ before.1, fun tie => Nat.le_of_lt ?_⟩
  exact h.time_lt (List.getElem?_idxOf (h.offered x hx).made) ho
    (before.2 (score ▸ tie))

theorem eq_of_leads {bids : List (Float × Key)} {a b : Offer} (ha : a ∈ contest bids)
    (hb : b ∈ contest bids) (leads : a.leads (contest bids) = true)
    (leads' : b.leads (contest bids) = true) (same : a.key = b.key) : a = b := by
  obtain ⟨hle, htime⟩ := Offer.leads_iff.mp leads b hb same.symm
  obtain ⟨hle', htime'⟩ := Offer.leads_iff.mp leads' a ha same
  have stands {x y : Float} (hle : y ≤ x) : ¬x < y :=  fun hlt =>
    (not_le_iff_lt (numbers_of_lt hlt).2 (numbers_of_lt hlt).1).mpr hlt hle
  exact eq_of_time ha hb (Nat.le_antisymm (htime.resolve_right (stands hle'))
    (htime'.resolve_right (stands hle)))

include h hbeam in
theorem Contested.withinBeam_iff {best : Entry} (hbest : best ∈ g.best?) (score : Float) :
    withinBeam (offers.map Entry.bid) beam score = true ↔ best.score - beam ≤ score := by
  have made := (h.offered best (mem_of_best? hbest)).made
  obtain ⟨top, htop, highest, within⟩ := exists_top h.numbers (List.mem_map_of_mem made)
  obtain ⟨o, ho, rfl⟩ := List.mem_map.mp htop
  have up : o.score ≤ best.score := h.le_entry ho (mem_of_best? hbest) (Or.inl hbest)
  have down : best.score ≤ o.score := highest best.bid (List.mem_map_of_mem made)
  have width := numbers_le_refl (numbers_of_le hbeam).2
  have bounded := h.scores o ho
  have bounded' := h.scores best made
  rw [within]
  exact ⟨fun hle => numbers_le_trans (bounded'.sub_le_sub bounded hbeam hbeam down width) hle,
    fun hle => numbers_le_trans (bounded.sub_le_sub bounded' hbeam hbeam up width) hle⟩

include h hbeam in
theorem Contested.others {a : Offer} (ha : a ∈ contenders (offers.map Entry.bid) beam) :
    a ∈ g.entries.map (Entry.among offers) ∨
      cap ≤ g.size ∧ ∀ x ∈ g.entries, (x.among offers).precedes a = true := by
  obtain ⟨-, leads, within⟩ := mem_contenders_iff.mp ha
  have made := (contenders_sublist _ _).subset ha
  obtain ⟨o, ho, htime, hscore, hkey⟩ := mem_contest_bids made
  cases h.settled o ho with
  | below best hbest low =>
    rw [h.withinBeam_iff hbeam hbest, ← hscore] at within
    have number := (numbers_of_lt low)
    exact absurd within ((not_le_iff_lt number.2 number.1).mpr low)
  | crowded full behind =>
    exact Or.inr ⟨full, fun x hx => h.precedes hx htime hscore (behind x hx)⟩
  | held x hx hkey' =>
    obtain ⟨made', leads'⟩ := h.leads hx
    refine Or.inl (List.mem_map.mpr ⟨x, hx, ?_⟩)
    exact eq_of_leads made' made leads' leads (hkey'.trans hkey)

include h hbeam in
theorem Contested.entries_among : g.entries.map (Entry.among offers) =
    standing (offers.map Entry.bid) beam cap := by
  obtain ⟨sorted, distinct⟩ := ranked_contenders h.numbers beam
  have mem {a : Offer} : a ∈ (contenders (offers.map Entry.bid) beam).mergeSort Offer.precedes ↔
      a ∈ contenders (offers.map Entry.bid) beam := (List.mergeSort_perm _ _).mem_iff
  have made {x : Entry} (hx : x ∈ g.entries) : offers[(x.among offers).time]? = some x :=
    List.getElem?_idxOf (h.offered x hx).made
  symm
  refine take_eq_of_pairwise (fun a ha b hb => ?_) sorted distinct ?_ ?_ ?_ ?_ fun a ha => ?_
  · exact eq_of_precedes ((contenders_sublist _ _).subset (mem.mp ha))
      ((contenders_sublist _ _).subset (mem.mp hb))
  · rw [List.pairwise_map]
    exact h.ordered.imp_of_mem fun hx hy before => h.precedes hx (made hy) rfl before
  · refine List.Nodup.of_map Offer.key ?_
    rw [List.map_map]
    exact h.keys
  · rw [List.forall_mem_map]
    intro x hx
    obtain ⟨best, hbest⟩ := exists_best? hx
    obtain ⟨offered, leads⟩ := h.leads hx
    refine mem.mpr (mem_contenders_iff.mpr ⟨mem_contest_iff.mp offered, leads, ?_⟩)
    exact (h.withinBeam_iff hbeam hbest _).mpr (h.within best hbest x hx)
  · rw [List.length_map]
    exact h.capped
  · rw [List.length_map, List.forall_mem_map]
    exact h.others hbeam (mem.mp ha)

include h hbeam in
/-- The entries of a group are the offers that hold its places. -/
theorem Contested.entries_eq : g.entries.map some =
    (standing (offers.map Entry.bid) beam cap).map fun o => offers[o.time]? := by
  rw [← h.entries_among hbeam, List.map_map]
  exact List.map_congr_left fun x hx => (List.getElem?_idxOf (h.offered x hx).made).symm

end Reading

end LabelGroup

end HeadDriven
