import HeadDriven.Proofs.Chart.Calls
import HeadDriven.Proofs.Chart.Offer

/-! Offers are made once. Of an item that has been offered to a chart nothing is gained by
offering it again, whatever has been taken and lost in between: it is turned away, and so is
whatever has its key and does no better. -/
namespace HeadDriven

def Offers.Includes (later offers : Offers) : Prop :=
  ∀ first last label, offers first last label ⊆ later first last label

namespace Chart

/-- A chart with the offers made to it, those of all stored items among them. -/
structure Entered (c : Chart) (language : Language) (offers : Offers) : Prop
    extends c.Kept language offers where
  consistent : c.Consistent language
  entered : ∀ index item, c.arena.built? index = some item →
    ⟨index, item.score, c.keyOf language item⟩ ∈ offers item.first item.last item.label

/-- An item for which there is an offer of its key and its score. -/
def Made (c : Chart) (language : Language) (offers : Offers) (item : Item) : Prop :=
  ∃ o ∈ offers item.first item.last item.label,
    o.key = c.keyOf language item ∧ o.score = item.score

variable {c next : Chart} {language : Language} {offers : Offers} {first last index : Nat}
  {label : Symbol} {item held other : Item} {taken : Option Nat} {e o : Entry}

theorem includes_enter : (offers.enter first last label e).Includes offers := by
  intro first' last' label' o h
  unfold Offers.enter
  split
  · exact List.mem_append_left _ h
  · exact h

theorem entered_resized (c : Chart) (language : Language) (size : Nat)
    (consistent : (c.resized size).Consistent language) :
    (c.resized size).Entered language fun _ _ _ => [] where
  toKept := kept_resized c language size
  consistent := consistent
  entered index item h := by
    rw [resized_eq] at h
    exact absurd (Arena.lt_size_of_built? h) (Nat.not_lt_zero _)

theorem Entered.turnsAway_of_made (entered : c.Entered language offers)
    (hcap : 1 ≤ c.settings.maxCellSize) (made : c.Made language offers held)
    (inside : c.Inside item.first item.last)
    (place : held.first = item.first ∧ held.last = item.last ∧ held.label = item.label)
    (key : c.keyOf language held = c.keyOf language item) (score : item.score ≤ held.score) :
    c.turnsAway language item = true := by
  obtain ⟨hfirst, hlast, hlabel⟩ := place
  obtain ⟨o, offered, okey, oscore⟩ := made
  rw [hfirst, hlast, hlabel] at offered
  have contested := entered.contested _ _ inside item.label
  have refused := contested.toTrim.refuses_of_settled (contested.scores o offered) hcap
    (contested.settled o offered)
  rw [okey, oscore, key] at refused
  exact LabelGroup.refuses_of_le contested.toDistinct score refused

theorem Entered.made_of_stored (entered : c.Entered language offers)
    (stored : c.arena.built? index = some held) : c.Made language offers held :=
  ⟨_, entered.entered index held stored, rfl, rfl⟩

theorem Entered.bounded (entered : c.Entered language offers) (made : c.Made language offers item)
    (inside : c.Inside item.first item.last) : LogProb.Bounded item.score := by
  obtain ⟨o, offered, -, score⟩ := made
  exact score ▸ (entered.contested _ _ inside _).scores o offered

theorem Made.grows {later : Offers} (made : c.Made language offers item) (grows : c.Grows next)
    (head : c.arena.HasHead item) (includes : later.Includes offers) :
    next.Made language later item := by
  obtain ⟨o, offered, key, score⟩ := made
  exact ⟨o, includes _ _ _ offered, key.trans (grows.keyOf head).symm, score⟩

/-- One more offer is entered, and if it is taken the new item has its offer. -/
theorem Entered.add (entered : c.Entered language offers) (hbeam : 0.0 ≤ c.settings.beamWidth)
    (hcap : 1 ≤ c.settings.maxCellSize) (fresh : item.garbage = false)
    (score : LogProb.Bounded item.score)
    (h : c.add language first last item = .ok (next, taken)) (consistent : next.Consistent language)
    (outcome : Outcome c language item next taken) :
    ∃ later : Offers, next.Entered language later ∧ later.Includes offers ∧
      next.Made language later item := by
  have linked := entered.consistent.linked
  obtain ⟨e, hentry, grows, kept⟩ := entered.offer hbeam hcap fresh score h
  obtain ⟨-, rfl, rfl, head⟩ := offered_of_ok h
  obtain ⟨known, arena, hkey, -⟩ := key_eq linked entered.consistent.remembers head
  rw [entryOf?, hkey, Option.some.injEq] at hentry
  have made : next.Made language (offers.enter item.first item.last item.label e) item := by
    refine ⟨e, ?_, ?_, ?_⟩
    · rw [enter_self]
      exact List.mem_append_right _ (List.mem_singleton_self e)
    · rw [grows.keyOf head, ← hentry]
    · rw [← hentry]
  refine ⟨_, ⟨kept, consistent, fun index held hbuilt => ?_⟩, includes_enter, made⟩
  by_cases hlt : index < c.arena.size
  · rw [grows.arena.built? index hlt] at hbuilt
    rw [grows.keyOf (linked.hasHead hbuilt)]
    exact includes_enter _ _ _ (entered.entered index held hbuilt)
  · -- What is stored beyond the chart before is the item, and its offer is the last one.
    have below := Arena.lt_size_of_built? hbuilt
    cases outcome with
    | refused refused =>
      rw [Arena.size, refused.items] at below
      exact absurd below hlt
    | taken taken =>
      rw [taken.size] at below
      obtain rfl : index = c.arena.size := by omega
      obtain rfl : item = held := Option.some.inj (taken.built.symm.trans hbuilt)
      rw [enter_self, grows.keyOf head, hentry]
      exact List.mem_append_right _ (List.mem_singleton_self e)

theorem Entered.turnsAway (entered : c.Entered language offers)
    (hcap : 1 ≤ c.settings.maxCellSize) (made : c.Made language offers item)
    (inside : c.Inside item.first item.last) : c.turnsAway language item = true :=
  entered.turnsAway_of_made hcap made inside ⟨rfl, rfl, rfl⟩ rfl
    (LogProb.numbers_le_refl (entered.bounded made inside).number)

end Chart

end HeadDriven
