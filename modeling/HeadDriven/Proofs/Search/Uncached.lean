import HeadDriven.Search

/-! The search with all histories worked out afresh. It reads and offers the same items
as the search that takes histories from a cache, and threads no cache through. -/
namespace HeadDriven.Search

def attachments (s : Search) (g : Grammar) (side : Side) (heads modifiers : Nat × Nat) :
    Except Fault (List Trial) := do
  let heads ← s.live heads.1 heads.2 (·.canTake side)
  let heads ← heads.mapM s.modificand
  let modifiers ← s.live modifiers.1 modifiers.2 Item.stopped
  let modifiers ← modifiers.mapM (s.modifier g)
  return heads.flatMap fun m => modifiers.map fun d => g.attach m d side

def attachmentsAt (s : Search) (g : Grammar) (first split last : Nat) :
    Except Fault (List Trial) := do
  let toLeft ← s.attachments g .left (split + 1, last) (first, split)
  let toRight ← s.attachments g .right (first, split) (split + 1, last)
  return toLeft ++ toRight

def complete (s : Search) (g : Grammar) (commas : Array Bool) (first last : Nat) :
    Except Fault Search := do
  let trials ← (splits g commas first last).mapM fun split => s.attachmentsAt g first split last
  let (s, _) ← s.offerTrials g first last trials.flatten
  s.close g first last

def run (g : Grammar) (chart : Chart) (sentence : Sentence) : Except Fault Search := do
  let size := sentence.length
  let start : Search := ⟨chart.resized size, #[]⟩
  let seeded ← sentence.zipIdx.foldlM (fun s (token, position) => s.seed g position token) start
  let wide := (Chart.spans size).filter fun (first, last) => first < last
  let commas := g.commas sentence
  let filled ← wide.foldlM (fun s (first, last) => s.complete g commas first last) seeded
  filled.finish g (size - 1)

end HeadDriven.Search
