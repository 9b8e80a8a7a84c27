import HeadDriven.Decoder
import HeadDriven.Proofs.Chart.Offer
import HeadDriven.Proofs.Search.Uncached

/-! A decode taken step by step. What is left to do stands on an agenda, and one
step does its first task, or one offer of it. No step counts rounds, so the steps
tell what holds throughout a decode even where a cell never settles. The search
passes through the same charts as the steps; where it fails, some step fails, or
the rounds of a cell are used up. -/
namespace HeadDriven.Search

inductive Next where
  | stop (frontier : List Nat)
  | round
  | close
  | nothing

inductive Task where
  | seed (position : Nat) (token : Token)
  | complete (first last : Nat)
  | finish (last : Nat)
  | close (first last : Nat)
  | round (first last : Nat) (frontier : List Nat)
  | stop (first last : Nat) (candidates : List Nat)
  | offers (first last : Nat) (items : List Item) (taken : List Nat) (next : Next)

structure Progress where
  search : Search
  agenda : List Task

def Next.tasks (first last : Nat) (taken : List Nat) : Next → List Task
  | .stop frontier => [.stop first last (frontier ++ taken)]
  | .round => [.round first last taken]
  | .close => [.close first last]
  | .nothing => []

def noting (s : Search) (trials : List Trial) : Search :=
  let asked := trials.foldl (fun asked trial => asked ++ trial.asked) s.asked
  { s with asked }

def Task.trials (first last : Nat) (trials : List Trial) (next : Next) : Task :=
  .offers first last (trials.filterMap Trial.built) [] next

/-- One step of a task: the search after it and what is left of the task. -/
def Task.step (g : Grammar) (commas : Array Bool) (s : Search) :
    Task → Except Fault (Search × List Task)
  | .seed position token =>
    return (s, [.offers position position (g.preterminals position token) [] .close])
  | .complete first last => do
    let trials ← (splits g commas first last).mapM fun split =>
      s.attachmentsAt g first split last
    return (s.noting trials.flatten, [.trials first last trials.flatten .close])
  | .finish last => do
    let items ← (← s.chart.cellItems 0 last).mapM s.stored
    let roots := items.filterMap fun (index, item) => g.root? index item
    return (s, [.offers 0 last roots [] .nothing])
  | .close first last => do
    let present ← s.chart.cellItems first last
    return (s, [.round first last present])
  | .round _ _ [] => return (s, [])
  | .round first last frontier => do
    let sources ← frontier.mapM s.stored
    let unaries := sources.flatMap fun (index, item) => g.projections index item
    return (s, [.offers first last unaries [] (.stop frontier)])
  | .stop first last candidates => do
    let candidates ← candidates.mapM s.modificand
    let trials := candidates.map g.stop
    return (s.noting trials, [.trials first last trials .round])
  | .offers first last [] taken next => return (s, next.tasks first last taken)
  | .offers first last (item :: items) taken next => do
    let (chart, index) ← s.chart.add g.language first last item
    return ({ s with chart }, [.offers first last items (taken ++ index.toList) next])

def Progress.step (g : Grammar) (commas : Array Bool) (p : Progress) : Except Fault Progress :=
  match p.agenda with
  | [] => .ok p
  | task :: rest => do
    let (search, tasks) ← task.step g commas p.search
    return ⟨search, tasks ++ rest⟩

/-- A sentence before its decode: all words to be seeded, then all wider spans completed. -/
def start (chart : Chart) (sentence : Sentence) : Progress where
  search := ⟨chart.resized sentence.length, #[]⟩
  agenda := sentence.zipIdx.map (fun (token, position) => .seed position token)
    ++ ((Chart.spans sentence.length).filter fun (first, last) => first < last).map
      (fun (first, last) => .complete first last)
    ++ [.finish (sentence.length - 1)]

inductive Leads (g : Grammar) (commas : Array Bool) (p : Progress) : Progress → Prop where
  | refl : Leads g commas p p
  | step {q r : Progress} (h : Leads g commas p q) (next : q.step g commas = .ok r) :
      Leads g commas p r

/-- The points of the decode of a sentence. -/
def Passes (g : Grammar) (chart : Chart) (sentence : Sentence) (p : Progress) : Prop :=
  Leads g (g.commas sentence) (start chart sentence) p

def Progress.Offers (p : Progress) (first last : Nat) (item : Item) : Prop :=
  ∃ items taken next rest, p.agenda = .offers first last (item :: items) taken next :: rest

/-- Where a search ends with a fault: a step fails, or closing a cell uses up its rounds. -/
inductive Stuck (g : Grammar) (commas : Array Bool) (p : Progress) : Fault → Prop where
  | step {fault : Fault} (h : p.step g commas = .error fault) : Stuck g commas p fault
  | close {first last : Nat} {rest : List Task} (h : p.agenda = .close first last :: rest)
      (fails : p.search.close g first last = .error .arenaOverflow) :
      Stuck g commas p .arenaOverflow

/-- A computation follows the steps from a point on: with its result they come to the point
`after`, with its fault they get stuck. -/
def Follows {α : Type} (g : Grammar) (commas : Array Bool) (p : Progress)
    (after : α → Progress) : Except Fault α → Prop
  | .ok a => Leads g commas p (after a)
  | .error fault => ∃ q, Leads g commas p q ∧ Stuck g commas q fault

variable {g : Grammar} {commas : Array Bool} {p q r : Progress} {s : Search} {α β : Type}
  {rest : List Task} {first last : Nat}

theorem Leads.trans (h : Leads g commas p q) (h' : Leads g commas q r) : Leads g commas p r := by
  induction h' with
  | refl => exact h
  | step _ next ih => exact .step ih next

theorem Leads.head (h : Leads g commas p q) :
    q = p ∨ ∃ r, p.step g commas = .ok r ∧ Leads g commas r q := by
  induction h with
  | refl => exact Or.inl rfl
  | step _ next ih =>
    rcases ih with rfl | ⟨r, hr, leads⟩
    · exact Or.inr ⟨_, next, .refl⟩
    · exact Or.inr ⟨r, hr, .step leads next⟩

theorem Leads.total (h : Leads g commas p q) (h' : Leads g commas p r) :
    Leads g commas q r ∨ Leads g commas r q := by
  induction h with
  | refl => exact Or.inl h'
  | step before next ih =>
    rcases ih with ahead | behind
    · rcases ahead.head with rfl | ⟨m, hm, leads⟩
      · exact Or.inr (.step .refl next)
      · rw [next, Except.ok.injEq] at hm
        exact Or.inl (hm ▸ leads)
    · exact Or.inr (.step behind next)

theorem Leads.leads_end (h : Leads g commas p q) (ends : Leads g commas p r)
    (done : r.agenda = []) : Leads g commas q r := by
  rcases h.total ends with leads | leads
  · exact leads
  · have stays : ∀ m, Leads g commas r m → m = r := fun m hm => by
      induction hm with
      | refl => rfl
      | step _ next ih =>
        rw [ih, Progress.step, done] at next
        exact (Except.ok.inj next).symm
    exact stays q leads ▸ .refl

theorem Follows.after_leads {after : α → Progress} {x : Except Fault α}
    (h : Leads g commas p q) (h' : Follows g commas q after x) : Follows g commas p after x := by
  cases x with
  | ok a => exact h.trans h'
  | error fault =>
    obtain ⟨r, hr, stuck⟩ := h'
    exact ⟨r, h.trans hr, stuck⟩

theorem Follows.bind {after : α → Progress} {after' : β → Progress} {x : Except Fault α}
    {f : α → Except Fault β} (h : Follows g commas p after x)
    (h' : ∀ a, Follows g commas (after a) after' (f a)) :
    Follows g commas p after' (x >>= f) := by
  cases x with
  | ok a => exact Follows.after_leads h (h' a)
  | error fault => exact h

theorem Follows.task {task : Task} {after : α → Progress} {x : Except Fault α}
    {f : α → Search × List Task} (h : task.step g commas s = x.map f)
    (h' : ∀ a, after a = ⟨(f a).1, (f a).2 ++ rest⟩) :
    Follows g commas ⟨s, task :: rest⟩ after x := by
  cases x with
  | ok a =>
    rw [Follows, h' a]
    refine .step .refl ?_
    simp only [Progress.step, h]
    rfl
  | error fault =>
    refine ⟨_, .refl, .step ?_⟩
    simp only [Progress.step, h]
    rfl

theorem offerAll_follows (items : List Item) (taken : List Nat) (next : Next) :
    Follows g commas ⟨s, .offers first last items taken next :: rest⟩
      (fun (s, more) => ⟨s, next.tasks first last (taken ++ more) ++ rest⟩)
      (s.offerAll g first last items) := by
  induction items generalizing s taken with
  | nil =>
    refine .step .refl ?_
    simp [Progress.step, Task.step, pure, Except.pure]
  | cons item items ih =>
    rw [offerAll, Chart.addAll_cons]
    cases hadd : s.chart.add g.language first last item with
    | error fault =>
      refine ⟨_, .refl, .step ?_⟩
      simp only [Progress.step, Task.step, hadd]
      rfl
    | ok r =>
      obtain ⟨chart, index⟩ := r
      have one : Leads g commas ⟨s, .offers first last (item :: items) taken next :: rest⟩
          ⟨{ s with chart }, .offers first last items (taken ++ index.toList) next :: rest⟩ := by
        refine .step .refl ?_
        simp only [Progress.step, Task.step, hadd]
        rfl
      have more := Follows.after_leads one (ih (s := { s with chart }) (taken ++ index.toList))
      rw [offerAll] at more
      simp only [Outcome.ok_bind]
      cases hrest : chart.addAll g.language first last items with
      | error fault =>
        rw [hrest] at more
        exact more
      | ok r =>
        rw [hrest] at more
        have whole : Leads g commas ⟨s, .offers first last (item :: items) taken next :: rest⟩
            ⟨{ s with chart := r.1 },
              next.tasks first last (taken ++ index.toList ++ r.2) ++ rest⟩ := more
        rw [List.append_assoc] at whole
        exact whole

theorem round_follows (frontier : List Nat) (hne : frontier ≠ []) :
    Follows g commas ⟨s, .round first last frontier :: rest⟩
      (fun (s, fresh) => ⟨s, .round first last fresh :: rest⟩)
      (s.round g first last frontier) := by
  unfold round
  obtain ⟨index, others, rfl⟩ := List.exists_cons_of_ne_nil hne
  refine .bind (.task (Outcome.bind_ok _ _) fun _ => rfl) fun sources => ?_
  refine .bind (offerAll_follows _ _ _) fun (s, grown) => ?_
  refine .bind (.task (Outcome.bind_ok _ _) fun _ => rfl) fun candidates => ?_
  exact offerAll_follows _ _ _

theorem settle_follows (rounds : Nat) (frontier : List Nat) :
    settle g first last rounds s frontier = .error .arenaOverflow ∨
      Follows g commas ⟨s, .round first last frontier :: rest⟩ (⟨·, rest⟩)
        (settle g first last rounds s frontier) := by
  induction rounds generalizing s frontier with
  | zero =>
    cases frontier with
    | nil => exact Or.inr (.step .refl rfl)
    | cons index others => exact Or.inl rfl
  | succ rounds ih =>
    cases frontier with
    | nil => exact Or.inr (.step .refl rfl)
    | cons index others =>
      have follows : Follows g commas ⟨s, .round first last (index :: others) :: rest⟩
          (fun (s, fresh) => ⟨s, .round first last fresh :: rest⟩)
          (s.round g first last (index :: others)) :=
        round_follows _ (List.cons_ne_nil index others)
      simp only [settle]
      cases hround : s.round g first last (index :: others) with
      | error fault =>
        rw [hround] at follows
        exact Or.inr follows
      | ok r =>
        rw [hround] at follows
        exact (ih r.2).imp_right fun more => .after_leads follows more

theorem close_follows : Follows g commas ⟨s, .close first last :: rest⟩ (⟨·, rest⟩)
    (s.close g first last) := by
  have listed : Follows g commas ⟨s, .close first last :: rest⟩
      (fun present => ⟨s, .round first last present :: rest⟩) (s.chart.cellItems first last) :=
    .task (Outcome.bind_ok _ _) fun _ => rfl
  cases hpresent : s.chart.cellItems first last with
  | error fault =>
    rw [hpresent] at listed
    rw [close, hpresent]
    exact listed
  | ok present =>
    rw [hpresent] at listed
    have hclose : s.close g first last = settle g first last (roundLimit g present) s present := by
      rw [close, hpresent, Outcome.ok_bind]
    rw [hclose]
    rcases settle_follows (roundLimit g present) present with unsettled | follows
    · rw [unsettled]
      exact ⟨_, .refl, .close rfl (hclose.trans unsettled)⟩
    · exact .after_leads listed follows

theorem seed_follows (position : Nat) (token : Token) :
    Follows g commas ⟨s, .seed position token :: rest⟩ (⟨·, rest⟩) (s.seed g position token) :=
  .after_leads (.step .refl rfl) (.bind (offerAll_follows _ _ _) fun _ => close_follows)

theorem complete_follows : Follows g commas ⟨s, .complete first last :: rest⟩ (⟨·, rest⟩)
    (s.complete g commas first last) := by
  refine .bind (.task (Outcome.bind_ok _ _) fun _ => rfl) fun trials => ?_
  exact .bind (offerAll_follows _ _ _) fun _ => close_follows

theorem finish_follows : Follows g commas ⟨s, .finish last :: rest⟩ (⟨·, rest⟩)
    (s.finish g last) := by
  unfold finish
  rw [← bind_assoc]
  refine .bind (.task ((bind_assoc _ _ _).symm.trans (Outcome.bind_ok _ _)) fun _ => rfl)
    fun items => ?_
  exact .bind (offerAll_follows _ _ _) fun _ => .refl

theorem foldlM_follows (tasks : List α) (task : α → Task)
    (run : Search → α → Except Fault Search)
    (h : ∀ s a rest, Follows g commas ⟨s, task a :: rest⟩ (⟨·, rest⟩) (run s a)) :
    Follows g commas ⟨s, tasks.map task ++ rest⟩ (⟨·, rest⟩) (tasks.foldlM run s) := by
  induction tasks generalizing s with
  | nil => exact .refl
  | cons a tasks ih => exact .bind (h s a _) fun s => ih

theorem run_follows (g : Grammar) (chart : Chart) (sentence : Sentence) :
    Follows g (g.commas sentence) (start chart sentence) (⟨·, []⟩) (run g chart sentence) := by
  unfold run start
  rw [List.append_assoc]
  refine .bind (foldlM_follows _ _ _ fun s (token, position) rest => seed_follows _ _)
    fun s => ?_
  refine .bind (foldlM_follows _ _ _ fun s (first, last) rest => complete_follows) fun s => ?_
  exact finish_follows

end HeadDriven.Search
