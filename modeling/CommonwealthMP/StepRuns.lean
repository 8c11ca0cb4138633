import Mathlib.Data.List.Basic
import Mathlib.Data.List.Induction

/-! # Runs of a step function

A run is the list of inputs a step function is applied to. Properties of whole runs are
obtained from one step by the rule below: an invariant with a side condition on each step. -/
namespace StepRuns

variable {σ ι : Type*} (step : σ → ι → σ)

def run (s : σ) (is : List ι) : σ := is.foldl step s

@[simp] theorem run_nil (s : σ) : run step s [] = s := rfl

@[simp] theorem run_cons (s : σ) (i : ι) (is : List ι) : run step s (i :: is) = run step (step s i) is := rfl

theorem run_append (s : σ) (is js : List ι) : run step s (is ++ js) = run step (run step s is) js :=
  List.foldl_append

theorem run_concat (s : σ) (is : List ι) (i : ι) : run step s (is ++ [i]) = step (run step s is) i := by
  simp [run_append]

/-- Every step of the run meets `P` in the state it is taken from. -/
def AllSteps (P : σ → ι → Prop) : σ → List ι → Prop
  | _, [] => True
  | s, i :: is => P s i ∧ AllSteps P (step s i) is

variable {step} {P Q : σ → ι → Prop} {I : σ → Prop} {s : σ} {is : List ι}

theorem AllSteps.imp (h : ∀ s i, P s i → Q s i) (ha : AllSteps step P s is) : AllSteps step Q s is := by
  induction is generalizing s with
  | nil => trivial
  | cons i is ih => exact ⟨h s i ha.1, ih ha.2⟩

theorem allSteps_of_forall (h : ∀ s i, P s i) : AllSteps step P s is := by
  induction is generalizing s with
  | nil => trivial
  | cons i is ih => exact ⟨h s i, ih⟩

theorem allSteps_append (is js : List ι) :
    AllSteps step P s (is ++ js) ↔ AllSteps step P s is ∧ AllSteps step P (run step s is) js := by
  induction is generalizing s with
  | nil => simp [AllSteps]
  | cons i is ih => simp [AllSteps, ih, and_assoc]

/-- The steps of a run are the single steps taken after its prefixes. -/
theorem allSteps_iff_split :
    AllSteps step P s is ↔ ∀ before i after, is = before ++ i :: after → P (run step s before) i := by
  constructor
  · rintro h before i after rfl
    exact ((allSteps_append before (i :: after)).mp h).2.1
  · intro h
    induction is generalizing s with
    | nil => trivial
    | cons i is ih =>
      refine ⟨h [] i is rfl, ih fun before j after he => ?_⟩
      exact h (i :: before) j after (by rw [he, List.cons_append])

/-- What every step keeps under its side condition, the run keeps. -/
theorem run_invariant (hstep : ∀ s i, I s → P s i → I (step s i)) (hs : I s) (ha : AllSteps step P s is) :
    I (run step s is) := by
  induction is generalizing s with
  | nil => exact hs
  | cons i is ih => exact ih (hstep s i hs ha.1) ha.2

variable (step) {τ : Type*} (f : σ → ι → List τ)

def collect : σ → List ι → List τ
  | _, [] => []
  | s, i :: is => f s i ++ collect (step s i) is

theorem collect_append (s : σ) (is js : List ι) :
    collect step f s (is ++ js) = collect step f s is ++ collect step f (run step s is) js := by
  induction is generalizing s with
  | nil => simp [collect]
  | cons i is ih => simp [collect, ih]

theorem collect_concat (s : σ) (is : List ι) (i : ι) :
    collect step f s (is ++ [i]) = collect step f s is ++ f (run step s is) i := by
  simp [collect_append, collect]

section Some
variable {step} {P Q : σ → ι → Prop} {I : σ → Prop} {s : σ} {is : List ι} {τ : Type*} {H : σ → τ → Prop}
  {B : σ → ι → τ → Prop}

variable (step) in
def SomeStep (P : σ → ι → Prop) : σ → List ι → Prop
  | _, [] => False
  | s, i :: is => P s i ∨ SomeStep P (step s i) is

theorem SomeStep.imp (h : ∀ s i, P s i → Q s i) (hs : SomeStep step P s is) : SomeStep step Q s is := by
  induction is generalizing s with
  | nil => exact hs
  | cons i is ih => exact hs.imp (h s i) ih

theorem someStep_append (is js : List ι) :
    SomeStep step P s (is ++ js) ↔ SomeStep step P s is ∨ SomeStep step P (run step s is) js := by
  induction is generalizing s with
  | nil => simp [SomeStep]
  | cons i is ih => simp [SomeStep, ih, or_assoc]

theorem someStep_iff_split : SomeStep step P s is ↔ ∃ before i after, is = before ++ i :: after ∧ P (run step s before) i := by
  constructor
  · intro h
    induction is generalizing s with
    | nil => exact h.elim
    | cons i is ih =>
      rcases h with h | h
      · exact ⟨[], i, is, rfl, h⟩
      · obtain ⟨before, j, after, rfl, hj⟩ := ih h
        exact ⟨i :: before, j, after, rfl, hj⟩
  · rintro ⟨before, i, after, rfl, h⟩
    exact (someStep_append before (i :: after)).mpr (.inr (.inl h))

theorem mem_collect {f : σ → ι → List τ} {x : τ} : x ∈ collect step f s is ↔ SomeStep step (fun s i => x ∈ f s i) s is := by
  induction is generalizing s with
  | nil => simp [collect, SomeStep]
  | cons i is ih => simp [collect, SomeStep, ih]

/-- What is held after a run was held before it, or some step has brought it. -/
theorem held_run (hI : ∀ s i, I s → P s i → I (step s i))
    (hstep : ∀ s i x, I s → P s i → H (step s i) x → H s x ∨ B s i x) (hs : I s) (ha : AllSteps step P s is)
    {x : τ} (hx : H (run step s is) x) : H s x ∨ SomeStep step (fun s i => B s i x) s is := by
  induction is generalizing s with
  | nil => exact .inl hx
  | cons i is ih =>
    rcases ih (hI s i hs ha.1) ha.2 hx with h | h
    · exact (hstep s i x hs ha.1 h).imp_right .inl
    · exact .inr (.inr h)

/-- What is held after a run was held all along, or has been since a step that brought it. -/
theorem held_since (hI : ∀ s i, I s → P s i → I (step s i))
    (hstep : ∀ s i x, I s → P s i → H (step s i) x → H s x ∨ B s i x) (hs : I s) (ha : AllSteps step P s is)
    {x : τ} (hx : H (run step s is) x) :
    (∀ mid, mid <+: is → H (run step s mid) x) ∨
      ∃ before i after, is = before ++ i :: after ∧ B (run step s before) i x ∧
        ∀ mid, mid <+: after → H (run step s (before ++ i :: mid)) x := by
  induction is using List.reverseRecOn with
  | nil =>
    left
    intro mid hmid
    rw [List.prefix_nil.mp hmid]
    exact hx
  | append_singleton is i ih =>
    obtain ⟨hbefore, hlast, -⟩ := (allSteps_append is [i]).mp ha
    have hlast' := hx
    rw [run_concat] at hlast'
    rcases hstep _ i x (run_invariant hI hs hbefore) hlast hlast' with h | h
    · rcases ih hbefore h with hall | ⟨before, j, after, rfl, hj, hmid⟩
      · left
        intro mid hmid
        rcases List.prefix_concat_iff.mp hmid with rfl | hmid
        · exact hx
        · exact hall mid hmid
      · refine .inr ⟨before, j, after ++ [i], by simp, hj, fun mid hm => ?_⟩
        rcases List.prefix_concat_iff.mp hm with rfl | hm
        · simpa using hx
        · exact hmid mid hm
    · refine .inr ⟨is, i, [], rfl, h, fun mid hm => ?_⟩
      rw [List.prefix_nil.mp hm]
      exact hx

/-- What is kept before a run is kept after it, or some step has let it go. -/
theorem kept_run {K : σ → Prop} {G : σ → ι → Prop} (hstep : ∀ s i, K s → K (step s i) ∨ G s i) (hs : K s) :
    K (run step s is) ∨ SomeStep step G s is := by
  induction is generalizing s with
  | nil => exact .inl hs
  | cons i is ih =>
    rcases hstep s i hs with h | h
    · exact (ih h).imp_right .inr
    · exact .inr (.inl h)

end Some

end StepRuns
