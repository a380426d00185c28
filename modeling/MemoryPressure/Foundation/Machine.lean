import Mathlib.Data.List.Forall2

/-!
# Runs of a machine with outputs

A machine is a step function `σ → α → σ × List ω`: from a state and a label to
the next state and what the step puts out. `run` and `outputs` follow a list of
labels; everything about whole runs is derived from what one step does. Nothing is
assumed of the machine, and in particular not that it is finite.

**One run.**

- `run_invariant`: a property kept by every step holds after every run;
- `Along`: a relation between a state and the label taken from it holds at
  every step of a run; `along_iff` turns a per-step equivalence into an
  equivalence about runs when the property itself carries the invariant on;
- `checkpoints_iff_along`: the exact condition, step by step, under which a
  property holds at every checkpoint of a run;
- `chain_outputs`: where each step puts out at most one thing, which becomes what
  is visible of the state, what a run shows is a chain;
- `forall_outputs_iff`, `exists_step_of_mem_outputs`: what a run puts out, by steps.

**A machine seen from outside.**

- `traced`: the machine with its outputs so far, for properties of a state and
  of how it was reached;
- `view_run`, `along_view`: where each step shows in a view as a step of another
  machine, runs do, and what is asked of the view is asked of that machine;
- `tracks_iff_along`: an observer that folds the outputs follows the states of a
  run exactly when it follows each step.

**Two runs.**

- `lockstep`: two machines whose steps keep a relation put out related outputs
  all along (two-run simulation); labels only one run has may be skipped
  (`Aligned`). `lockstep_iff` is the same with the exact condition under which
  the outputs are related.

The equivalences are stated with `Along` on one side on purpose: the condition under
which a machine does what is asked of it is then a condition on its steps, which can be
read off the machine, and not on the run as a whole.
-/

namespace Machine

universe u v w

variable {σ : Type u} {α : Type v} {ω : Type w} (step : σ → α → σ × List ω)

/-- The state after a list of labels. -/
def run (s : σ) : List α → σ
  | [] => s
  | a :: as => run (step s a).1 as

/-- Everything put out along a list of labels. -/
def outputs (s : σ) : List α → List ω
  | [] => []
  | a :: as => (step s a).2 ++ outputs (step s a).1 as

@[simp] theorem run_nil (s : σ) : run step s [] = s := rfl

@[simp] theorem run_cons (s : σ) (a : α) (as : List α) :
    run step s (a :: as) = run step (step s a).1 as := rfl

@[simp] theorem outputs_nil (s : σ) : outputs step s [] = [] := rfl

@[simp] theorem outputs_cons (s : σ) (a : α) (as : List α) :
    outputs step s (a :: as) = (step s a).2 ++ outputs step (step s a).1 as := rfl

theorem run_append (s : σ) (as bs : List α) :
    run step s (as ++ bs) = run step (run step s as) bs := by
  induction as generalizing s with
  | nil => rfl
  | cons a as ih => exact ih _

theorem outputs_append (s : σ) (as bs : List α) :
    outputs step s (as ++ bs) = outputs step s as ++ outputs step (run step s as) bs := by
  induction as generalizing s with
  | nil => rfl
  | cons a as ih =>
    rw [List.cons_append, outputs_cons, ih, outputs_cons, run_cons, List.append_assoc]

/-! ## Invariants -/

/-- A property that every step along the labels keeps holds at the end. -/
theorem run_invariant {I : σ → Prop} {s : σ} {as : List α}
    (hstep : ∀ s, ∀ a ∈ as, I s → I (step s a).1) (h : I s) : I (run step s as) := by
  induction as generalizing s with
  | nil => exact h
  | cons a as ih =>
    exact ih (fun s b hb => hstep s b (List.mem_cons_of_mem a hb))
      (hstep s a (List.mem_cons_self ..) h)

/-- `Q` holds of every state a run is in and the label it takes from there. -/
def Along (Q : σ → α → Prop) (s : σ) : List α → Prop
  | [] => True
  | a :: as => Q s a ∧ Along Q (step s a).1 as

instance decidableAlong (Q : σ → α → Prop) [∀ s a, Decidable (Q s a)] (s : σ) :
    (as : List α) → Decidable (Along step Q s as)
  | [] => inferInstanceAs (Decidable True)
  | a :: as =>
    have := decidableAlong Q (step s a).1 as
    inferInstanceAs (Decidable (Q s a ∧ Along step Q (step s a).1 as))

@[simp] theorem along_nil (Q : σ → α → Prop) (s : σ) : Along step Q s [] := trivial

@[simp] theorem along_cons {Q : σ → α → Prop} {s : σ} {a : α} {as : List α} :
    Along step Q s (a :: as) ↔ Q s a ∧ Along step Q (step s a).1 as := Iff.rfl

theorem along_append {Q : σ → α → Prop} {s : σ} {as bs : List α} :
    Along step Q s (as ++ bs) ↔ Along step Q s as ∧ Along step Q (run step s as) bs := by
  induction as generalizing s with
  | nil => simp
  | cons a as ih => simp only [List.cons_append, along_cons, run_cons, ih, and_assoc]

theorem along_and {Q Q' : σ → α → Prop} {s : σ} {as : List α} :
    Along step (fun s a => Q s a ∧ Q' s a) s as ↔ Along step Q s as ∧ Along step Q' s as := by
  induction as generalizing s with
  | nil => simp
  | cons a as ih =>
    rw [along_cons, along_cons, along_cons, ih]
    exact and_and_and_comm

/-- A property kept by the steps that satisfy `Q` holds after a run along `Q`. -/
theorem run_invariant_along {I : σ → Prop} {Q : σ → α → Prop} {s : σ} {as : List α}
    (hstep : ∀ s a, Q s a → I s → I (step s a).1) (hq : Along step Q s as) (h : I s) :
    I (run step s as) := by
  induction as generalizing s with
  | nil => exact h
  | cons a as ih => exact ih hq.2 (hstep s a hq.1 h)

/-- `Along` is monotone, given an invariant of the run. -/
theorem along_mono {I : σ → Prop} {Q Q' : σ → α → Prop} {s : σ} {as : List α}
    (hinv : ∀ s a, Q s a → I s → I (step s a).1)
    (himp : ∀ s a, I s → Q s a → Q' s a) (h : I s) (hq : Along step Q s as) :
    Along step Q' s as := by
  induction as generalizing s with
  | nil => trivial
  | cons a as ih => exact ⟨himp s a h hq.1, ih (hinv s a hq.1 h) hq.2⟩

/-- Two step properties that agree under an invariant agree along runs, when
the first of them carries the invariant over the step. -/
theorem along_iff {I : σ → Prop} {Q Q' : σ → α → Prop} {s : σ} {as : List α}
    (hinv : ∀ s, ∀ a ∈ as, I s → Q s a → I (step s a).1)
    (hiff : ∀ s, ∀ a ∈ as, I s → (Q s a ↔ Q' s a)) (h : I s) :
    Along step Q s as ↔ Along step Q' s as := by
  induction as generalizing s with
  | nil => exact Iff.rfl
  | cons a as ih =>
    have ha := hiff s a (List.mem_cons_self ..) h
    rw [along_cons, along_cons, ← ha]
    refine and_congr_right ?_
    intro hq
    exact ih (fun s b hb => hinv s b (List.mem_cons_of_mem a hb))
      (fun s b hb => hiff s b (List.mem_cons_of_mem a hb))
      (hinv s a (List.mem_cons_self ..) h hq)

/-- A property of everything a run puts out, as a property of its steps. -/
theorem forall_outputs_iff {P : ω → Prop} {s : σ} {as : List α} :
    (∀ o ∈ outputs step s as, P o) ↔ Along step (fun s a => ∀ o ∈ (step s a).2, P o) s as := by
  induction as generalizing s with
  | nil => simp
  | cons a as ih => rw [outputs_cons, List.forall_mem_append, along_cons, ih]

/-- Whatever a run puts out, one of its steps does. -/
theorem exists_step_of_mem_outputs {o : ω} {s : σ} {as : List α} (h : o ∈ outputs step s as) :
    ∃ pre a post, as = pre ++ a :: post ∧ o ∈ (step (run step s pre) a).2 := by
  induction as generalizing s with
  | nil => cases h
  | cons b bs ih =>
    rw [outputs_cons, List.mem_append] at h
    rcases h with hb | hrest
    · exact ⟨[], b, bs, rfl, hb⟩
    · obtain ⟨pre, a, post, rfl, ho⟩ := ih hrest
      exact ⟨b :: pre, a, post, rfl, ho⟩

/-- A property of labels alone, along a run. -/
theorem along_const_iff {Q : α → Prop} {s : σ} {as : List α} :
    Along step (fun _ a => Q a) s as ↔ ∀ a ∈ as, Q a := by
  induction as generalizing s with
  | nil => simp
  | cons a as ih => rw [along_cons, ih, List.forall_mem_cons]

/-- **What holds at the checkpoints of a run**: let steps that satisfy `Q` keep an
invariant that makes every checkpoint good, and let the first step that does not
satisfy it end in a checkpoint that is not. Then all checkpoints of a run are
good exactly when `Q` holds along it. -/
theorem checkpoints_iff_along {I Check Good : σ → Prop} {Q : σ → α → Prop} {s : σ} (as : List α)
    (hgood : ∀ s, I s → Check s → Good s)
    (hkeep : ∀ s, ∀ a ∈ as, I s → Q s a → I (step s a).1)
    (hbreak : ∀ s, ∀ a ∈ as, I s → ¬ Q s a → Check (step s a).1 ∧ ¬ Good (step s a).1) (h : I s) :
    (∀ pre post, as = pre ++ post → Check (run step s pre) → Good (run step s pre))
      ↔ Along step Q s as := by
  induction as generalizing s with
  | nil =>
    refine ⟨fun _ => trivial, fun _ pre post heq hcheck => ?_⟩
    rw [(List.append_eq_nil_iff.mp heq.symm).1] at hcheck ⊢
    exact hgood s h hcheck
  | cons a as ih =>
    have hhead := hkeep s a (List.mem_cons_self ..) h
    have htail := ih (fun s b hb => hkeep s b (List.mem_cons_of_mem a hb))
      (fun s b hb => hbreak s b (List.mem_cons_of_mem a hb)) (s := (step s a).1)
    rw [along_cons]
    constructor
    · intro hall
      have hq : Q s a := by
        by_contra hnot
        obtain ⟨hcheck, hbad⟩ := hbreak s a (List.mem_cons_self ..) h hnot
        exact hbad (hall [a] as rfl hcheck)
      refine ⟨hq, (htail (hhead hq)).mp fun pre post heq => ?_⟩
      exact hall (a :: pre) post (by rw [heq, List.cons_append])
    · rintro ⟨hq, hrest⟩ pre post heq hcheck
      cases pre with
      | nil => exact hgood s h hcheck
      | cons b pre =>
        obtain ⟨rfl, hsame⟩ := List.cons.inj heq
        exact (htail (hhead hq)).mpr hrest pre post hsame hcheck

/-- **What a run shows is a chain**: let `view` be what is visible of a state and
let every step either show nothing new or put out one thing, which becomes
visible and is related to what was visible before. -/
theorem chain_outputs {β : Type*} (view : σ → β) (shown : ω → β) {R : β → β → Prop}
    {I : σ → Prop} {s : σ} {as : List α}
    (hstep : ∀ s, ∀ a ∈ as, I s → I (step s a).1 ∧
      (((step s a).2 = [] ∧ view (step s a).1 = view s) ∨
        ∃ o, (step s a).2 = [o] ∧ view (step s a).1 = shown o ∧ R (view s) (shown o)))
    (h : I s) : (view s :: (outputs step s as).map shown).IsChain R := by
  induction as generalizing s with
  | nil => exact List.IsChain.singleton _
  | cons a as ih =>
    obtain ⟨hI, hview⟩ := hstep s a (List.mem_cons_self ..) h
    have hrest := ih (fun s b hb => hstep s b (List.mem_cons_of_mem a hb)) hI
    rcases hview with ⟨hout, hsame⟩ | ⟨o, hout, hnew, hR⟩
    · rw [hsame] at hrest
      rwa [outputs_cons, hout, List.nil_append]
    · rw [hnew] at hrest
      rw [outputs_cons, hout, List.singleton_append, List.map_cons]
      exact List.IsChain.cons_cons hR hrest

/-! ## Observers -/

/-- An observer that folds a run's outputs over its view of the first state sees
every state of the run exactly when every step's outputs carry its view along. -/
theorem tracks_iff_along {β : Type*} (apply : β → ω → β) (view : σ → β) {s : σ} {as : List α} :
    (∀ pre post, as = pre ++ post →
        (outputs step s pre).foldl apply (view s) = view (run step s pre))
      ↔ Along step (fun s a => (step s a).2.foldl apply (view s) = view (step s a).1) s as := by
  induction as generalizing s with
  | nil =>
    refine ⟨fun _ => trivial, fun _ pre post h => ?_⟩
    rw [(List.append_eq_nil_iff.mp h.symm).1]
    rfl
  | cons a as ih =>
    rw [along_cons, ← ih]
    constructor
    · intro h
      have hone : (step s a).2.foldl apply (view s) = view (step s a).1 := by
        simpa using h [a] as rfl
      refine ⟨hone, ?_⟩
      intro pre post heq
      have hmore := h (a :: pre) post (by rw [heq, List.cons_append])
      rwa [outputs_cons, List.foldl_append, hone] at hmore
    · rintro ⟨hone, hrest⟩ pre post heq
      cases pre with
      | nil => rfl
      | cons b pre =>
        obtain ⟨rfl, htail⟩ := List.cons.inj heq
        rw [outputs_cons, List.foldl_append, hone]
        exact hrest pre post htail

/-- The machine together with everything it has put out so far. -/
def traced (x : σ × List ω) (a : α) : (σ × List ω) × List ω :=
  (((step x.1 a).1, x.2 ++ (step x.1 a).2), (step x.1 a).2)

theorem run_traced (s : σ) (out : List ω) (as : List α) :
    run (traced step) (s, out) as = (run step s as, out ++ outputs step s as) := by
  induction as generalizing s out with
  | nil => simp
  | cons a as ih =>
    rw [run_cons, traced, ih, run_cons, outputs_cons, List.append_assoc]

/-- What is asked of the machine alone is asked of it with its outputs. -/
theorem along_traced {Q : σ → α → Prop} {s : σ} {out : List ω} {as : List α} :
    Along (traced step) (fun x a => Q x.1 a) (s, out) as ↔ Along step Q s as := by
  induction as generalizing s out with
  | nil => exact Iff.rfl
  | cons a as ih => exact and_congr_right fun _ => ih

/-- **A view of a machine is a machine**: where every step shows in the view as a step
of `step'` on the same label, so does every run, with what it puts out. -/
theorem view_run {τ ω' : Type*} {step' : τ → α → τ × List ω'} (view : σ → τ) (shows : ω → ω')
    {I : σ → Prop} {s : σ} {as : List α}
    (hstep : ∀ s, ∀ a ∈ as, I s → view (step s a).1 = (step' (view s) a).1 ∧
      (step s a).2.map shows = (step' (view s) a).2)
    (hkeep : ∀ s, ∀ a ∈ as, I s → I (step s a).1) (h : I s) :
    view (run step s as) = run step' (view s) as ∧
      (outputs step s as).map shows = outputs step' (view s) as := by
  induction as generalizing s with
  | nil => exact ⟨rfl, rfl⟩
  | cons a as ih =>
    obtain ⟨hview, hout⟩ := hstep s a (List.mem_cons_self ..) h
    obtain ⟨hview', hout'⟩ := ih (fun s b hb => hstep s b (List.mem_cons_of_mem a hb))
      (fun s b hb => hkeep s b (List.mem_cons_of_mem a hb)) (hkeep s a (List.mem_cons_self ..) h)
    rw [run_cons, run_cons, outputs_cons, outputs_cons, List.map_append, hout, ← hview]
    exact ⟨hview', congrArg (_ ++ ·) hout'⟩

/-- What is asked of a view of the machine is asked of the machine it is a view of. -/
theorem along_view {τ ω' : Type*} {step' : τ → α → τ × List ω'} (view : σ → τ)
    (hview : ∀ s a, view (step s a).1 = (step' (view s) a).1) {Q : τ → α → Prop} {s : σ}
    {as : List α} : Along step (fun s a => Q (view s) a) s as ↔ Along step' Q (view s) as := by
  induction as generalizing s with
  | nil => exact Iff.rfl
  | cons a as ih =>
    rw [along_cons, along_cons, ← hview, ih]

/-! ## Two runs in lockstep -/

section

universe u' v' w'

variable {σ' : Type u'} {α' : Type v'} {ω' : Type w'} {step' : σ' → α' → σ' × List ω'}

/-- Two lists of labels that match, but for labels only one of them has. -/
inductive Aligned (L : α → α' → Prop) (M : α → Prop) (M' : α' → Prop) :
    List α → List α' → Prop
  | nil : Aligned L M M' [] []
  | both {a a' as as'} : L a a' → Aligned L M M' as as' → Aligned L M M' (a :: as) (a' :: as')
  | left {a as as'} : M a → Aligned L M M' as as' → Aligned L M M' (a :: as) as'
  | right {a' as as'} : M' a' → Aligned L M M' as as' → Aligned L M M' as (a' :: as')

theorem forall₂_append_iff {O : ω → ω' → Prop} {as bs : List ω} {cs ds : List ω'}
    (hlen : as.length = cs.length) :
    List.Forall₂ O (as ++ bs) (cs ++ ds) ↔ List.Forall₂ O as cs ∧ List.Forall₂ O bs ds := by
  constructor
  · intro h
    have hfst := List.forall₂_take_append _ _ _ h
    have hsnd := List.forall₂_drop_append _ _ _ h
    rw [← hlen, List.take_left] at hfst
    rw [← hlen, List.drop_left] at hsnd
    exact ⟨hfst, hsnd⟩
  · exact fun ⟨h₁, h₂⟩ => List.rel_append h₁ h₂

variable {L : α → α' → Prop} {M : α → Prop} {M' : α' → Prop} {R : σ → σ' → Prop}
  {O : ω → ω' → Prop} {s : σ} {s' : σ'} {as : List α} {as' : List α'}

/-- **Lockstep, exactly**: let matched labels put out equally much, related
exactly when `Q` holds of the left step, which then keeps `R`; and let unmatched
labels put out nothing and keep `R`. Then two aligned runs put out related
outputs exactly when `Q` holds along the left one. -/
theorem lockstep_iff {Q : σ → α → Prop}
    (hboth : ∀ s s' a a', R s s' → L a a' →
      (step s a).2.length = (step' s' a').2.length ∧
        (List.Forall₂ O (step s a).2 (step' s' a').2 ↔ Q s a) ∧
        (Q s a → R (step s a).1 (step' s' a').1))
    (hleft : ∀ s s' a, R s s' → M a → Q s a ∧ (step s a).2 = [] ∧ R (step s a).1 s')
    (hright : ∀ s s' a', R s s' → M' a' → (step' s' a').2 = [] ∧ R s (step' s' a').1)
    (hal : Aligned L M M' as as') (h : R s s') :
    List.Forall₂ O (outputs step s as) (outputs step' s' as') ↔ Along step Q s as := by
  induction hal generalizing s s' with
  | nil => simp
  | both hL _ ih =>
    obtain ⟨hlen, hiff, hkeep⟩ := hboth _ _ _ _ h hL
    rw [outputs_cons, outputs_cons, forall₂_append_iff hlen, hiff, along_cons]
    exact and_congr_right fun hq => ih (hkeep hq)
  | left hM _ ih =>
    obtain ⟨hq, hout, hR⟩ := hleft _ _ _ h hM
    rw [outputs_cons, hout, List.nil_append, ih hR, along_cons]
    exact (and_iff_right hq).symm
  | right hM _ ih =>
    obtain ⟨hout, hR⟩ := hright _ _ _ h hM
    rw [outputs_cons, hout, List.nil_append, ih hR]

/-- **Lockstep**: when every matched step keeps `R` and puts out related
outputs, so do whole aligned runs. -/
theorem lockstep
    (hboth : ∀ s s' a a', R s s' → L a a' →
      R (step s a).1 (step' s' a').1 ∧ List.Forall₂ O (step s a).2 (step' s' a').2)
    (hleft : ∀ s s' a, R s s' → M a → (step s a).2 = [] ∧ R (step s a).1 s')
    (hright : ∀ s s' a', R s s' → M' a' → (step' s' a').2 = [] ∧ R s (step' s' a').1)
    (hal : Aligned L M M' as as') (h : R s s') :
    List.Forall₂ O (outputs step s as) (outputs step' s' as') := by
  refine (lockstep_iff step (Q := fun _ _ => True) (fun s s' a a' hR hL => ?_)
    (fun s s' a hR hM => ⟨trivial, hleft s s' a hR hM⟩) hright hal h).mpr
    ((along_const_iff step).mpr fun _ _ => trivial)
  obtain ⟨hR', hO⟩ := hboth s s' a a' hR hL
  exact ⟨hO.length_eq, iff_of_true hO trivial, fun _ => hR'⟩

end

end Machine
