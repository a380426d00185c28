import Mathlib.Logic.Function.Basic
import Mathlib.Logic.Relation
import MemoryPressure.Foundation.Machine

/-!
# Threads, mutexes and scopes

Threads share data and non-recursive mutexes. What a thread still has to do is
its code, a list of instructions: lock a mutex, unlock one, or perform an action
on the data; an action may put further code in front (it calls, branches or
loops) and emit notes. A schedule is a list of a thread and a choice each: which
thread moves, and what its environment answers. Schedules are runs of a machine in the
sense of `Foundation/Machine.lean`, so that its rules apply to them.

**What is held.** A thread's mutexes are not part of its state: they are read off its
code, as those it still has to unlock (`held`). `Sound` says that the owners in the
state agree with that, and `Sound.step` that every move keeps it so. This works because
code is scoped: what is locked ahead is unlocked ahead, innermost first (`Scoped`), and
an action owes what the code it expands to unlocks (`Program`).

**What is ahead.** `AllFit` is a property of every instruction ahead and of what will be
held when it is reached. `fit_step` carries it through moves in which only allowed
actions are taken, given that each allowed action expands to code that fits
(`Fitting`). So a locking discipline is checked once for each action and holds of every
schedule; for mutexes that are ranked it rules out a thread that waits for itself
(`Sound.not_owner_of_awaits`).

**One thread alone.** `Alone` is what one thread does while nobody else holds what it
needs, the sequential meaning of its code. `reaches_run` schedules it: whatever a thread
does undisturbed, a schedule of that thread does.

Actions are atomic and see the data as they are. Weak memory is not modelled, and
neither is fairness: a schedule may leave a thread out for ever.
-/

namespace Threads

variable {μ δ κ ι ω : Type}

/-- One instruction. -/
inductive Instr (μ κ : Type) where
  | lock (m : μ)
  | unlock (m : μ)
  | act (a : κ)

/-- What a thread still has to do. -/
abbrev Code (μ κ : Type) := List (Instr μ κ)

section

variable (owes : κ → List μ)

/-- The mutexes held while this code is ahead, innermost first. An action owes
the mutexes that the code it expands to unlocks. -/
def held : Code μ κ → List μ
  | [] => []
  | .lock _ :: c => (held c).tail
  | .unlock m :: c => m :: held c
  | .act a :: c => owes a ++ held c

/-- Every mutex locked ahead is unlocked ahead, innermost first. -/
def Scoped : Code μ κ → Prop
  | [] => True
  | .lock m :: c => (held owes c).head? = some m ∧ Scoped c
  | .unlock _ :: c => Scoped c
  | .act _ :: c => Scoped c

end

/-- A program: what an action does to the data, the code it puts in front and
the notes it emits (`none`: it cannot be performed with this choice). Its code
is scoped and unlocks what the action owes. -/
structure Program (μ δ κ ι ω : Type) where
  exec : κ → ι → δ → Option (δ × Code μ κ × List ω)
  owes : κ → List μ
  exec_scoped : ∀ {a i d d' new notes}, exec a i d = some (d', new, notes) →
    Scoped owes new ∧ held owes new = owes a

/-- The data, the holder of each mutex and the code of each thread. -/
structure State (μ δ κ : Type) where
  data : δ
  owner : μ → Option Nat
  code : Nat → Code μ κ

/-- The mutex a thread is about to lock. -/
def awaits : Code μ κ → Option μ
  | .lock m :: _ => some m
  | _ => none

/-! ## Scopes -/

theorem held_append {owes : κ → List μ} {new : Code μ κ} (h : Scoped owes new) (c : Code μ κ) :
    held owes (new ++ c) = held owes new ++ held owes c := by
  induction new with
  | nil => rfl
  | cons i new ih =>
    cases i with
    | lock m =>
      obtain ⟨hm, hnew⟩ := h
      obtain ⟨rest, hrest⟩ := List.head?_eq_some_iff.mp hm
      rw [List.cons_append, held, held, ih hnew, hrest]
      rfl
    | unlock m =>
      rw [List.cons_append, held, held, ih h, List.cons_append]
    | act a =>
      rw [List.cons_append, held, held, ih h, List.append_assoc]

theorem scoped_append {owes : κ → List μ} {new c : Code μ κ} (h : Scoped owes new)
    (hc : Scoped owes c) : Scoped owes (new ++ c) := by
  induction new with
  | nil => exact hc
  | cons i new ih =>
    cases i with
    | lock m =>
      obtain ⟨hm, hnew⟩ := h
      obtain ⟨rest, hrest⟩ := List.head?_eq_some_iff.mp hm
      refine ⟨?_, ih hnew⟩
      show (held owes (new ++ c)).head? = some m
      rw [held_append hnew, hrest]
      rfl
    | unlock m => exact ih h
    | act a => exact ih h

/-- What a scoped code holds before and after it locks. -/
theorem held_of_lock {owes : κ → List μ} {m : μ} {c : Code μ κ}
    (h : Scoped owes (.lock m :: c)) : held owes c = m :: held owes (.lock m :: c) := by
  obtain ⟨rest, hrest⟩ := List.head?_eq_some_iff.mp h.1
  rw [held, hrest]
  rfl

/-- Scoped code that unlocks only what it locks. -/
structure Balanced (owes : κ → List μ) (c : Code μ κ) : Prop where
  scoped_self : Scoped owes c
  held_eq : held owes c = []

theorem Balanced.nil {owes : κ → List μ} : Balanced owes ([] : Code μ κ) := ⟨trivial, rfl⟩

theorem Balanced.append {owes : κ → List μ} {c c' : Code μ κ} (h : Balanced owes c)
    (h' : Balanced owes c') : Balanced owes (c ++ c') :=
  ⟨scoped_append h.scoped_self h'.scoped_self,
    by rw [held_append h.scoped_self, h.held_eq, h'.held_eq]; rfl⟩

theorem Balanced.flatten {owes : κ → List μ} {cs : List (Code μ κ)}
    (h : ∀ c ∈ cs, Balanced owes c) : Balanced owes cs.flatten := by
  induction cs with
  | nil => exact .nil
  | cons c cs ih =>
    exact (h c (List.mem_cons_self ..)).append (ih fun c' hc' => h c' (List.mem_cons_of_mem c hc'))

section

variable (P : Program μ δ κ ι ω)

/-- Locks agree with code: every thread's code is scoped, and a thread holds
exactly the mutexes it still has to unlock. -/
structure Sound (s : State μ δ κ) : Prop where
  code : ∀ t, Scoped P.owes (s.code t)
  nodup : ∀ t, (held P.owes (s.code t)).Nodup
  owner : ∀ t m, m ∈ held P.owes (s.code t) ↔ s.owner m = some t

variable {P} in
/-- Replacing the code of one thread and the mutexes it holds. -/
theorem Sound.update {s s' : State μ δ κ} (hs : Sound P s) {t : Nat} {c : Code μ κ}
    (hcode : s'.code = Function.update s.code t c) (hc : Scoped P.owes c)
    (hnodup : (held P.owes c).Nodup) (howner : ∀ m, m ∈ held P.owes c ↔ s'.owner m = some t)
    (hother : ∀ u ≠ t, ∀ m, s.owner m = some u ↔ s'.owner m = some u) : Sound P s' := by
  have hself : s'.code t = c := by rw [hcode, Function.update_self]
  have hrest : ∀ u ≠ t, s'.code u = s.code u := by
    intro u hu
    rw [hcode, Function.update_of_ne hu]
  refine ⟨fun u => ?_, fun u => ?_, fun u m => ?_⟩ <;> by_cases hu : u = t
  · rwa [hu, hself]
  · rw [hrest u hu]
    exact hs.code u
  · rwa [hu, hself]
  · rw [hrest u hu]
    exact hs.nodup u
  · rw [hu, hself]
    exact howner m
  · rw [hrest u hu, hs.owner u m]
    exact hother u hu m

end

/-! ## Properties of the code ahead -/

/-- The action a thread is about to perform. -/
def nextAct : Code μ κ → Option κ
  | .act a :: _ => some a
  | _ => none

theorem code_of_nextAct {c : Code μ κ} {a : κ} (h : a ∈ nextAct c) :
    ∃ rest, c = .act a :: rest := by
  cases c with
  | nil => cases h
  | cons i rest =>
    cases i with
    | act a' =>
      obtain rfl : a' = a := Option.some.inj h
      exact ⟨rest, rfl⟩
    | _ => cases h

theorem code_of_awaits {c : Code μ κ} {m : μ} (h : m ∈ awaits c) : ∃ rest, c = .lock m :: rest := by
  cases c with
  | nil => cases h
  | cons i rest =>
    cases i with
    | lock m' =>
      obtain rfl : m' = m := Option.some.inj h
      exact ⟨rest, rfl⟩
    | _ => cases h

/-- `Fits` holds of every instruction ahead and of the mutexes held when it is
reached, of which `below` are held underneath. -/
def AllFit (owes : κ → List μ) (Fits : Instr μ κ → List μ → Prop) (below : List μ) :
    Code μ κ → Prop
  | [] => True
  | i :: c => Fits i (held owes (i :: c) ++ below) ∧ AllFit owes Fits below c

/-- The action about to be performed, if any, is allowed. -/
def Permits (Allowed : κ → ι → δ → Prop) (s : State μ δ κ) (move : Nat × ι) : Prop :=
  ∀ a ∈ nextAct (s.code move.1), Allowed a move.2 s.data

theorem allFit_append {owes : κ → List μ} {Fits : Instr μ κ → List μ → Prop} {below : List μ}
    {new c : Code μ κ} (h : Scoped owes new) (hnew : AllFit owes Fits (held owes c ++ below) new)
    (hc : AllFit owes Fits below c) : AllFit owes Fits below (new ++ c) := by
  induction new with
  | nil => exact hc
  | cons i new ih =>
    have htail : Scoped owes new := by
      cases i with
      | lock m => exact h.2
      | unlock m => exact h
      | act a => exact h
    refine ⟨?_, ih htail hnew.2⟩
    show Fits i (held owes (i :: new ++ c) ++ below)
    rw [held_append h, List.append_assoc]
    exact hnew.1

/-- Balanced code that fits. -/
structure Fitting (owes : κ → List μ) (Fits : Instr μ κ → List μ → Prop) (below : List μ)
    (c : Code μ κ) : Prop extends Balanced owes c where
  fits : AllFit owes Fits below c

section

variable {owes : κ → List μ} {Fits : Instr μ κ → List μ → Prop} {below : List μ}

theorem Fitting.nil : Fitting owes Fits below [] := ⟨.nil, trivial⟩

theorem Fitting.append {c c' : Code μ κ} (h : Fitting owes Fits below c)
    (h' : Fitting owes Fits below c') : Fitting owes Fits below (c ++ c') :=
  ⟨h.toBalanced.append h'.toBalanced,
    allFit_append h.scoped_self (by rw [h'.held_eq]; exact h.fits) h'.fits⟩

theorem Fitting.flatten {cs : List (Code μ κ)} (h : ∀ c ∈ cs, Fitting owes Fits below c) :
    Fitting owes Fits below cs.flatten := by
  induction cs with
  | nil => exact .nil
  | cons c cs ih =>
    exact (h c (List.mem_cons_self ..)).append (ih fun c' hc' => h c' (List.mem_cons_of_mem c hc'))

end

/-! ## Moves -/

section

variable [DecidableEq μ] (P : Program μ δ κ ι ω)

/-- One move of a thread. A thread stays where it is while the mutex it wants is
held, and where its action cannot be performed. -/
def step (s : State μ δ κ) (move : Nat × ι) : State μ δ κ × List (Nat × ω) :=
  match s.code move.1 with
  | [] => (s, [])
  | .lock m :: c =>
    match s.owner m with
    | none =>
      ({ s with owner := Function.update s.owner m (some move.1)
                code := Function.update s.code move.1 c }, [])
    | some _ => (s, [])
  | .unlock m :: c =>
    ({ s with owner := Function.update s.owner m none
              code := Function.update s.code move.1 c }, [])
  | .act a :: c =>
    match P.exec a move.2 s.data with
    | none => (s, [])
    | some (d, new, notes) =>
      ({ s with data := d, code := Function.update s.code move.1 (new ++ c) },
        notes.map fun note => (move.1, note))

/-- The state after a schedule. -/
abbrev runFrom (s : State μ δ κ) (moves : List (Nat × ι)) : State μ δ κ :=
  Machine.run (step P) s moves

section

variable {s : State μ δ κ} {t : Nat} {m : μ} {c : Code μ κ}

theorem step_lock (hc : s.code t = .lock m :: c) (hm : s.owner m = none) (i : ι) :
    step P s (t, i) = (⟨s.data, Function.update s.owner m (some t),
      Function.update s.code t c⟩, []) := by
  simp only [step, hc, hm]

theorem step_unlock (hc : s.code t = .unlock m :: c) (i : ι) :
    step P s (t, i) = (⟨s.data, Function.update s.owner m none,
      Function.update s.code t c⟩, []) := by
  simp only [step, hc]

theorem step_act {a : κ} {i : ι} {d : δ} {new : Code μ κ} {notes : List ω}
    (hc : s.code t = .act a :: c) (hexec : P.exec a i s.data = some (d, new, notes)) :
    step P s (t, i) = (⟨d, s.owner, Function.update s.code t (new ++ c)⟩,
      notes.map fun note => (t, note)) := by
  simp only [step, hc, hexec]

end

/-- What a move can do: nothing, lock a free mutex, unlock, or perform an
action. -/
theorem step_cases (s : State μ δ κ) (t : Nat) (i : ι) :
    step P s (t, i) = (s, []) ∨
      (∃ m c, s.code t = .lock m :: c ∧ s.owner m = none ∧
        step P s (t, i) = (⟨s.data, Function.update s.owner m (some t),
          Function.update s.code t c⟩, [])) ∨
      (∃ m c, s.code t = .unlock m :: c ∧
        step P s (t, i) = (⟨s.data, Function.update s.owner m none,
          Function.update s.code t c⟩, [])) ∨
      ∃ a c d new notes, s.code t = .act a :: c ∧ P.exec a i s.data = some (d, new, notes) ∧
        step P s (t, i) = (⟨d, s.owner, Function.update s.code t (new ++ c)⟩,
          notes.map fun note => (t, note)) := by
  cases hc : s.code t with
  | nil => exact Or.inl (by simp only [step, hc])
  | cons instr c =>
    cases instr with
    | lock m =>
      cases ho : s.owner m with
      | none => exact Or.inr (Or.inl ⟨m, c, rfl, ho, step_lock P hc ho i⟩)
      | some t' => exact Or.inl (by simp only [step, hc, ho])
    | unlock m => exact Or.inr (Or.inr (Or.inl ⟨m, c, rfl, step_unlock P hc i⟩))
    | act a =>
      cases he : P.exec a i s.data with
      | none => exact Or.inl (by simp only [step, hc, he])
      | some out =>
        obtain ⟨d, new, notes⟩ := out
        exact Or.inr (Or.inr (Or.inr ⟨a, c, d, new, notes, rfl, he, step_act P hc he⟩))

variable {P} in
/-- **Scopes hold what they say**: every move keeps locks and code in
agreement. -/
theorem Sound.step {s : State μ δ κ} (hs : Sound P s) (move : Nat × ι) :
    Sound P (step P s move).1 := by
  obtain ⟨t, i⟩ := move
  have hcode := hs.code t
  have hnodup := hs.nodup t
  have howner := hs.owner t
  rcases step_cases P s t i with heq | ⟨m, c, hc, hfree, heq⟩ | ⟨m, c, hc, heq⟩ |
    ⟨a, c, d, new, notes, hc, hexec, heq⟩ <;> rw [heq]
  · exact hs
  · rw [hc] at hcode hnodup howner
    have hheld := held_of_lock hcode
    have hnot : m ∉ held P.owes (.lock m :: c) := by
      intro hm
      rw [(howner m).mp hm] at hfree
      cases hfree
    refine hs.update rfl hcode.2 (hheld ▸ List.nodup_cons.mpr ⟨hnot, hnodup⟩)
      (fun m' => ?_) (fun u hu m' => ?_) <;> by_cases hm : m' = m <;> dsimp only
    · simp [hm, hheld]
    · rw [hheld, Function.update_of_ne hm, ← howner m']
      simp [hm]
    · rw [hm, hfree, Function.update_self]
      simp [Ne.symm hu]
    · rw [Function.update_of_ne hm]
  · rw [hc] at hcode hnodup howner
    have hnot : m ∉ held P.owes c := (List.nodup_cons.mp hnodup).1
    have hmine : s.owner m = some t := (howner m).mp (List.mem_cons_self ..)
    refine hs.update rfl hcode (List.nodup_cons.mp hnodup).2
      (fun m' => ?_) (fun u hu m' => ?_) <;> by_cases hm : m' = m <;> dsimp only
    · simp [hm, hnot]
    · rw [Function.update_of_ne hm, ← howner m', held]
      simp [hm]
    · rw [hm, hmine, Function.update_self]
      simp [Ne.symm hu]
    · rw [Function.update_of_ne hm]
  · rw [hc] at hcode hnodup howner
    obtain ⟨hnew, howes⟩ := P.exec_scoped hexec
    have hsame : held P.owes (new ++ c) = held P.owes (.act a :: c) := by
      rw [held_append hnew, howes, held]
    exact hs.update rfl (scoped_append hnew hcode) (hsame ▸ hnodup)
      (fun m' => hsame ▸ howner m') (fun _ _ _ => Iff.rfl)

variable {P} in
theorem Sound.run {s : State μ δ κ} (hs : Sound P s) (moves : List (Nat × ι)) :
    Sound P (runFrom P s moves) :=
  Machine.run_invariant _ (fun _ move _ h => h.step move) hs

/-- A move of one thread leaves the code of the others. -/
theorem code_step_of_ne (s : State μ δ κ) {t u : Nat} (hu : u ≠ t) (i : ι) :
    (step P s (t, i)).1.code u = s.code u := by
  rcases step_cases P s t i with heq | ⟨m, c, hc, hfree, heq⟩ | ⟨m, c, hc, heq⟩ |
    ⟨a, c, d, new, notes, hc, hexec, heq⟩ <;> rw [heq]
  all_goals exact Function.update_of_ne hu ..

/-- A thread that is never scheduled keeps its code. -/
theorem code_run_of_notMem {t : Nat} {moves : List (Nat × ι)} (h : ∀ move ∈ moves, move.1 ≠ t)
    (s : State μ δ κ) : (runFrom P s moves).code t = s.code t :=
  Machine.run_invariant (step P) (I := fun s' => s'.code t = s.code t)
    (fun s' move hmove hs' => (code_step_of_ne P s' (Ne.symm (h move hmove)) move.2).trans hs') rfl

/-- An instruction ahead after a move was ahead before it, or the move performed
an action that put it there. -/
theorem mem_code_step {s : State μ δ κ} {t u : Nat} {i : ι} {instr : Instr μ κ}
    (h : instr ∈ (step P s (t, i)).1.code u) :
    instr ∈ s.code u ∨ ∃ a d new notes, a ∈ nextAct (s.code t) ∧
      P.exec a i s.data = some (d, new, notes) ∧ instr ∈ new := by
  by_cases hu : u = t
  · subst hu
    rcases step_cases P s u i with heq | ⟨m, c, hc, hfree, heq⟩ | ⟨m, c, hc, heq⟩ |
      ⟨a, c, d, new, notes, hc, hexec, heq⟩ <;> rw [heq] at h
    · exact Or.inl h
    all_goals
      simp only [Function.update_self] at h
      rw [hc]
    · exact Or.inl (List.mem_cons_of_mem _ h)
    · exact Or.inl (List.mem_cons_of_mem _ h)
    · rcases List.mem_append.mp h with hnew | hold
      · exact Or.inr ⟨a, d, new, notes, rfl, hexec, hnew⟩
      · exact Or.inl (List.mem_cons_of_mem _ hold)
  · rw [code_step_of_ne P s hu i] at h
    exact Or.inl h

/-! ## Runs of allowed moves -/

section

variable {Fits : Instr μ κ → List μ → Prop} {Allowed : κ → ι → δ → Prop}
  (hexec : ∀ {a i d d' new notes below}, P.exec a i d = some (d', new, notes) → Allowed a i d →
    Fits (.act a) (P.owes a ++ below) → AllFit P.owes Fits below new)

include hexec

/-- An allowed move keeps a fitting property of the code ahead. -/
theorem fit_step {s : State μ δ κ} (h : ∀ t, AllFit P.owes Fits [] (s.code t)) {move : Nat × ι}
    (hallowed : Permits Allowed s move) (u : Nat) :
    AllFit P.owes Fits [] ((step P s move).1.code u) := by
  obtain ⟨t, i⟩ := move
  by_cases hu : u = t
  · subst hu
    have hfit := h u
    rcases step_cases P s u i with heq | ⟨m, c, hc, hfree, heq⟩ | ⟨m, c, hc, heq⟩ |
      ⟨a, c, d, new, notes, hc, hout, heq⟩ <;> rw [heq]
    · exact hfit
    all_goals
      rw [hc] at hfit
      simp only [Function.update_self]
    · exact hfit.2
    · exact hfit.2
    · have hnext : a ∈ nextAct (s.code u) := by rw [hc]; rfl
      have hhead : Fits (.act a) (P.owes a ++ (held P.owes c ++ [])) := by
        rw [← List.append_assoc]
        exact hfit.1
      exact allFit_append (P.exec_scoped hout).1 (hexec hout (hallowed a hnext) hhead) hfit.2
  · rw [code_step_of_ne P s hu i]
    exact h u

end

omit [DecidableEq μ] in
variable {P} in
/-- A thread whose code locks nothing it holds does not wait for itself. -/
theorem Sound.not_owner_of_awaits {s : State μ δ κ} (hs : Sound P s) {t : Nat} {m : μ}
    {Fits : Instr μ κ → List μ → Prop} (hfresh : ∀ h, Fits (.lock m) h → m ∉ h)
    (hfit : AllFit P.owes Fits [] (s.code t)) (hm : m ∈ awaits (s.code t)) :
    s.owner m ≠ some t := by
  obtain ⟨c, hc⟩ := code_of_awaits hm
  rw [hc] at hfit
  have hnot := hfresh _ hfit.1
  rw [List.append_nil, ← hc] at hnot
  exact mt (hs.owner t m).mpr hnot

/-! ## One thread undisturbed -/

/-- One move of a thread whose mutexes nobody else holds, with the choice left
open. -/
inductive Alone : δ × Code μ κ → δ × Code μ κ → Prop
  | lock {d m c} : m ∉ held P.owes (.lock m :: c) → Alone (d, .lock m :: c) (d, c)
  | unlock {d m c} : Alone (d, .unlock m :: c) (d, c)
  | act {a i d d' new notes c} : P.exec a i d = some (d', new, notes) →
    Alone (d, .act a :: c) (d', new ++ c)

variable [Inhabited ι]

/-- One undisturbed move is a move of the machine, given that no mutex is held
by another thread. -/
theorem alone_step {s : State μ δ κ} (hs : Sound P s) {t : Nat}
    (hfree : ∀ m, s.owner m = none ∨ s.owner m = some t) {x : δ × Code μ κ}
    (h : Alone P (s.data, s.code t) x) :
    ∃ i : ι, ((step P s (t, i)).1.data, (step P s (t, i)).1.code t) = x ∧
      ∀ m, (step P s (t, i)).1.owner m = none ∨ (step P s (t, i)).1.owner m = some t := by
  generalize hy : (s.data, s.code t) = y at h
  cases h with
  | @lock d m c hnot =>
    obtain ⟨rfl, hc⟩ := Prod.mk.inj hy
    have hnone : s.owner m = none :=
      (hfree m).resolve_right fun hmine => hnot (hc ▸ (hs.owner t m).mpr hmine)
    refine ⟨default, ?_⟩
    rw [step_lock P hc hnone]
    refine ⟨by simp only [Function.update_self], ?_⟩
    intro m'
    by_cases hm : m' = m
    · exact Or.inr (by rw [hm]; exact Function.update_self ..)
    · simpa only [Function.update_of_ne hm] using hfree m'
  | @unlock d m c =>
    obtain ⟨rfl, hc⟩ := Prod.mk.inj hy
    refine ⟨default, ?_⟩
    rw [step_unlock P hc]
    refine ⟨by simp only [Function.update_self], ?_⟩
    intro m'
    by_cases hm : m' = m
    · exact Or.inl (by rw [hm]; exact Function.update_self ..)
    · simpa only [Function.update_of_ne hm] using hfree m'
  | @act a i d d' new notes c hexec =>
    obtain ⟨rfl, hc⟩ := Prod.mk.inj hy
    refine ⟨i, ?_⟩
    rw [step_act P hc hexec]
    exact ⟨by simp only [Function.update_self], hfree⟩

/-- **Scheduled alone**, a thread can do whatever it does undisturbed. -/
theorem reaches_run {s : State μ δ κ} (hs : Sound P s) {t : Nat}
    (hfree : ∀ m, s.owner m = none ∨ s.owner m = some t) {x : δ × Code μ κ}
    (h : Relation.ReflTransGen (Alone P) (s.data, s.code t) x) :
    ∃ choices : List ι, ((runFrom P s (choices.map (t, ·))).data,
      (runFrom P s (choices.map (t, ·))).code t) = x := by
  generalize hy : (s.data, s.code t) = y at h
  induction h using Relation.ReflTransGen.head_induction_on generalizing s with
  | refl => exact ⟨[], hy⟩
  | head hstep _ ih =>
    subst hy
    obtain ⟨i, hx, hfree'⟩ := alone_step P hs hfree hstep
    obtain ⟨choices, hrun⟩ := ih (hs.step (t, i)) hfree' hx
    exact ⟨i :: choices, hrun⟩

end

end Threads
