import MemoryPressure.BoundedQueue

/-!
# Closing a subscription while others push (`core.cpp`)

Threads push to one subscription and close it. `push` copies the callback under
`mutex_` and invokes the copy after it has unlocked, so between the two a close can
begin and return.

- `Channel`, `Channel.step`: the subscription and where each thread stands; a region
  under `mutex_`, the invocation of a callback and the return of a close are one step
  each.
- `Moves`: what a step can do, one constructor for each kind.
- `close_final_iff`: after a close has returned nothing is queued any more, and no
  callback is invoked if no close returns while a push stands between its region and
  its callback.

The two halves of finality have different reasons. Nothing is queued because `closed_` is
read in the region that queues: a step that queues finds the subscription open, and no
step opens it again (`Moves.queues_of_closed`, `Moves.closed`). That needs no condition
(`finalFor_queues`). A callback already copied is out of reach of `close`, whatever the
member `callback_` holds by then. With nothing in flight as the close returns, no push can
take off again, since a closed subscription hands out no callback (`Moves.grounded`,
`finalFor_invokes`). Conversely a push in flight that gets to its callback in the end does
so after the close has returned (`exists_invokes`, `returnsAlone_of_finalFor`).

A schedule may stop with a push in flight, which then has broken nothing yet; that is why
the exact condition is stated where every push gets to its callback, and one direction of
it everywhere. Pops, clears and changes of the callback are left out, as none of them
queues an event or invokes a callback. The callback is code of the environment and is not
run here.
-/

namespace MemoryPressure

variable {C : Type}

/-! ## Threads of one subscription -/

/-- Where a thread stands: in no call, between the region of `push` and the callback
it has copied there, or between the region of `close` and its return. -/
inductive Standing (C : Type) where
  | outside
  | holding (cb : C) (e : PressureEvent)
  | closing

namespace Standing

theorem outside_ne_holding (cb : C) (e : PressureEvent) :
    (outside : Standing C) ≠ .holding cb e := nofun

theorem closing_ne_holding (cb : C) (e : PressureEvent) :
    (closing : Standing C) ≠ .holding cb e := nofun

end Standing

/-- A subscription and where each thread stands. -/
structure Channel (C : Type) where
  sub : Subscription C
  standing : Nat → Standing C

/-- What a thread does next: the region of `push` (core.cpp:367–379), the invocation
(core.cpp:380), the region of `close` (core.cpp:402), or its return. -/
inductive ChannelMove where
  | push (t : Nat) (e : PressureEvent)
  | invoke (t : Nat)
  | close (t : Nat)
  | closeReturns (t : Nat)

/-- What a schedule notes of its moves. -/
inductive ChannelNote where
  | enqueued (e : PressureEvent)
  | invoked (t : Nat) (e : PressureEvent)
  | closeReturned (t : Nat)
  deriving DecidableEq

namespace ChannelNote

/-- A close returns. -/
def returns : ChannelNote → Bool
  | closeReturned _ => true
  | _ => false

/-- An event is queued. -/
def queues : ChannelNote → Bool
  | enqueued _ => true
  | _ => false

/-- A callback is invoked. -/
def invokes : ChannelNote → Bool
  | invoked _ _ => true
  | _ => false

end ChannelNote

/-- The standing of a thread that leaves the region of `push`. -/
def Standing.afterPush (cb : Option C) (e : PressureEvent) : Standing C :=
  match cb with
  | none => .outside
  | some cb => .holding cb e

namespace Channel

/-- Thread `t` gets somewhere else. -/
def move (s : Channel C) (t : Nat) (st : Standing C) : Channel C :=
  { s with standing := Function.update s.standing t st }

/-- One step. A thread that stands elsewhere does not take it, and a push that is
undefined goes nowhere. -/
def step (s : Channel C) : ChannelMove → Channel C × List ChannelNote
  | .push t e =>
    match s.standing t with
    | .outside =>
      match s.sub.push e with
      | none => (s, [])
      | some (sub', ok, cb) =>
        (({ s with sub := sub' } : Channel C).move t (.afterPush cb e),
          if ok then [.enqueued e] else [])
    | _ => (s, [])
  | .invoke t =>
    match s.standing t with
    | .holding _ e => (s.move t .outside, [.invoked t e])
    | _ => (s, [])
  | .close t =>
    match s.standing t with
    | .outside => (({ s with sub := s.sub.close } : Channel C).move t .closing, [])
    | _ => (s, [])
  | .closeReturns t =>
    match s.standing t with
    | .closing => (s.move t .outside, [.closeReturned t])
    | _ => (s, [])

/-- A thread stands between the region of `push` and its callback. -/
def InFlight (s : Channel C) (t : Nat) : Prop := ∃ cb e, s.standing t = .holding cb e

/-- What a step can do. -/
inductive Moves (s : Channel C) : ChannelMove → Channel C × List ChannelNote → Prop
  | stays (mv) : Moves s mv (s, [])
  | pushes {t e out} : s.standing t = .outside → s.sub.Pushes e out →
      Moves s (.push t e) (({ s with sub := out.1 } : Channel C).move t (.afterPush out.2.2 e),
        if out.2.1 then [.enqueued e] else [])
  | invokes {t cb e} : s.standing t = .holding cb e →
      Moves s (.invoke t) (s.move t .outside, [.invoked t e])
  | closes {t} : s.standing t = .outside →
      Moves s (.close t) (({ s with sub := s.sub.close } : Channel C).move t .closing, [])
  | returns {t} : s.standing t = .closing →
      Moves s (.closeReturns t) (s.move t .outside, [.closeReturned t])

/-- **One step** is one of the moves. -/
theorem step_moves (s : Channel C) (mv : ChannelMove) : Moves s mv (s.step mv) := by
  cases mv with
  | push t e =>
    cases hst : s.standing t with
    | outside =>
      cases hpush : s.sub.push e with
      | none =>
        simp only [step, hst, hpush]
        exact .stays _
      | some out =>
        simp only [step, hst, hpush]
        exact .pushes hst (Subscription.pushes_of_push hpush)
    | _ =>
      simp only [step, hst]
      exact .stays _
  | invoke t =>
    cases hst : s.standing t with
    | holding cb e =>
      simp only [step, hst]
      exact .invokes hst
    | _ =>
      simp only [step, hst]
      exact .stays _
  | close t =>
    cases hst : s.standing t with
    | outside =>
      simp only [step, hst]
      exact .closes hst
    | _ =>
      simp only [step, hst]
      exact .stays _
  | closeReturns t =>
    cases hst : s.standing t with
    | closing =>
      simp only [step, hst]
      exact .returns hst
    | _ =>
      simp only [step, hst]
      exact .stays _

/-! ## What a step keeps -/

section

variable {s : Channel C} {mv : ChannelMove} {out : Channel C × List ChannelNote}

theorem standing_move_self (s : Channel C) (t : Nat) (st : Standing C) :
    (s.move t st).standing t = st := Function.update_self ..

theorem standing_move_of_ne (s : Channel C) {t u : Nat} (h : u ≠ t) (st : Standing C) :
    (s.move t st).standing u = s.standing u := Function.update_of_ne h ..

/-- A subscription that is being closed is closed. -/
def ClosingClosed (s : Channel C) : Prop := ∀ t, s.standing t = .closing → s.sub.closed = true

/-- A thread that was in flight still is, or has invoked its callback. -/
theorem Moves.inFlight {u : Nat} (h : Moves s mv out) (hu : s.InFlight u) :
    out.1.InFlight u ∨ ∃ note ∈ out.2, note.invokes = true := by
  obtain ⟨cb, e, hu⟩ := hu
  have hother : ∀ {t : Nat} {st : Standing C}, s.standing t = st → (∀ cb e, st ≠ .holding cb e) →
      u ≠ t := by
    rintro t st ht hne rfl
    exact hne cb e (ht.symm.trans hu)
  cases h with
  | stays => exact .inl ⟨cb, e, hu⟩
  | pushes hst _ =>
    exact .inl ⟨cb, e, (standing_move_of_ne _ (hother hst Standing.outside_ne_holding) _).trans hu⟩
  | invokes _ => exact .inr ⟨_, List.mem_singleton_self _, rfl⟩
  | closes hst =>
    exact .inl ⟨cb, e, (standing_move_of_ne _ (hother hst Standing.outside_ne_holding) _).trans hu⟩
  | returns hst =>
    exact .inl ⟨cb, e, (standing_move_of_ne _ (hother hst Standing.closing_ne_holding) _).trans hu⟩

/-- Closed is closed. -/
theorem Moves.closed (h : Moves s mv out) (hclosed : s.sub.closed = true) :
    out.1.sub.closed = true := by
  cases h with
  | pushes _ hpush => exact hpush.closed_eq.trans hclosed
  | closes _ => rfl
  | _ => exact hclosed

theorem Moves.closingClosed (h : Moves s mv out) (hs : ClosingClosed s) : ClosingClosed out.1 := by
  -- a thread that was closing before has closed; no other becomes so but by closing
  have hkeep : ∀ (t u : Nat) (st : Standing C), st ≠ .closing →
      (s.move t st).standing u = .closing → s.sub.closed = true := by
    intro t u st hst hu
    by_cases heq : u = t
    · rw [heq, standing_move_self] at hu
      exact absurd hu hst
    · rw [standing_move_of_ne _ heq] at hu
      exact hs u hu
  intro u hu
  cases h with
  | stays => exact hs u hu
  | @pushes t e out hst hpush =>
    refine hpush.closed_eq.trans (hkeep t u (.afterPush out.2.2 e) ?_ hu)
    cases out.2.2 <;> exact nofun
  | @invokes t cb e hst => exact hkeep t u .outside nofun hu
  | closes hst => rfl
  | @returns t hst => exact hkeep t u .outside nofun hu

/-- A step puts out one note at most. -/
theorem Moves.length_le (h : Moves s mv out) : out.2.length ≤ 1 := by
  cases h with
  | pushes _ _ =>
    dsimp only
    split_ifs <;> simp
  | _ => simp

/-- A step that notes the return of a close is one. -/
theorem Moves.of_returns (h : Moves s mv out) {note : ChannelNote} (hnote : note ∈ out.2)
    (hreturns : note.returns = true) : ∃ t, mv = .closeReturns t ∧ s.standing t = .closing := by
  cases h with
  | stays => cases hnote
  | pushes _ _ =>
    dsimp only at hnote
    split_ifs at hnote
    · obtain rfl := List.mem_singleton.mp hnote
      cases hreturns
    · cases hnote
  | invokes _ =>
    obtain rfl := List.mem_singleton.mp hnote
    cases hreturns
  | closes _ => cases hnote
  | returns hst => exact ⟨_, rfl, hst⟩

/-- Nothing is queued on a closed subscription. -/
theorem Moves.queues_of_closed (h : Moves s mv out) (hclosed : s.sub.closed = true) :
    ∀ note ∈ out.2, note.queues = false := by
  cases h with
  | stays => exact List.forall_mem_nil _
  | pushes _ hpush =>
    rw [hpush.eq_of_closed hclosed]
    exact List.forall_mem_nil _
  | invokes _ => exact List.forall_mem_singleton.mpr rfl
  | closes _ => exact List.forall_mem_nil _
  | returns _ => exact List.forall_mem_singleton.mpr rfl

/-- With nothing in flight no callback of a closed subscription is invoked, and
nothing takes off. -/
theorem Moves.grounded (h : Moves s mv out) (hclosed : s.sub.closed = true)
    (hnone : ∀ u, ¬ s.InFlight u) :
    (∀ note ∈ out.2, note.invokes = false) ∧ ∀ u, ¬ out.1.InFlight u := by
  have hkeep : ∀ {s' : Channel C} {t : Nat} {st : Standing C}, s'.standing = s.standing →
      (∀ cb e, st ≠ .holding cb e) → ∀ u, ¬ (s'.move t st).InFlight u := by
    rintro s' t st hsame hst u ⟨cb, e, hu⟩
    by_cases heq : u = t
    · rw [heq, standing_move_self] at hu
      exact hst cb e hu
    · rw [standing_move_of_ne _ heq, hsame] at hu
      exact hnone u ⟨cb, e, hu⟩
  cases h with
  | stays => exact ⟨List.forall_mem_nil _, hnone⟩
  | pushes _ hpush =>
    rw [hpush.eq_of_closed hclosed]
    exact ⟨List.forall_mem_nil _, hkeep rfl Standing.outside_ne_holding⟩
  | invokes hst => exact absurd ⟨_, _, hst⟩ (hnone _)
  | closes _ => exact ⟨List.forall_mem_nil _, hkeep rfl Standing.closing_ne_holding⟩
  | returns _ => exact ⟨List.forall_mem_singleton.mpr rfl, hkeep rfl Standing.outside_ne_holding⟩

end

/-! ## Runs -/

/-- Everything noted along a schedule. -/
abbrev notes (s : Channel C) (mvs : List ChannelMove) : List ChannelNote :=
  Machine.outputs Channel.step s mvs

/-- Where a schedule leads. -/
abbrev runFrom (s : Channel C) (mvs : List ChannelMove) : Channel C :=
  Machine.run Channel.step s mvs

theorem notes_queues_of_closed {s : Channel C} (hclosed : s.sub.closed = true)
    (mvs : List ChannelMove) : ∀ note ∈ s.notes mvs, note.queues = false := by
  induction mvs generalizing s with
  | nil => exact List.forall_mem_nil _
  | cons mv mvs ih =>
    have hmoves := s.step_moves mv
    rw [notes, Machine.outputs_cons, List.forall_mem_append]
    exact ⟨hmoves.queues_of_closed hclosed, ih (hmoves.closed hclosed)⟩

theorem notes_grounded {s : Channel C} (hclosed : s.sub.closed = true)
    (hnone : ∀ u, ¬ s.InFlight u) (mvs : List ChannelMove) :
    ∀ note ∈ s.notes mvs, note.invokes = false := by
  induction mvs generalizing s with
  | nil => exact List.forall_mem_nil _
  | cons mv mvs ih =>
    have hmoves := s.step_moves mv
    obtain ⟨hout, hnone'⟩ := hmoves.grounded hclosed hnone
    rw [notes, Machine.outputs_cons, List.forall_mem_append]
    exact ⟨hout, ih (hmoves.closed hclosed) hnone'⟩

/-- A push that is in flight and is not in the end has invoked its callback. -/
theorem exists_invokes {s : Channel C} {u : Nat} (hu : s.InFlight u) {mvs : List ChannelMove}
    (hend : ¬ (s.runFrom mvs).InFlight u) : ∃ note ∈ s.notes mvs, note.invokes = true := by
  induction mvs generalizing s with
  | nil => exact absurd hu hend
  | cons mv mvs ih =>
    rw [notes, Machine.outputs_cons]
    rcases (s.step_moves mv).inFlight hu with hu' | ⟨note, hnote, hinvokes⟩
    · obtain ⟨note, hnote, hinvokes⟩ := ih hu' hend
      exact ⟨note, List.mem_append_right _ hnote, hinvokes⟩
    · exact ⟨note, List.mem_append_left _ hnote, hinvokes⟩

end Channel

/-! ## Close is final -/

/-- No note of a kind follows the return of a close. -/
def FinalFor (kind : ChannelNote → Bool) (notes : List ChannelNote) : Prop :=
  notes.Pairwise fun earlier later => earlier.returns = true → kind later = false

/-- No close returns while a push is in flight. -/
def ReturnsAlone (s : Channel C) (mv : ChannelMove) : Prop :=
  ∀ t, mv = .closeReturns t → s.standing t = .closing → ∀ u, ¬ s.InFlight u

/-- What a step adds in front. -/
theorem finalFor_cons {s : Channel C} {mv : ChannelMove} {mvs : List ChannelMove}
    (kind : ChannelNote → Bool) :
    FinalFor kind (s.notes (mv :: mvs)) ↔
      FinalFor kind ((s.step mv).1.notes mvs) ∧
        ∀ note ∈ (s.step mv).2, note.returns = true →
          ∀ later ∈ (s.step mv).1.notes mvs, kind later = false := by
  have hone : (s.step mv).2.Pairwise fun earlier later =>
      earlier.returns = true → kind later = false := by
    have hlen := (s.step_moves mv).length_le
    rw [List.pairwise_iff_getElem]
    intro i j _ hj hij
    omega
  rw [FinalFor, Channel.notes, Machine.outputs_cons, List.pairwise_append, and_iff_right hone]
  refine and_congr_right fun _ => ?_
  constructor
  · intro h note hnote hreturns later hlater
    exact h note hnote later hlater hreturns
  · intro h note hnote later hlater hreturns
    exact h note hnote hreturns later hlater

/-- **No event is queued** after a close has returned. -/
theorem finalFor_queues {s : Channel C} (hs : s.ClosingClosed) (mvs : List ChannelMove) :
    FinalFor ChannelNote.queues (s.notes mvs) := by
  induction mvs generalizing s with
  | nil => exact List.Pairwise.nil
  | cons mv mvs ih =>
    have hmoves := s.step_moves mv
    refine (finalFor_cons _).mpr ⟨ih (hmoves.closingClosed hs), ?_⟩
    intro note hnote hreturns
    obtain ⟨t, -, hst⟩ := hmoves.of_returns hnote hreturns
    exact Channel.notes_queues_of_closed (hmoves.closed (hs t hst)) mvs

/-- **No callback is invoked** after a close has returned that left no push in flight. -/
theorem finalFor_invokes {s : Channel C} (hs : s.ClosingClosed) {mvs : List ChannelMove}
    (halone : Machine.Along Channel.step ReturnsAlone s mvs) :
    FinalFor ChannelNote.invokes (s.notes mvs) := by
  induction mvs generalizing s with
  | nil => exact List.Pairwise.nil
  | cons mv mvs ih =>
    have hmoves := s.step_moves mv
    refine (finalFor_cons _).mpr ⟨ih (hmoves.closingClosed hs) halone.2, ?_⟩
    intro note hnote hreturns
    obtain ⟨t, heq, hst⟩ := hmoves.of_returns hnote hreturns
    have hclosed := hs t hst
    obtain ⟨-, hnone⟩ := hmoves.grounded hclosed (halone.1 t heq hst)
    exact Channel.notes_grounded (hmoves.closed hclosed) hnone mvs

/-- Where every push gets to its callback in the end, this is the only way. -/
theorem returnsAlone_of_finalFor {s : Channel C} {mvs : List ChannelMove}
    (hend : ∀ u, ¬ (s.runFrom mvs).InFlight u) (h : FinalFor ChannelNote.invokes (s.notes mvs)) :
    Machine.Along Channel.step ReturnsAlone s mvs := by
  induction mvs generalizing s with
  | nil => trivial
  | cons mv mvs ih =>
    obtain ⟨hrest, hlater⟩ := (finalFor_cons _).mp h
    refine ⟨?_, ih hend hrest⟩
    rintro t rfl hst u hu
    have hstep : s.step (.closeReturns t) = (s.move t .outside, [.closeReturned t]) := by
      simp only [Channel.step, hst]
    have hu' : (s.step (.closeReturns t)).1.InFlight u := by
      rcases (s.step_moves (.closeReturns t)).inFlight hu with hu' | ⟨note, hnote, hinvokes⟩
      · exact hu'
      · rw [hstep] at hnote
        obtain rfl := List.mem_singleton.mp hnote
        cases hinvokes
    obtain ⟨note, hnote, hinvokes⟩ := Channel.exists_invokes hu' (hend u)
    have hnot := hlater (.closeReturned t) (by rw [hstep]; exact List.mem_singleton_self _) rfl
      note hnote
    rw [hinvokes] at hnot
    cases hnot

/-- **Close is final**, under any schedule of pushes and closes: after a close has returned
no event is queued; no callback is invoked either if no close returns while a push stands
between its region and its callback, and where every push gets to its callback only then.
Nothing is queued because the region that queues reads `closed_` itself; the callback has
been copied before, and no member is read when it is invoked. -/
theorem close_final_iff (sub : Subscription C) (mvs : List ChannelMove) :
    let s₀ : Channel C := { sub := sub, standing := fun _ => .outside }
    FinalFor ChannelNote.queues (s₀.notes mvs) ∧
      (Machine.Along Channel.step ReturnsAlone s₀ mvs →
        FinalFor ChannelNote.invokes (s₀.notes mvs)) ∧
      ((∀ u, ¬ (s₀.runFrom mvs).InFlight u) → FinalFor ChannelNote.invokes (s₀.notes mvs) →
        Machine.Along Channel.step ReturnsAlone s₀ mvs) := by
  intro s₀
  have hstart : s₀.ClosingClosed := nofun
  exact ⟨finalFor_queues hstart mvs, finalFor_invokes hstart, returnsAlone_of_finalFor⟩

/-- A close that returns after the callback: a later push does nothing. -/
theorem close_final_after_callback :
    let s₀ : Channel Unit := { sub := { callback := some () }, standing := fun _ => .outside }
    let mvs : List ChannelMove :=
      [.push 0 {}, .close 1, .invoke 0, .closeReturns 1, .push 0 {}]
    FinalFor ChannelNote.invokes (s₀.notes mvs) := by
  intro s₀ mvs
  refine (close_final_iff _ mvs).2.1 ⟨nofun, nofun, nofun, ?_, nofun, trivial⟩
  rintro t - - u ⟨cb, e, hu⟩
  by_cases hzero : u = 0
  · subst hzero
    cases hu
  · by_cases hone : u = 1
    · subst hone
      cases hu
    · have hout : Function.update (Function.update (Function.update (fun _ => Standing.outside) 0
          (.holding () {})) 1 .closing) 0 .outside u = (Standing.holding cb e : Standing Unit) := hu
      rw [Function.update_of_ne hzero, Function.update_of_ne hone, Function.update_of_ne hzero]
        at hout
      cases hout

/-- One thread pushes to a subscription with a callback while another closes it: the
callback is invoked after the close has returned. -/
theorem close_not_final :
    let s₀ : Channel Unit := { sub := { callback := some () }, standing := fun _ => .outside }
    let mvs : List ChannelMove := [.push 0 {}, .close 1, .closeReturns 1, .invoke 0]
    s₀.notes mvs = [.enqueued {}, .closeReturned 1, .invoked 0 {}] ∧
      ¬ FinalFor ChannelNote.invokes (s₀.notes mvs) := by
  intro s₀ mvs
  have hnotes : s₀.notes mvs = [.enqueued {}, .closeReturned 1, .invoked 0 {}] := rfl
  refine ⟨hnotes, ?_⟩
  rw [hnotes, FinalFor]
  decide

end MemoryPressure
