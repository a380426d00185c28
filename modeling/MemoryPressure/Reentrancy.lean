import MemoryPressure.Concurrency

/-!
# Callbacks and locks

`Subscription::push` unlocks its own mutex before it invokes the callback, but
`refresh` delivers its events inside the scope of `refresh_mutex_`: a callback
runs unlocked when user code pushes an event itself, and under `refresh_mutex_`
whenever it is a refresh that delivers.

- `Fits`: the locking discipline, as a property of each instruction ahead and of the
  mutexes held when it is reached. Outside of `refresh` an action stands where nothing is
  held (`Action.under`), inside of it where `refresh_mutex_` is.
- `Expands.fit`: what an action puts in front keeps the discipline, unless the action
  invokes a callback on a delivered event. `Threads.fit_step` carries that along runs.
- `callbacks_unlocked_iff`: along a schedule no callback runs under a mutex, and no thread
  waits for a mutex of its own, exactly when no delivered event is handed to a callback.
- `no_delivered_callback`: it is enough that the subscriptions that accept the events of
  a refresh have no callback.
- `callback_waits_for_itself`: a callback on a delivered event that calls `set_policy`
  waits for `refresh_mutex_`, which its own thread holds.

Waiting for another thread is not excluded here, nor is a deadlock of two threads: the
discipline is about one thread and the mutexes it has itself. As everywhere in this model
(`Concurrency.lean`), a provider that is polled does not call the runtime; one that did
would call from under `refresh_mutex_` too.
-/

namespace MemoryPressure

variable {F C : Type} [Double F]

open Threads (Instr AllFit Fitting)

/-- The action invokes a callback. -/
def Action.invokes : Action F C → Bool
  | .invoke _ _ _ _ => true
  | _ => false

/-- The action invokes a callback on an event that a refresh delivers. -/
def Action.delivers : Action F C → Bool
  | .invoke _ _ _ (some _) => true
  | _ => false

/-- The move invokes no callback while its thread holds a mutex, and its thread
does not wait for a mutex it holds. -/
def CallbackUnlocked (s : System F C) (move : Nat × Choice F C) : Prop :=
  (∀ a ∈ Threads.nextAct (s.code move.1), a.invokes = true → ∀ m, s.owner m ≠ some move.1) ∧
    ∀ m ∈ Threads.awaits (s.code move.1), s.owner m ≠ some move.1

/-- The move does not invoke a callback on an event that a refresh delivers. -/
abbrev NoDeliveredCallback (s : System F C) (move : Nat × Choice F C) : Prop :=
  Threads.Permits (fun a _ _ => a.delivers = false) s move

/-! ## What is held where -/

/-- The mutexes held underneath an action that expands further: none in user code
and what it calls, `refresh_mutex_` in the body of `refresh`. -/
def Action.under : Action F C → Option (List Mutex)
  | .user | .readDomain _ | .push _ _ none | .pushLocked _ _ none | .invoke _ _ _ none
  | .resume none => some []
  | .loadPolicy _ | .copyBudgets _ _ | .copyProviders _ _ _ | .poll _ _ _ _ _ | .interpret _ _ _ _
  | .conclude _ _ _ _ | .deliver _ | .copySubscriptions _ _ | .offer _ | .readClosed _ _
  | .push _ _ (some _) | .pushLocked _ _ (some _) | .invoke _ _ _ (some _)
  | .resume (some _) => some [.refresh]
  | _ => none

/-- No instruction locks a mutex its thread holds, and actions stand where they
belong. -/
def Fits : Instr Mutex (Action F C) → List Mutex → Prop
  | .lock m, h => m ∉ h
  | .unlock _, _ => True
  | .act a, h => ∀ under ∈ a.under, h = a.owes ++ under

theorem under_of_isLeaf {a : Action F C} (h : a.isLeaf = true) : a.under = none := by
  cases a <;> first
    | rfl
    | cases h

theorem fits_leaf {a : Action F C} (h : a.isLeaf = true) (held : List Mutex) :
    Fits (.act a) held := fun _ hu => by
  rw [under_of_isLeaf h] at hu
  cases hu

theorem fit_guarded {m : Mutex} {a : Action F C} {below : List Mutex} (hm : m ∉ below)
    (ha : a.isLeaf = true) : Fitting Action.owes Fits below (guarded m a) := by
  refine ⟨balanced_guarded ha, ?_, fits_leaf ha _, trivial, trivial⟩
  show m ∉ Threads.held Action.owes (guarded m a) ++ below
  rw [(balanced_guarded ha).held_eq]
  exact hm

theorem fit_leaf {a : Action F C} {below : List Mutex} (ha : a.isLeaf = true) :
    Fitting Action.owes Fits below [.act a] :=
  ⟨balanced_act (owes_of_isLeaf ha), fits_leaf ha _, trivial⟩

theorem allFit_act {a : Action F C} {under : List Mutex} (h : a.under = some under) :
    AllFit Action.owes Fits under [.act a] := by
  refine ⟨fun under' hu => ?_, trivial⟩
  obtain rfl := Option.some.inj (h.symm.trans hu)
  rw [Threads.held, Threads.held, List.append_nil]

theorem fit_act {a : Action F C} {under : List Mutex} (howes : a.owes = [])
    (h : a.under = some under) : Fitting Action.owes Fits under [.act a] :=
  ⟨balanced_act howes, allFit_act h⟩

/-- The first half of a scope whose result goes on. -/
theorem allFit_scope {m : Mutex} {a : Action F C} {under : List Mutex} (hm : m ∉ under)
    (howes : a.owes = [m]) (h : a.under = some under) :
    AllFit Action.owes Fits under [.lock m, .act a] := by
  refine ⟨?_, allFit_act h⟩
  show m ∉ Threads.held Action.owes [.lock m, .act a] ++ under
  rw [Threads.held, Threads.held, howes]
  exact hm

/-- A call fits where nothing is held. -/
theorem Call.fit (c : Call F C) : AllFit Action.owes Fits [] c.code := by
  have hguarded : ∀ (m : Mutex) {a : Action F C}, a.isLeaf = true →
      Fitting Action.owes Fits [] (guarded m a) := fun m _ ha => fit_guarded List.not_mem_nil ha
  cases c with
  | setPolicy p =>
    rw [Call.code]
    split_ifs
    · trivial
    · exact (((hguarded _ rfl).append (fit_leaf rfl)).append (hguarded _ rfl)).fits
  | setBudget id b =>
    rw [Call.code]
    split_ifs
    · trivial
    · exact (hguarded _ rfl).fits
  | currentPolicy | setHistoryLimit => exact (fit_leaf rfl).fits
  | push n e => exact allFit_act rfl
  | admitBytes id => exact allFit_scope List.not_mem_nil rfl rfl
  | refresh nowMs =>
    refine ⟨List.not_mem_nil, fun under hu => ?_, trivial, trivial⟩
    obtain rfl := Option.some.inj hu
    rfl
  | _ => exact (hguarded _ rfl).fits

theorem Delivery.fit (dl : Option Delivery) {below : List Mutex}
    (h : ∀ d, dl = some d → below = [.refresh]) :
    AllFit Action.owes Fits below (Delivery.code dl : Code F C) := by
  cases dl with
  | none => trivial
  | some d =>
    obtain rfl := h d rfl
    exact allFit_act rfl

theorem interpretCode_fit (transitions : Nat) {next : Action F C} (howes : next.owes = [])
    (hnext : next.under = some [.refresh]) :
    AllFit Action.owes Fits [.refresh] (interpretCode transitions next) := by
  have hcounts : Fitting Action.owes Fits [.refresh]
      (List.replicate transitions (guarded .stats (.countTransition : Action F C))).flatten :=
    .flatten fun c hc => List.eq_of_mem_replicate hc ▸ fit_guarded (by decide) rfl
  exact ((hcounts.append (fit_guarded (by decide) rfl)).append (fit_act howes hnext)).fits

theorem concludeCode_fit (changed : Bool) (pub : Published F) (observations : Nat) :
    AllFit Action.owes Fits [.refresh] (concludeCode (C := C) changed pub observations) := by
  have hgen : Fitting Action.owes Fits [.refresh]
      (if changed then guarded .stats (.countGeneration : Action F C) else []) := by
    split_ifs
    · exact fit_guarded (by decide) rfl
    · exact .nil
  have hrequests : Fitting Action.owes Fits [.refresh]
      ((pub.events.filter fun e => e.type.isRequest).flatMap fun e =>
        guarded .stats (.countRequest e.type : Action F C)) := by
    rw [List.flatMap]
    refine .flatten ?_
    intro c hc
    obtain ⟨e, -, rfl⟩ := List.mem_map.mp hc
    exact fit_guarded (by decide) rfl
  exact ((((hgen.append hrequests).append (fit_guarded (by decide) rfl)).append
    (fit_guarded (by decide) rfl)).append (fit_act rfl rfl)).fits

/-- **What an action expands to fits** where the action stood, unless it invokes a
callback on a delivered event. -/
theorem Expands.fit {a : Action F C} {new : Code F C} (h : Expands a new) {below : List Mutex}
    (hallowed : a.delivers = false) (hfit : Fits (.act a) (a.owes ++ below)) :
    AllFit Action.owes Fits below new := by
  have hbelow : ∀ under ∈ a.under, below = under := fun under hu =>
    List.append_cancel_left (hfit under hu)
  cases h with
  | leaf | leave | escaped | delivered | thrown => trivial
  | call c =>
    obtain rfl := hbelow [] rfl
    exact Threads.allFit_append c.balanced.scoped_self c.fit (allFit_act rfl)
  | readDomain id known =>
    obtain rfl := hbelow [] rfl
    refine ⟨trivial, ?_⟩
    split_ifs
    · exact (fit_guarded List.not_mem_nil rfl).fits
    · trivial
  | loadPolicy | deliver | offer =>
    obtain rfl := hbelow [.refresh] rfl
    exact allFit_scope (by simp) rfl rfl
  | copyBudgets =>
    obtain rfl := hbelow [.refresh] rfl
    exact ⟨trivial, allFit_scope (by simp) rfl rfl⟩
  | copyProviders | copySubscriptions | isClosed | isOpen =>
    obtain rfl := hbelow [.refresh] rfl
    exact ⟨trivial, allFit_act rfl⟩
  | polled | offered =>
    obtain rfl := hbelow [.refresh] rfl
    exact allFit_act rfl
  | poll nowMs pol budgets log log' name names failed =>
    obtain rfl := hbelow [.refresh] rfl
    split_ifs
    · exact ((fit_guarded (by decide) rfl).append (fit_act rfl rfl)).fits
    · exact allFit_act rfl
  | interpret =>
    obtain rfl := hbelow [.refresh] rfl
    exact interpretCode_fit _ rfl rfl
  | conclude =>
    obtain rfl := hbelow [.refresh] rfl
    exact concludeCode_fit _ _ _
  | misses n e dl => exact Delivery.fit dl fun d hd => hbelow [.refresh] (by rw [hd]; rfl)
  | pushes n e dl =>
    cases dl with
    | none =>
      obtain rfl := hbelow [] rfl
      exact allFit_scope List.not_mem_nil rfl rfl
    | some d =>
      obtain rfl := hbelow [.refresh] rfl
      exact allFit_scope (by simp) rfl rfl
  | queued n e dl =>
    exact ⟨trivial, Delivery.fit dl fun d hd => hbelow [.refresh] (by rw [hd]; rfl)⟩
  | calls n e dl cb =>
    refine ⟨trivial, ?_⟩
    cases dl with
    | none =>
      obtain rfl := hbelow [] rfl
      exact allFit_act rfl
    | some d =>
      obtain rfl := hbelow [.refresh] rfl
      exact allFit_act rfl
  | invoke n cb e dl =>
    cases dl with
    | none =>
      obtain rfl := hbelow [] rfl
      exact ⟨fun under hu => by obtain rfl := Option.some.inj hu; rfl, allFit_act rfl⟩
    | some d => cases hallowed
  | resume dl => exact Delivery.fit dl fun d hd => hbelow [.refresh] (by rw [hd]; rfl)

/-! ## Callbacks along runs -/

/-- The threads are where they belong: locks agree with code and the code of
every thread fits. -/
structure InPlace (s : System F C) : Prop where
  sound : Threads.Sound program s
  fits : ∀ t, AllFit Action.owes Fits [] (s.code t)

theorem inPlace_quiet (d : Shared F C) : InPlace (quiet d) :=
  ⟨sound_quiet d, fun _ => allFit_act rfl⟩

theorem InPlace.step {s : System F C} (hs : InPlace s) {move : Nat × Choice F C}
    (hmove : NoDeliveredCallback s move) : InPlace (Threads.step program s move).1 :=
  ⟨hs.sound.step move, Threads.fit_step program
    (fun hexec hallowed hfit => (Action.exec_expands hexec).fit hallowed hfit) hs.fits hmove⟩

/-- What is held when a thread is about to invoke a callback. -/
theorem InPlace.held_invoke {s : System F C} (hs : InPlace s) {t : Nat} {a : Action F C}
    (ha : a ∈ Threads.nextAct (s.code t)) (hinv : a.invokes = true) (m : Mutex) :
    s.owner m = some t ↔ a.delivers = true ∧ m = .refresh := by
  obtain ⟨c, hc⟩ := Threads.code_of_nextAct ha
  have hfit := hs.fits t
  rw [hc] at hfit
  have hheld : ∀ under ∈ a.under, Threads.held Action.owes (s.code t) = a.owes ++ under :=
    fun under hu => by
      rw [hc, ← List.append_nil (Threads.held _ _)]
      exact hfit.1 under hu
  rw [← hs.sound.owner t m]
  show m ∈ Threads.held Action.owes (s.code t) ↔ _
  cases a with
  | invoke n cb e dl =>
    cases dl with
    | none =>
      rw [hheld [] rfl]
      exact ⟨fun hm => (by cases hm), fun h => (by cases h.1)⟩
    | some d =>
      rw [hheld [.refresh] rfl]
      exact ⟨fun hm => ⟨rfl, List.mem_singleton.mp hm⟩, fun h => List.mem_singleton.mpr h.2⟩
  | _ => cases hinv

/-- **When a move is free of the defect**: exactly when it invokes no callback on
an event that a refresh delivers. -/
theorem InPlace.unlocked_iff {s : System F C} (hs : InPlace s) (move : Nat × Choice F C) :
    NoDeliveredCallback s move ↔ CallbackUnlocked s move := by
  constructor
  · intro hmove
    refine ⟨fun a ha hinv m hm => ?_, fun m hm => ?_⟩
    · have hdelivers := ((hs.held_invoke ha hinv m).mp hm).1
      rw [hmove a ha] at hdelivers
      cases hdelivers
    · exact hs.sound.not_owner_of_awaits (show ∀ h, Fits (.lock m) h → m ∉ h from fun _ h => h)
        (hs.fits move.1) hm
  · intro h a ha
    by_contra hdelivers
    rw [Bool.not_eq_false] at hdelivers
    have hinv : a.invokes = true := by
      cases a <;> first
        | rfl
        | cases hdelivers
    exact h.1 a ha hinv .refresh ((hs.held_invoke ha hinv .refresh).mpr ⟨hdelivers, rfl⟩)

/-- **When callbacks run unlocked**: along every schedule, no callback is invoked by a
thread that holds a mutex and no thread waits for a mutex of its own, exactly when no
callback is invoked on an event that a refresh delivers. A push by user code itself is
always safe: it unlocks before it calls back. A delivery by `refresh` never is, since the
loop stands in the scope of `refresh_mutex_`. -/
theorem callbacks_unlocked_iff (moves : List (Nat × Choice F C)) :
    Machine.Along (Threads.step program) CallbackUnlocked (quiet {}) moves
      ↔ Machine.Along (Threads.step program) NoDeliveredCallback (quiet {}) moves :=
  (Machine.along_iff _ (I := InPlace) (fun _ _ _ hs hmove => hs.step hmove)
    (fun _ move _ hs => hs.unlocked_iff move) (inPlace_quiet {})).symm

/-! ## Where delivered callbacks come from -/

/-- The action is a push of a delivered event that the subscription accepts while
it has a callback. -/
def Action.handsOut (d : Shared F C) : Action F C → Prop
  | .pushLocked n _ (some _) => ∃ s ∈ d.subscriptions[n]?, s.Accepts ∧ s.callback.isSome
  | _ => False

theorem not_delivers_of_isPlain {a : Action F C} (h : a.isPlain = true) : a.delivers = false := by
  cases a with
  | invoke n cb e dl =>
    cases dl with
    | none => rfl
    | some d => cases h
  | _ => rfl

theorem Call.setPolicy_not_delivers (p : PressurePolicy F) {a : Action F C}
    (h : Instr.act a ∈ (Call.setPolicy p : Call F C).code) : a.delivers = false := by
  rw [Call.code] at h
  split_ifs at h
  · cases h
  · simp only [guarded, List.mem_append, List.mem_cons, List.not_mem_nil, or_false, reduceCtorEq,
      false_or, Instr.act.injEq] at h
    rcases h with (rfl | rfl) | rfl <;> rfl

/-- A push that goes on to invoke a callback was accepted with one. -/
theorem handsOut_of_calls {n : Nat} {e : PressureEvent} {dl : Delivery} {cb : C}
    (choice : Choice F C) {d d' : Shared F C} {c : Code F C} {notes : List (Note F C)}
    (h : (Action.pushLocked n e (some dl)).exec choice d
      = some (d', .unlock (.subscription n) :: .act (.invoke n cb e (some dl)) :: c, notes)) :
    (Action.pushLocked n e (some dl) : Action F C).handsOut d := by
  simp only [Action.exec] at h
  cases hs : d.subscriptions[n]? with
  | none => simp [hs] at h
  | some s =>
    cases hpush : s.pushLocked e with
    | none => simp [hs, hpush] at h
    | some out =>
      obtain ⟨s', ok, cb'⟩ := out
      refine ⟨s, hs, (Subscription.pushLocked_callback hpush).mp ?_⟩
      cases cb' with
      | none => simp [hs, hpush, Delivery.code] at h
      | some cb' => rfl

/-- A run in which no delivered event is accepted by a subscription that has a
callback invokes no callback on a delivered event. -/
theorem no_delivered_callback {moves : List (Nat × Choice F C)}
    (h : Machine.Along (Threads.step program)
      (Threads.Permits fun a _ d => ¬ a.handsOut d) (quiet {}) moves) :
    Machine.Along (Threads.step program) NoDeliveredCallback (quiet {}) moves := by
  refine Machine.along_mono _
    (I := fun s : System F C => ∀ t a, Instr.act a ∈ s.code t → a.delivers = false)
    (fun s move hmove hs t a ha => ?_) (fun s move hs _ a ha => ?_) (fun t a ha => ?_) h
  · rcases Threads.mem_code_step program ha with hold | ⟨b, d, new, notes, hb, hexec, hnew⟩
    · exact hs t a hold
    rcases (Action.exec_expands hexec).special_or_plain with hspecial | hplain
    · cases hspecial with
      | setPolicy p =>
        rcases List.mem_append.mp hnew with hcall | huser
        · exact Call.setPolicy_not_delivers p hcall
        · obtain rfl := Instr.act.inj (List.mem_singleton.mp huser)
          rfl
      | callback n e dl cb => exact absurd (handsOut_of_calls move.2 hexec) (hmove _ hb)
    · exact not_delivers_of_isPlain (hplain a hnew)
  · obtain ⟨c, hc⟩ := Threads.code_of_nextAct ha
    exact hs move.1 a (by rw [hc]; exact List.mem_cons_self ..)
  · obtain rfl := Instr.act.inj (List.mem_singleton.mp ha)
    rfl

/-- A thread subscribes with a callback and refreshes; the next move invokes the
callback on the event of the new generation. -/
def deliveringMoves : List (Nat × Choice ℚ Unit) :=
  (0, .call (.subscribe {} (some ()))) :: List.replicate 3 (0, .proceed)
    ++ (0, .call (.refresh 1000)) :: List.replicate 7 (0, .proceed)
    ++ (0, .order []) :: List.replicate 28 (0, .proceed)

/-- The callback calls `set_policy`. -/
def reentrantMoves : List (Nat × Choice ℚ Unit) :=
  deliveringMoves ++ [(0, .proceed), (0, .call (.setPolicy defaultPolicy)), (0, .proceed)]

/-- The callback is invoked under `refresh_mutex_`, and the `set_policy` it calls
waits for that mutex, which its own thread holds. -/
theorem callback_waits_for_itself :
    ¬ Machine.Along (Threads.step program) CallbackUnlocked (quiet {}) reentrantMoves ∧
      Threads.awaits ((schedule reentrantMoves).code 0) = some .refresh ∧
      (schedule reentrantMoves).owner .refresh = some 0 := by
  refine ⟨fun h => ?_, by decide +kernel, by decide +kernel⟩
  obtain ⟨-, hinvoke, -⟩ := (Machine.along_append _).mp h
  have hnext : (Threads.nextAct ((schedule deliveringMoves).code 0)).any Action.invokes = true := by
    decide +kernel
  obtain ⟨a, ha, hinv⟩ := (Option.any_eq_true ..).mp hnext
  exact hinvoke.1 a ha hinv .refresh (by decide +kernel)

end MemoryPressure
