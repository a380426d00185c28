import MemoryPressure.Concurrency

/-!
# Publication order under threads (`runtime.cpp`)

`refresh` takes its snapshot's id under `refresh_mutex_` (runtime.cpp:170) and
publishes the snapshot later, under `current_mutex_` (runtime.cpp:457), while
readers and `set_history_limit` come in anywhere between the two.

- `Action.exec_keeps`: only `conclude` numbers a snapshot and only `publish`
  touches the current snapshot and the history.
- `Pending`: the snapshot a thread has numbered and not yet published. There is
  one at most, of the thread that holds `refresh_mutex_`, and it comes after
  everything published and read (`Ordered.step`).
- `publication_order`: so readers never go back, and the history is a window on
  the snapshots published.

**Why one snapshot is pending at most.** The actions of `refresh` up to the numbering
stand in the scope of `refresh_mutex_` (`UnderRefresh`), and what follows the numbering up
to the publication is code of scopes that take other mutexes (`isBetween`), still inside
that scope. So a thread with a pending snapshot holds `refresh_mutex_`, and no second
thread can number one before the first has published. `Numbered` orders what is published
and read by id and generation, `Upcoming` puts the pending snapshot after all of it, and
`Ordered` is the two together with `Pending` for every thread.

The statements are about the snapshots a schedule does publish. That a refresh which
completes publishes one, and exactly one, is not part of them: of the sequential
`refresh` it is `CompletesWith.refresh_eq`, and of a thread that goes on undisturbed
`refresh_scheduled`. A schedule may also leave a refresh unfinished for ever.
-/

namespace MemoryPressure

variable {F C : Type} [Double F]

open Threads (Instr AllFit)

/-! ## What threads see -/

/-- The snapshot a note says was published. -/
def Note.publishedSnapshot : Note F C → Option (Snapshot F)
  | .published snap => some snap
  | _ => none

/-- The snapshot a note says `current_snapshot` returned. -/
def Note.readSnapshot : Note F C → Option (Snapshot F)
  | .read snap => some snap
  | _ => none

/-- The snapshots published, in order. -/
def snapshotsPublished (notes : List (Nat × Note F C)) : List (Snapshot F) :=
  notes.filterMap fun note => note.2.publishedSnapshot

/-- What the `current_snapshot` calls of all threads returned, in order. -/
def snapshotsRead (notes : List (Nat × Note F C)) : List (Snapshot F) :=
  notes.filterMap fun note => note.2.readSnapshot

/-- What the `current_snapshot` calls of one thread returned, in order. -/
def snapshotsReadBy (t : Nat) (notes : List (Nat × Note F C)) : List (Snapshot F) :=
  snapshotsRead (notes.filter fun note => note.1 = t)

/-- From one snapshot to another neither the id nor the generation goes back. -/
structure NotAfter (a b : Snapshot F) : Prop where
  id : a.id ≤ b.id
  generation : a.generation ≤ b.generation

theorem NotAfter.refl (a : Snapshot F) : NotAfter a a := ⟨Nat.le_refl _, Nat.le_refl _⟩

theorem NotAfter.trans {a b c : Snapshot F} (h : NotAfter a b) (h' : NotAfter b c) :
    NotAfter a c :=
  ⟨Nat.le_trans h.id h'.id, Nat.le_trans h.generation h'.generation⟩

/-! ## What an action does to what is published -/

/-- What every action but the numbering and the publication of a snapshot does:
the current snapshot and the history stay, what is read is the current snapshot,
and what is found under an id is in the history. -/
structure Keeps (d d' : Shared F C) (notes : List (Note F C)) : Prop where
  current : d'.rt.currentSnapshot = d.rt.currentSnapshot
  history : d'.rt.history = d.rt.history
  generation : d'.rt.generation = d.rt.generation
  snapshotId : d.rt.snapshotId ≤ d'.rt.snapshotId
  published : ∀ note ∈ notes, note.publishedSnapshot = none
  read : ∀ note ∈ notes, ∀ snap ∈ note.readSnapshot, snap = d.rt.currentSnapshot
  found : ∀ k r, .found k r ∈ notes → r = d.rt.history.find? fun snap => snap.id = k

theorem Keeps.refl (d : Shared F C) : Keeps d d [] where
  current := rfl
  history := rfl
  generation := rfl
  snapshotId := Nat.le_refl _
  published := fun note hn => by cases hn
  read := fun note hn => by cases hn
  found := fun k r hn => by cases hn

/-- The action numbers a snapshot, or publishes one. -/
def Action.handlesSnapshot : Action F C → Bool
  | .conclude _ _ _ _ | .publish _ => true
  | _ => false

theorem Action.exec_keeps {a : Action F C} {choice : Choice F C} {d d' : Shared F C}
    {new : Code F C} {notes : List (Note F C)} (h : a.exec choice d = some (d', new, notes))
    (ha : a.handlesSnapshot = false) : Keeps d d' notes := by
  have hkeeps : ∀ {x : Shared F C} {c : Code F C} {out : List (Note F C)},
      (some (x, c, out) : Option (_ × _ × _)) = some (d', new, notes) → Keeps d x out →
      Keeps d d' notes := by
    rintro x c out hx hkeeps
    obtain ⟨rfl, -, rfl⟩ := by simpa using hx
    exact hkeeps
  have hnote : ∀ {x : Shared F C} {note : Note F C}, x.rt.currentSnapshot = d.rt.currentSnapshot →
      x.rt.history = d.rt.history → x.rt.generation = d.rt.generation →
      x.rt.snapshotId = d.rt.snapshotId → note.publishedSnapshot = none →
      (∀ snap ∈ note.readSnapshot, snap = d.rt.currentSnapshot) →
      (∀ k r, .found k r = note → r = d.rt.history.find? fun snap => snap.id = k) →
      Keeps d x [note] :=
    fun hcur hhist hgen hid hpub hread hfound => ⟨hcur, hhist, hgen, Nat.le_of_eq hid.symm,
      fun n hn => List.mem_singleton.mp hn ▸ hpub, fun n hn => List.mem_singleton.mp hn ▸ hread,
      fun k r hn => hfound k r (List.mem_singleton.mp hn)⟩
  have hsame : ∀ {x : Shared F C}, x.rt.currentSnapshot = d.rt.currentSnapshot →
      x.rt.history = d.rt.history → x.rt.generation = d.rt.generation →
      d.rt.snapshotId ≤ x.rt.snapshotId → Keeps d x ([] : List (Note F C)) :=
    fun hcur hhist hgen hid =>
      ⟨hcur, hhist, hgen, hid, fun n hn => (by cases hn), fun n hn => (by cases hn),
        fun k r hn => (by cases hn)⟩
  have hself : Keeps d d ([] : List (Note F C)) := .refl d
  cases a with
  | conclude | publish => cases ha
  | apply c =>
    refine hkeeps h (hsame ?_ ?_ ?_ (Nat.le_of_eq ?_)) <;> cases c <;> first
      | rfl
      | (rw [Shared.apply, PressureRuntime.setBudget_eq])
  | readCurrent =>
    exact hkeeps h (hnote rfl rfl rfl rfl rfl (fun snap hsnap => (Option.some.inj hsnap).symm)
      fun k r hn => by cases hn)
  | readHistory id =>
    exact hkeeps h (hnote rfl rfl rfl rfl rfl (fun snap hsnap => by cases hsnap)
      fun k r hn => by
        obtain ⟨rfl, rfl⟩ := Note.found.inj hn
        rfl)
  | invoke | rebuild | storePolicy =>
    exact hkeeps h (hnote rfl rfl rfl rfl rfl (fun snap hsnap => by cases hsnap)
      fun k r hn => by cases hn)
  | poll nowMs pol budgets log names =>
    cases names <;> simp only [exec] at h
    · exact hkeeps h hself
    · repeat' split at h
      all_goals first
        | exact hkeeps h hself
        -- an escaping exception uses up an id
        | exact hkeeps h (hsame rfl rfl rfl (Nat.le_succ _))
        | cases h
  | deliver events => cases events <;> exact hkeeps h hself
  | user | copyProviders | offer | push | pushLocked | resume =>
    simp only [exec] at h
    repeat' split at h
    all_goals first
      | exact hkeeps h hself
      | exact hkeeps h (hsame rfl rfl rfl (Nat.le_refl _))
      | cases h
  | countPolicy | countFailure | countTransition | countGeneration | countRequest
  | countSnapshot => exact hkeeps h (hsame rfl rfl rfl (Nat.le_refl _))
  | _ => exact hkeeps h hself

/-! ## Where a refresh is

The code of a thread decides what it has pending: nothing, or the snapshot in the one
`publish` ahead of it. Code is put in front by actions alone, so that the cases are those
of `Expands`. -/

/-- The action is of `refresh` before it numbers its snapshot, or does that. -/
def Action.refreshing : Action F C → Bool
  | .loadPolicy _ | .copyBudgets _ _ | .copyProviders _ _ _ | .poll _ _ _ _ _
  | .interpret _ _ _ _ | .conclude _ _ _ _ => true
  | _ => false

/-- The actions of `refresh` up to the numbering stand in the scope of
`refresh_mutex_`. -/
def UnderRefresh : Instr Mutex (Action F C) → List Mutex → Prop
  | .act a, held => a.refreshing = true → .refresh ∈ held
  | _, _ => True

/-- Below `refresh_mutex_` anything fits. -/
theorem underRefresh_below {below : List Mutex} (h : Mutex.refresh ∈ below) (c : Code F C) :
    AllFit Action.owes UnderRefresh below c := by
  induction c with
  | nil => trivial
  | cons i c ih =>
    refine ⟨?_, ih⟩
    cases i with
    | act a => exact fun _ => List.mem_append_right _ h
    | _ => trivial

/-- Code that is not of `refresh` fits anywhere. -/
theorem underRefresh_outside {below : List Mutex} {c : Code F C}
    (h : ∀ a, Instr.act a ∈ c → a.refreshing = false) :
    AllFit Action.owes UnderRefresh below c := by
  induction c with
  | nil => trivial
  | cons i c ih =>
    refine ⟨?_, ih fun a ha => h a (List.mem_cons_of_mem i ha)⟩
    cases i with
    | act a =>
      intro ha
      rw [h a List.mem_cons_self] at ha
      cases ha
    | _ => trivial

/-- What is put in front of the code of a thread that is not refreshing: nothing
of `refresh`, unless it is called. -/
theorem Expands.not_refreshing {a : Action F C} {new : Code F C} (h : Expands a new)
    (ha : a.refreshing = false) :
    (∃ nowMs, new = (Call.refresh nowMs).code ++ [.act .user]) ∨
      ∀ b, Instr.act b ∈ new → b.refreshing = false := by
  -- a delivery runs callbacks, which are calls of their own
  have hdelivery : ∀ (dl : Option Delivery) b, Instr.act b ∈ (Delivery.code dl : Code F C) →
      b.refreshing = false := by
    intro dl b hb
    cases dl with
    | none => cases hb
    | some d =>
      obtain rfl := Instr.act.inj (List.mem_singleton.mp hb)
      rfl
  -- the code of each public call, then the steps that bring in code of their own
  cases h with
  | call c =>
    cases c with
    | refresh nowMs => exact Or.inl ⟨nowMs, rfl⟩
    | setPolicy p =>
      right
      rw [Call.code]
      split_ifs <;> simp [guarded, Action.refreshing]
    | setBudget id b =>
      right
      rw [Call.code]
      split_ifs <;> simp [guarded, Action.refreshing]
    | _ =>
      right
      simp [Call.code, guarded, Action.refreshing]
  | readDomain id known =>
    right
    split_ifs <;> simp [guarded, Action.refreshing]
  | queued n e dl => exact Or.inr fun b hb => hdelivery dl b (by simpa using hb)
  | misses n e dl => exact Or.inr (hdelivery dl)
  | resume dl => exact Or.inr (hdelivery dl)
  | poll | polled | escaped | interpret | conclude | loadPolicy | copyBudgets |
    copyProviders => cases ha
  | _ => exact Or.inr (by simp [Action.refreshing])

/-- What an action puts in front keeps `refresh` in the scope of its mutex. -/
theorem Expands.underRefresh {a : Action F C} {new : Code F C} (h : Expands a new)
    {below : List Mutex} (hfit : UnderRefresh (.act a) (a.owes ++ below)) :
    AllFit Action.owes UnderRefresh below new := by
  by_cases ha : a.refreshing = true
  · -- a step of `refresh` owes other mutexes only
    have hbelow : Mutex.refresh ∈ below := by
      rcases List.mem_append.mp (hfit ha) with howes | hbelow
      · cases a <;> simp [Action.refreshing, Action.owes] at ha howes
      · exact hbelow
    exact underRefresh_below hbelow new
  · rcases h.not_refreshing (Bool.eq_false_iff.mpr ha) with ⟨nowMs, rfl⟩ | hnone
    · refine ⟨trivial, fun _ => ?_, trivial, fun hr => (by cases hr), trivial⟩
      exact List.mem_append_left _ List.mem_cons_self
    · exact underRefresh_outside hnone

/-- The instruction is of the scopes between the numbering of a snapshot and its
publication. -/
def isBetween : Instr Mutex (Action F C) → Bool
  | .lock m | .unlock m => m ≠ .refresh
  | .act .countGeneration | .act (.countRequest _) => true
  | .act _ => false

/-- No snapshot is about to be published. -/
def Unpublishing (c : Code F C) : Prop := ∀ snap, Instr.act (.publish snap) ∉ c

/-- A thread's code by the snapshot it has numbered and not yet published. -/
inductive Pending : Code F C → Option (Snapshot F) → Prop
  | nothing {c} : Unpublishing c → Pending c none
  | numbered {front c : Code F C} (snap) : (∀ i ∈ front, isBetween i = true) → Unpublishing c →
      Pending (front ++ .act (.publish snap) :: c) (some snap)

theorem Unpublishing.append {c c' : Code F C} (h : Unpublishing c) (h' : Unpublishing c') :
    Unpublishing (c ++ c') := fun snap hs => (List.mem_append.mp hs).elim (h snap) (h' snap)

theorem Unpublishing.tail {i : Instr Mutex (Action F C)} {c : Code F C}
    (h : Unpublishing (i :: c)) : Unpublishing c :=
        fun snap hs => h snap (List.mem_cons_of_mem i hs)

/-- What an action puts in front publishes nothing, unless it numbers a snapshot. -/
theorem Expands.unpublishing {a : Action F C} {new : Code F C} (h : Expands a new)
    (ha : a.handlesSnapshot = false) : Unpublishing new := by
  -- a delivery numbers nothing
  have hdelivery : ∀ dl : Option Delivery, Unpublishing (Delivery.code dl : Code F C) := by
    intro dl snap hs
    cases dl <;> simp [Delivery.code] at hs
  cases h with
  | call c =>
    refine Unpublishing.append ?_ fun snap hs => by simp at hs
    intro snap hs
    cases c with
    | setPolicy p =>
      rw [Call.code] at hs
      split_ifs at hs <;> simp [guarded] at hs
    | setBudget id b =>
      rw [Call.code] at hs
      split_ifs at hs <;> simp [guarded] at hs
    | _ => simp [Call.code, guarded] at hs
  | readDomain id known =>
    intro snap hs
    split_ifs at hs <;> simp [guarded] at hs
  | poll nowMs pol budgets log log' name names failed =>
    intro snap hs
    split_ifs at hs <;> simp [guarded] at hs
  | interpret =>
    intro snap hs
    simp [interpretCode, guarded] at hs
  | conclude => cases ha
  | queued n e dl => exact fun snap hs => hdelivery dl snap (by simpa using hs)
  | misses n e dl => exact hdelivery dl
  | resume dl => exact hdelivery dl
  | _ =>
    intro snap hs
    simp at hs

/-- A lock or an unlock on the way to a publication is not of `refresh_mutex_`. -/
theorem Pending.tail {i : Instr Mutex (Action F C)} {c : Code F C} {snap : Option (Snapshot F)}
    (h : Pending (i :: c) snap) (hi : ∀ a, i ≠ .act a) :
    Pending c snap ∧ (snap.isSome → isBetween i = true) := by
  generalize hcode : i :: c = code at h
  cases h with
  | nothing hc =>
    subst hcode
    exact ⟨.nothing hc.tail, fun hs => by cases hs⟩
  | @numbered front c' snap hfront hc =>
    cases front with
    -- the next instruction would be the publication itself, an action
    | nil => exact absurd (List.cons.inj hcode).1 (hi _)
    | cons j front =>
      obtain ⟨rfl, rfl⟩ := List.cons.inj hcode
      exact ⟨.numbered snap (fun k hk => hfront k (List.mem_cons_of_mem _ hk)) hc,
        fun _ => hfront _ List.mem_cons_self⟩

/-- An action that handles no snapshot leaves what is to be published. -/
theorem Pending.expand {a : Action F C} {new c : Code F C} {snap : Option (Snapshot F)}
    (h : Pending (.act a :: c) snap) (hnew : Expands a new) (ha : a.handlesSnapshot = false) :
    Pending (new ++ c) snap := by
  generalize hcode : Instr.act a :: c = code at h
  cases h with
  | nothing hc =>
    subst hcode
    exact .nothing ((hnew.unpublishing ha).append hc.tail)
  | @numbered front c' snap hfront hc =>
    cases front with
    | nil =>
      obtain rfl := Instr.act.inj (List.cons.inj hcode).1
      cases ha
    | cons j front =>
      obtain ⟨rfl, rfl⟩ := List.cons.inj hcode
      have hbetween := hfront _ List.mem_cons_self
      -- a counter, which puts nothing in front
      have hnil : new = [] := by
        cases hnew <;> first
          | rfl
          | cases hbetween
      rw [hnil]
      exact .numbered snap (fun k hk => hfront k (List.mem_cons_of_mem _ hk)) hc

/-- A thread numbers a snapshot with none pending, and publishes the one it has
numbered. -/
theorem Pending.conclude {nowMs : UInt64} {pol : PressurePolicy F} {budgets : Budgets}
    {log : PollLog F} {c : Code F C} {snap : Option (Snapshot F)}
    (h : Pending (.act (.conclude nowMs pol budgets log) :: c) snap) (changed : Bool)
    (pub : Published F) (observations : Nat) :
    Pending (concludeCode changed pub observations ++ c) (some pub.snapshot) := by
  generalize hcode : Instr.act (Action.conclude nowMs pol budgets log) :: c = code at h
  cases h with
  -- the new code is the counters, the lock of `current_mutex_` and the publication
  | nothing hc =>
    subst hcode
    have hsplit : concludeCode changed pub observations ++ c
        = ((if changed then guarded .stats .countGeneration else [])
            ++ (pub.events.filter fun e => e.type.isRequest).flatMap
              (fun e => guarded .stats (.countRequest e.type)) ++ [.lock .current])
          ++ .act (.publish pub.snapshot) :: (.unlock .current :: (guarded .stats
            (.countSnapshot observations) ++ [.act (.deliver pub.events)]) ++ c) := by
      simp [concludeCode, guarded]
    rw [hsplit]
    refine .numbered pub.snapshot (fun i hi => ?_) fun snap hs => ?_
    · rcases List.mem_append.mp hi with hi | hi
      · rcases List.mem_append.mp hi with hi | hi
        · split_ifs at hi
          · rcases (by simpa [guarded] using hi : _ ∨ _ ∨ _) with rfl | rfl | rfl <;> rfl
          · cases hi
        · obtain ⟨e, -, hi⟩ := List.mem_flatMap.mp hi
          rcases (by simpa [guarded] using hi : _ ∨ _ ∨ _) with rfl | rfl | rfl <;> rfl
      · rw [List.mem_singleton.mp hi]
        rfl
    · refine hc.tail snap ?_
      simpa [guarded] using hs
  -- no second snapshot is numbered on the way to a publication
  | @numbered front c' snap hfront hc =>
    cases front with
    | nil => cases (List.cons.inj hcode).1
    | cons j front =>
      obtain ⟨rfl, -⟩ := List.cons.inj hcode
      cases hfront _ List.mem_cons_self

theorem Pending.publish {snap : Snapshot F} {c : Code F C} {pending : Option (Snapshot F)}
    (h : Pending (.act (.publish snap) :: c) pending) : pending = some snap ∧ Unpublishing c := by
  generalize hcode : Instr.act (Action.publish snap) :: c = code at h
  cases h with
  | nothing hc =>
    subst hcode
    exact absurd List.mem_cons_self (hc snap)
  | @numbered front c' snap' hfront hc =>
    cases front with
    | nil =>
      obtain ⟨hact, rfl⟩ := List.cons.inj hcode
      obtain rfl := Action.publish.inj (Instr.act.inj hact)
      exact ⟨rfl, hc⟩
    -- a publication is not on the way to another
    | cons j front =>
      obtain ⟨rfl, -⟩ := List.cons.inj hcode
      cases hfront _ List.mem_cons_self

/-! ## The order of publication

Ids come from `snapshot_id_`, which grows with each refresh, complete or not, and
generations from `generation_`, which a refresh leaves or raises by one. Both are read and
written by the holder of `refresh_mutex_` alone, and a snapshot becomes visible later: the
invariant has to order the pending one too. -/

/-- What is true of the published data and of the notes so far: ids are taken
from `snapshot_id_`, published in order, and read in order. -/
structure Numbered (rt : PressureRuntime F) (notes : List (Nat × Note F C)) : Prop where
  bounded : ∀ p ∈ rt.currentSnapshot :: snapshotsPublished notes,
    p.id ≤ rt.snapshotId ∧ p.generation ≤ rt.generation
  rising : (snapshotsPublished notes).Pairwise fun a b => a.id < b.id
  reads : (snapshotsRead notes ++ [rt.currentSnapshot]).Pairwise NotAfter
  window : rt.history <:+ snapshotsPublished notes

/-- The snapshot is numbered after everything published. -/
structure Upcoming (rt : PressureRuntime F) (notes : List (Nat × Note F C)) (snap : Snapshot F) :
    Prop where
  after : ∀ p ∈ rt.currentSnapshot :: snapshotsPublished notes,
    p.id < snap.id ∧ p.generation ≤ snap.generation
  id : snap.id ≤ rt.snapshotId
  generation : snap.generation ≤ rt.generation

section

variable {d d' : Shared F C} {out : List (Nat × Note F C)} {notes : List (Note F C)} {t : Nat}
  {snap : Snapshot F}

theorem snapshotsPublished_append (out out' : List (Nat × Note F C)) :
    snapshotsPublished (out ++ out') = snapshotsPublished out ++ snapshotsPublished out' :=
  List.filterMap_append ..

theorem snapshotsRead_append (out out' : List (Nat × Note F C)) :
    snapshotsRead (out ++ out') = snapshotsRead out ++ snapshotsRead out' :=
  List.filterMap_append ..

theorem Keeps.snapshotsPublished (h : Keeps d d' notes) (t : Nat) :
    snapshotsPublished (out ++ notes.map fun note => (t, note)) = snapshotsPublished out := by
  rw [snapshotsPublished_append]
  refine List.append_right_eq_self.mpr (List.filterMap_eq_nil_iff.mpr fun note hnote => ?_)
  obtain ⟨n, hn, rfl⟩ := List.mem_map.mp hnote
  exact h.published n hn

theorem Numbered.keeps (h : Numbered d.rt out) (hkeeps : Keeps d d' notes) (t : Nat) :
    Numbered d'.rt (out ++ notes.map fun note => (t, note)) where
  bounded := fun p hp => by
    rw [hkeeps.current, hkeeps.snapshotsPublished t] at hp
    obtain ⟨hid, hgen⟩ := h.bounded p hp
    exact ⟨Nat.le_trans hid hkeeps.snapshotId, hkeeps.generation ▸ hgen⟩
  rising := by
    rw [hkeeps.snapshotsPublished t]
    exact h.rising
  reads := by
    -- what the move reads, if anything, is the current snapshot
    have hread : ∀ snap ∈ snapshotsRead (notes.map fun note => (t, note)),
        snap = d.rt.currentSnapshot := by
      intro snap hsnap
      obtain ⟨note, hnote, hsome⟩ := List.mem_filterMap.mp hsnap
      obtain ⟨n, hn, rfl⟩ := List.mem_map.mp hnote
      exact hkeeps.read n hn snap hsome
    obtain ⟨hold, -, hbelow⟩ := List.pairwise_append.mp h.reads
    rw [hkeeps.current, snapshotsRead_append, List.append_assoc]
    have hnew : ∀ snap ∈ snapshotsRead (notes.map fun note => (t, note)) ++ [d.rt.currentSnapshot],
        snap = d.rt.currentSnapshot := fun snap hsnap =>
      (List.mem_append.mp hsnap).elim (hread snap) List.mem_singleton.mp
    refine List.pairwise_append.mpr ⟨hold, ?_, fun a ha b hb => ?_⟩
    · exact List.pairwise_of_forall_mem_list fun a ha b hb => by
        rw [hnew a ha, hnew b hb]
        exact .refl _
    · rw [hnew b hb]
      exact hbelow a ha _ (List.mem_singleton_self _)
  window := by
    rw [hkeeps.history, hkeeps.snapshotsPublished t]
    exact h.window

theorem Upcoming.keeps (h : Upcoming d.rt out snap) (hkeeps : Keeps d d' notes) (t : Nat) :
    Upcoming d'.rt (out ++ notes.map fun note => (t, note)) snap where
  after := fun p hp => by
    rw [hkeeps.current, hkeeps.snapshotsPublished t] at hp
    exact h.after p hp
  id := Nat.le_trans h.id hkeeps.snapshotId
  generation := hkeeps.generation ▸ h.generation

section

variable {nowMs : UInt64} {pol : PressurePolicy F} {budgets : Budgets} {log : PollLog F}

/-- A generation only grows (runtime.cpp:398). -/
theorem generation_le_newGeneration (rt : PressureRuntime F) :
    rt.generation ≤ PressureRuntime.newGeneration pol budgets rt nowMs log := by
  unfold PressureRuntime.newGeneration
  split_ifs
  · exact Nat.le_succ _
  · exact Nat.le_refl _

theorem Numbered.conclude (h : Numbered d.rt out) :
    Numbered (d.conclude pol budgets nowMs log).rt out where
  bounded := fun p hp =>
    have hp' := h.bounded p hp
    ⟨Nat.le_succ_of_le hp'.1, Nat.le_trans hp'.2 (generation_le_newGeneration d.rt)⟩
  rising := h.rising
  reads := h.reads
  window := h.window

theorem Upcoming.conclude (h : Upcoming d.rt out snap) :
    Upcoming (d.conclude pol budgets nowMs log).rt out snap where
  after := h.after
  id := Nat.le_succ_of_le h.id
  generation := Nat.le_trans h.generation (generation_le_newGeneration d.rt)

/-- The snapshot just numbered comes after everything published. -/
theorem Numbered.upcoming (h : Numbered d.rt out) :
    Upcoming (d.conclude pol budgets nowMs log).rt out
      (PressureRuntime.published pol budgets d.rt nowMs log).snapshot where
  after := fun p hp =>
    have hp' := h.bounded p hp
    ⟨Nat.lt_succ_of_le hp'.1, Nat.le_trans hp'.2 (generation_le_newGeneration d.rt)⟩
  id := Nat.le_refl _
  generation := Nat.le_refl _

end

theorem Numbered.publish (h : Numbered d.rt out) (hsnap : Upcoming d.rt out snap) (t : Nat) :
    Numbered (d.publish snap).rt (out ++ [(t, .published snap)]) where
  bounded := fun p hp => by
    rw [snapshotsPublished_append] at hp
    have hp' : p = snap ∨ p ∈ snapshotsPublished out := by
      rcases List.mem_cons.mp hp with rfl | hp
      · exact Or.inl rfl
      · exact (List.mem_append.mp hp).elim Or.inr fun hnew => Or.inl (List.mem_singleton.mp hnew)
    rcases hp' with rfl | hold
    · exact ⟨hsnap.id, hsnap.generation⟩
    · exact h.bounded p (List.mem_cons_of_mem _ hold)
  rising := by
    rw [snapshotsPublished_append]
    refine List.pairwise_append.mpr ⟨h.rising, List.pairwise_singleton .., ?_⟩
    intro a ha b hb
    rw [List.mem_singleton.mp hb]
    exact (hsnap.after a (List.mem_cons_of_mem _ ha)).1
  reads := by
    obtain ⟨hold, -, hbelow⟩ := List.pairwise_append.mp h.reads
    rw [snapshotsRead_append, List.append_assoc]
    refine List.pairwise_append.mpr ⟨hold, List.pairwise_singleton .., ?_⟩
    intro a ha b hb
    obtain ⟨hid, hgen⟩ := hsnap.after _ List.mem_cons_self
    rw [List.mem_singleton.mp hb]
    exact (hbelow a ha _ (List.mem_singleton_self _)).trans ⟨Nat.le_of_lt hid, hgen⟩
  window := by
    obtain ⟨gone, hgone⟩ := h.window
    rw [snapshotsPublished_append]
    refine (List.drop_suffix _ _).trans ⟨gone, ?_⟩
    rw [← List.append_assoc, hgone]
    rfl

end

/-- What holds of the threads and their notes along every schedule. -/
structure Ordered (x : System F C × List (Nat × Note F C)) : Prop where
  sound : Threads.Sound program x.1
  fits : ∀ t, AllFit Action.owes UnderRefresh [] (x.1.code t)
  numbered : Numbered x.1.data.rt x.2
  pending : ∀ t, ∃ snap, Pending (x.1.code t) snap ∧
    ∀ s ∈ snap, x.1.owner .refresh = some t ∧ Upcoming x.1.data.rt x.2 s

/-- A move changes the code of one thread; what the others have pending stays. -/
theorem Ordered.pending_update {s s' : System F C} {out out' : List (Nat × Note F C)} {t : Nat}
    {c : Code F C} (hx : Ordered (s, out)) (hcode : s'.code = Function.update s.code t c)
    (hother : ∀ u ≠ t, ∀ snap, s.owner .refresh = some u → Upcoming s.data.rt out snap →
      s'.owner .refresh = some u ∧ Upcoming s'.data.rt out' snap)
    (hmine : ∃ snap, Pending c snap ∧
      ∀ p ∈ snap, s'.owner .refresh = some t ∧ Upcoming s'.data.rt out' p) (u : Nat) :
    ∃ snap, Pending (s'.code u) snap ∧
      ∀ p ∈ snap, s'.owner .refresh = some u ∧ Upcoming s'.data.rt out' p := by
  rw [hcode]
  by_cases hu : u = t
  · rw [hu, Function.update_self]
    exact hmine
  · rw [Function.update_of_ne hu]
    obtain ⟨snap, hpending, hup⟩ := hx.pending u
    exact ⟨snap, hpending, fun p hp => hother u hu p (hup p hp).1 (hup p hp).2⟩

/-- A mutex changes hands. What is pending stays so as long as that is not the
`refresh_mutex_` of a thread that has something pending. -/
theorem Ordered.pending_owner {s : System F C} {out : List (Nat × Note F C)} {t : Nat} {m : Mutex}
    {c : Code F C} {snap : Option (Snapshot F)} {owner : Option Nat} (hx : Ordered (s, out))
    (hrest : Pending c snap)
    (hup : ∀ p ∈ snap, s.owner .refresh = some t ∧ Upcoming s.data.rt out p)
    (hother : ∀ u, s.owner .refresh = some u → (u = t → snap.isSome) → Mutex.refresh ≠ m)
    (u : Nat) :
    ∃ snap, Pending (Function.update s.code t c u) snap ∧
      ∀ p ∈ snap, Function.update s.owner m owner .refresh = some u ∧
        Upcoming s.data.rt out p := by
  let s' : System F C := ⟨s.data, Function.update s.owner m owner, Function.update s.code t c⟩
  show ∃ snap, Pending (s'.code u) snap ∧
    ∀ p ∈ snap, s'.owner .refresh = some u ∧ Upcoming s'.data.rt out p
  refine hx.pending_update rfl (fun u hu p howner hp => ?_) ⟨snap, hrest, fun p hp => ?_⟩ u
  · have hm := hother u howner fun h => absurd h hu
    exact ⟨(Function.update_of_ne hm ..).trans howner, hp⟩
  · obtain ⟨howner, hafter⟩ := hup p hp
    have hm := hother t howner fun _ => Option.isSome_iff_exists.mpr ⟨p, hp⟩
    exact ⟨(Function.update_of_ne hm ..).trans howner, hafter⟩

/-- **One move** keeps the order of publication. -/
theorem Ordered.step {x : System F C × List (Nat × Note F C)} (hx : Ordered x)
    (move : Nat × Choice F C) : Ordered (Machine.traced (Threads.step program) x move).1 := by
  obtain ⟨s, out⟩ := x
  obtain ⟨t, i⟩ := move
  show Ordered ((Threads.step program s (t, i)).1, out ++ (Threads.step program s (t, i)).2)
  have hsound := hx.sound.step (t, i)
  have hall : Threads.Permits (fun _ _ _ => True) s (t, i) := fun _ _ => trivial
  have hfits := Threads.fit_step program
    (fun hexec _ hfit => (Action.exec_expands hexec).underRefresh hfit) hx.fits hall
  obtain ⟨snap, hpending, hup⟩ := hx.pending t
  rcases Threads.step_cases program s t i with heq | ⟨m, c, hc, hfree, heq⟩ | ⟨m, c, hc, heq⟩ |
    ⟨a, c, d, new, notes, hc, hexec, heq⟩ <;> rw [heq] at hsound hfits ⊢
  · rwa [List.append_nil]
  all_goals
    change Pending (s.code t) snap at hpending
    rw [hc] at hpending
  -- a lock: nobody has `refresh_mutex_` when it is taken
  -- an unlock: a thread with a snapshot pending has `refresh_mutex_` and does
  -- not unlock it before the publication
  · rw [List.append_nil]
    obtain ⟨hrest, -⟩ := hpending.tail fun a ha => by cases ha
    refine ⟨hsound, hfits, hx.numbered, hx.pending_owner hrest hup fun u howner _ hm => ?_⟩
    rw [← hm, howner] at hfree
    cases hfree
  · rw [List.append_nil]
    obtain ⟨hrest, hbetween⟩ := hpending.tail fun a ha => by cases ha
    refine ⟨hsound, hfits, hx.numbered, hx.pending_owner hrest hup fun u howner hpend hm => ?_⟩
    by_cases hu : u = t
    · have hb := hbetween (hpend hu)
      rw [← hm] at hb
      cases hb
    · have hmine : s.owner m = some t := (hx.sound.owner t m).mp (by
        show m ∈ Threads.held _ (s.code t)
        rw [hc]
        exact List.mem_cons_self)
      rw [← hm, howner] at hmine
      exact hu (Option.some.inj hmine)
  · replace hexec : a.exec i s.data = some (d, new, notes) := hexec
    by_cases ha : a.handlesSnapshot = true
    · cases a with
      | conclude nowMs pol budgets log =>
        -- the snapshot is numbered after all that are published
        -- the owner of `refresh_mutex_` publishes; nobody else has one pending
        obtain ⟨rfl, rfl, rfl⟩ := by simpa [Action.exec] using hexec
        rw [List.map_nil, List.append_nil]
        have howner : s.owner .refresh = some t := (hx.sound.owner t .refresh).mp (by
          have hfit := hx.fits t
          change AllFit Action.owes UnderRefresh [] (s.code t) at hfit
          show Mutex.refresh ∈ Threads.held _ (s.code t)
          rw [hc] at hfit ⊢
          have hheld := hfit.1 rfl
          rwa [List.append_nil] at hheld)
        refine ⟨hsound, hfits, hx.numbered.conclude,
          hx.pending_update rfl (fun u hu p hp hup => ⟨hp, hup.conclude⟩) ?_⟩
        refine ⟨_, hpending.conclude _ _ _, fun p hp => ⟨howner, ?_⟩⟩
        obtain rfl := Option.some.inj hp
        exact hx.numbered.upcoming
      | publish snap' =>
        obtain ⟨rfl, rfl, rfl⟩ := by simpa [Action.exec] using hexec
        obtain ⟨rfl, hrest⟩ := hpending.publish
        obtain ⟨howner, hsnap⟩ := hup snap' rfl
        refine ⟨hsound, hfits, hx.numbered.publish hsnap t,
          hx.pending_update rfl (fun u hu p hp hup => ?_) ?_⟩
        · rw [howner] at hp
          exact absurd (Option.some.inj hp).symm hu
        · exact ⟨none, .nothing hrest, fun p hp => by cases hp⟩
      | _ => cases ha
    · have hkeeps := Action.exec_keeps hexec (Bool.eq_false_iff.mpr ha)
      refine ⟨hsound, hfits, hx.numbered.keeps hkeeps t,
        hx.pending_update rfl (fun u hu p hp hup => ⟨hp, hup.keeps hkeeps t⟩) ?_⟩
      refine ⟨snap, hpending.expand (Action.exec_expands hexec) (Bool.eq_false_iff.mpr ha), ?_⟩
      exact fun p hp => ⟨(hup p hp).1, (hup p hp).2.keeps hkeeps t⟩

theorem ordered_quiet : Ordered (quiet {}, ([] : List (Nat × Note F C))) where
  sound := sound_quiet {}
  fits := fun _ => underRefresh_outside fun a ha => by
    obtain rfl := Instr.act.inj (List.mem_singleton.mp ha)
    rfl
  numbered :=
    { bounded := fun p hp => List.mem_singleton.mp hp ▸ ⟨Nat.le_refl 0, Nat.le_refl 0⟩
      rising := List.Pairwise.nil
      reads := List.pairwise_singleton ..
      window := List.suffix_rfl }
  pending := fun _ => ⟨none, .nothing fun snap hs => by simp [quiet] at hs, fun p hp => by cases hp⟩

/-- The notes of a schedule, from construction. -/
abbrev noted (moves : List (Nat × Choice F C)) : List (Nat × Note F C) :=
  Machine.outputs (Threads.step program) (quiet {}) moves

/-- **Every schedule keeps the order of publication.** -/
theorem ordered_run (moves : List (Nat × Choice F C)) : Ordered (schedule moves, noted moves) := by
  have hrun := Machine.run_traced (Threads.step program) (quiet {} : System F C) [] moves
  rw [List.nil_append] at hrun
  rw [schedule, Threads.runFrom, noted, ← hrun]
  exact Machine.run_invariant (Machine.traced _) (fun _ move _ h => h.step move) ordered_quiet

/-! ## The history between publications

`set_history_limit` takes no mutex and trims nothing: a new limit shows at the next
publication. What a reader finds under an id is therefore a fact about the history since
the last publication, whatever was called in between. -/

/-- **What a move does to what is published**: it keeps it, or numbers a snapshot,
of which nothing is seen yet, or publishes one. -/
theorem step_keeps (s : System F C) (move : Nat × Choice F C) :
    (∃ notes, (Threads.step program s move).2 = notes.map (fun note => (move.1, note)) ∧
      Keeps s.data (Threads.step program s move).1.data notes) ∨
    ((Threads.step program s move).2 = [] ∧
      (Threads.step program s move).1.data.rt.history = s.data.rt.history ∧
      (Threads.step program s move).1.data.rt.currentSnapshot = s.data.rt.currentSnapshot) ∨
    ∃ snap, (Threads.step program s move).2 = [(move.1, .published snap)] ∧
      (Threads.step program s move).1.data = s.data.publish snap := by
  obtain ⟨t, i⟩ := move
  rcases Threads.step_cases program s t i with heq | ⟨m, c, hc, hfree, heq⟩ | ⟨m, c, hc, heq⟩ |
    ⟨a, c, d, new, notes, hc, hexec, heq⟩ <;> rw [heq]
  -- the thread waits or is done, takes a mutex, gives one back, or acts
  · exact Or.inl ⟨[], rfl, .refl _⟩
  · exact Or.inl ⟨[], rfl, .refl _⟩
  · exact Or.inl ⟨[], rfl, .refl _⟩
  · replace hexec : a.exec i s.data = some (d, new, notes) := hexec
    by_cases ha : a.handlesSnapshot = true
    · cases a with
      | conclude nowMs pol budgets log =>
        obtain ⟨rfl, rfl, rfl⟩ := by simpa [Action.exec] using hexec
        exact Or.inr (Or.inl ⟨rfl, rfl, rfl⟩)
      | publish snap =>
        obtain ⟨rfl, rfl, rfl⟩ := by simpa [Action.exec] using hexec
        exact Or.inr (Or.inr ⟨snap, rfl, rfl⟩)
      | _ => cases ha
    · exact Or.inl ⟨notes, rfl, Action.exec_keeps hexec (Bool.eq_false_iff.mpr ha)⟩

/-- What a move does to the history: nothing, or it publishes. -/
theorem history_step (s : System F C) (move : Nat × Choice F C) :
    (snapshotsPublished (Threads.step program s move).2 = [] ∧
      (Threads.step program s move).1.data.rt.history = s.data.rt.history ∧
      (Threads.step program s move).1.data.rt.currentSnapshot = s.data.rt.currentSnapshot) ∨
    ∃ snap, (Threads.step program s move).2 = [(move.1, .published snap)] ∧
      (Threads.step program s move).1.data = s.data.publish snap := by
  rcases step_keeps s move with ⟨notes, hout, hkeeps⟩ | ⟨hout, hsame⟩ | hpublish
  · have hnone : snapshotsPublished ([] ++ notes.map fun note => (move.1, note)) = [] :=
      hkeeps.snapshotsPublished move.1
    exact Or.inl ⟨by rw [hout]; exact hnone, hkeeps.history, hkeeps.current⟩
  · exact Or.inl ⟨by rw [hout]; rfl, hsame⟩
  · exact Or.inr hpublish

/-- Moves that publish nothing leave the history and the current snapshot. -/
theorem history_run {s : System F C} {moves : List (Nat × Choice F C)}
    (h : snapshotsPublished (Machine.outputs (Threads.step program) s moves) = []) :
    (Threads.runFrom program s moves).data.rt.history = s.data.rt.history ∧
      (Threads.runFrom program s moves).data.rt.currentSnapshot = s.data.rt.currentSnapshot := by
  induction moves generalizing s with
  | nil => exact ⟨rfl, rfl⟩
  | cons move moves ih =>
    rw [Machine.outputs_cons, snapshotsPublished_append, List.append_eq_nil_iff] at h
    rcases history_step s move with ⟨-, hhist, hcur⟩ | ⟨snap, hout, -⟩
    · obtain ⟨hhist', hcur'⟩ := ih h.2
      exact ⟨hhist'.trans hhist, hcur'.trans hcur⟩
    · rw [hout] at h
      cases h.1

/-- The history is trimmed to the limit in force at the publication. -/
theorem length_publish_le (d : Shared F C) (snap : Snapshot F) :
    (d.publish snap).rt.history.length ≤ d.rt.historyLimit := by
  show (List.drop _ (d.rt.history ++ [snap])).length ≤ _
  rw [List.length_drop]
  omega

/-- The published snapshot is the last to go. -/
theorem getLast_publish (d : Shared F C) (snap : Snapshot F) (h : 1 ≤ d.rt.historyLimit) :
    (d.publish snap).rt.history.getLast? = some snap := by
  show (List.drop _ (d.rt.history ++ [snap])).getLast? = _
  rw [List.drop_append_of_le_length, List.getLast?_concat]
  rw [List.length_append, List.length_singleton]
  omega

/-- Under increasing ids a snapshot is found under its id wherever it is. -/
theorem find_id_iff {history : List (Snapshot F)}
    (h : (history.map Snapshot.id).Pairwise (· < ·)) {k : Nat} {snap : Snapshot F} :
    history.find? (fun s => s.id = k) = some snap ↔ snap ∈ history ∧ snap.id = k := by
  constructor
  · intro hfind
    exact ⟨List.mem_of_find?_eq_some hfind, by simpa using List.find?_some hfind⟩
  · rintro ⟨hmem, rfl⟩
    induction history with
    | nil => cases hmem
    | cons s rest ih =>
      obtain ⟨hs, hrest⟩ := List.pairwise_cons.mp h
      rcases List.mem_cons.mp hmem with rfl | hin
      · exact List.find?_cons_of_pos (by simp)
      -- the ids before it are smaller
      · have hlt : s.id < snap.id := hs snap.id (List.mem_map_of_mem hin)
        rw [List.find?_cons_of_neg (by simpa using Nat.ne_of_lt hlt)]
        exact ih hrest hin

/-- What `snapshot_by_id` finds is what the history has under the id. -/
theorem found_step {s : System F C} {move : Nat × Choice F C} {k : Nat}
    {r : Option (Snapshot F)} (h : (move.1, .found k r) ∈ (Threads.step program s move).2) :
    r = s.data.rt.history.find? fun snap => snap.id = k := by
  rcases step_keeps s move with ⟨notes, hout, hkeeps⟩ | ⟨hout, -⟩ | ⟨snap, hout, -⟩ <;>
    rw [hout] at h
  · obtain ⟨note, hnote, hpair⟩ := List.mem_map.mp h
    obtain rfl := (Prod.mk.inj hpair).2
    exact hkeeps.found k r hnote
  · cases h
  · cases List.mem_singleton.mp h

/-- **Publication order**: along every schedule,

- the ids and generations that a thread reads never go back;
- the history is a window on the snapshots published, up to the last one, with
  increasing ids;
- since the last publication it has at most as many as the limit was then, and
  ends with the current snapshot unless that limit was 0;
- `snapshot_by_id` finds a snapshot under its id while it is in the window, and
  nothing else.

There are publications to speak of: a refresh that nobody interrupts leaves what the
sequential `refresh` makes of the runtime (`refresh_scheduled`), which is exactly one
publication when it completes (`length_published_step`). -/
theorem publication_order (moves : List (Nat × Choice F C)) :
    (∀ t, (snapshotsReadBy t (noted moves)).Pairwise NotAfter) ∧
    ((schedule moves).data.rt.history <:+ snapshotsPublished (noted moves) ∧
      ((schedule moves).data.rt.history.map Snapshot.id).Pairwise (· < ·)) ∧
    (∀ pre move post, moves = pre ++ move :: post →
      snapshotsPublished (Threads.step program (schedule pre) move).2 ≠ [] →
      snapshotsPublished (Machine.outputs (Threads.step program)
        (Threads.step program (schedule pre) move).1 post) = [] →
      (schedule moves).data.rt.history.length ≤ (schedule pre).data.rt.historyLimit ∧
        (1 ≤ (schedule pre).data.rt.historyLimit →
          (schedule moves).data.rt.history.getLast?
            = some (schedule moves).data.rt.currentSnapshot)) ∧
    ∀ pre move post, moves = pre ++ move :: post → ∀ k r,
      (move.1, .found k r) ∈ (Threads.step program (schedule pre) move).2 →
      ∀ snap, r = some snap ↔ snap ∈ (schedule pre).data.rt.history ∧ snap.id = k := by
  have hids : ∀ moves : List (Nat × Choice F C),
      ((schedule moves).data.rt.history.map Snapshot.id).Pairwise (· < ·) := fun moves =>
    List.pairwise_map.mpr
      ((ordered_run moves).numbered.rising.sublist (ordered_run moves).numbered.window.sublist)
  refine ⟨fun t => ?_, ⟨(ordered_run moves).numbered.window, hids moves⟩, ?_, ?_⟩
  -- what one thread reads is part of what all read
  · have hreads := (List.pairwise_append.mp (ordered_run moves).numbered.reads).1
    exact hreads.sublist (List.filter_sublist.filterMap _)
  -- the last publication trims the history, and nothing changes it after
  · intro pre move post hmoves hpub hquiet
    have hrun : schedule moves
        = Threads.runFrom program (Threads.step program (schedule pre) move).1 post := by
      rw [hmoves]
      exact Machine.run_append ..
    rw [hrun]
    obtain ⟨hhist, hcur⟩ := history_run hquiet
    rw [hhist, hcur]
    rcases history_step (schedule pre) move with ⟨hnone, -, -⟩ | ⟨snap, -, hdata⟩
    · exact absurd hnone hpub
    · rw [hdata]
      exact ⟨length_publish_le .., getLast_publish _ _⟩
  · intro pre move post hmoves k r hfound snap
    rw [found_step hfound]
    exact find_id_iff (hids pre)

/-- One thread reads before and after another's refresh publishes. -/
example : (snapshotsReadBy 1 (noted (F := ℚ) (C := Unit)
      ((1, .call .currentSnapshot) :: List.replicate 3 (1, .proceed)
        ++ (0, .call (.refresh 1000)) :: List.replicate 7 (0, .proceed)
        ++ (0, .order []) :: List.replicate 13 (0, .proceed)
        ++ (1, .call .currentSnapshot) :: List.replicate 3 (1, .proceed)))).map Snapshot.id
    = [0, 1] := by decide +kernel

end MemoryPressure
