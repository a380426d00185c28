import MemoryPressure.Isolation

/-!
# Publishing the policy in force again

`set_policy` recreates every debounce machine, also when the policy is the one
in force. A domain under pressure starts again at `normal` and its next
observation publishes it there (`republish_relieves`). The call leaves alone
every domain until somebody observes it again, and for ever if its machine is at
rest by then (`republish_invisible`).

The proof compares two runs, one with the call inserted and one without. Between them the
retained state of a domain is the same or the same with a recreated machine (`Recreated`),
and a call that does not observe the domain keeps that, on both sides
(`agree_unobserved`). When the domain is observed, a machine at rest and a recreated one
answer alike (`AtRestAt.agree`), and from there on the runs agree on the domain in the sense
of `Agreement.lean`. Levels of retained copies are compared too, so an outage in between
makes no difference.

That `set_policy` recreates the machines is documented as a step of the call, so that the
relief is what the design comes to; the exact condition says when nobody sees it.
-/

namespace MemoryPressure

variable {F : Type} [Double F]

/-- The levels published for `d`, snapshot by snapshot. -/
def levelsIn (d : PressureDomainId) (pubs : List (Published F)) : List (Option PressureLevel) :=
  pubs.map fun pub => pub.snapshot.levelOf d

theorem levelsIn_eq {d : PressureDomainId} {pubs pubs' : List (Published F)}
    (h : List.Forall₂
      (fun pub pub' => pub.snapshot.levelOf d = pub'.snapshot.levelOf d) pubs pubs') :
    levelsIn d pubs = levelsIn d pubs' := by
  rw [levelsIn, levelsIn, ← List.forall₂_eq_eq_eq, List.forall₂_map_left_iff,
    List.forall₂_map_right_iff]
  exact h

/-- The debounce machine of `d`, if there is one, is at rest. -/
def AtRestAt (rt : PressureRuntime F) (d : PressureDomainId) : Prop :=
  ∀ st ∈ rt.domainStates.lookup d, st.hysteresis.AtRest

instance (h : HysteresisState F) : Decidable h.AtRest :=
  inferInstanceAs (Decidable (h.current = .normal ∧ h.inHold = false))

instance (rt : PressureRuntime F) (d : PressureDomainId) : Decidable (AtRestAt rt d) :=
  inferInstanceAs (Decidable (∀ st ∈ rt.domainStates.lookup d, st.hysteresis.AtRest))

/-- Entries that are the same but for responses carry the same level. -/
theorem levelOf_eq_of_entries {P : String → String → Prop} {s s' : Snapshot F}
    {d : PressureDomainId} (h : List.Forall₂ (SameState P) (s.entriesOf d) (s'.entriesOf d)) :
    s.levelOf d = s'.levelOf d := by
  rw [Snapshot.levelOf_eq_head?, Snapshot.levelOf_eq_head?]
  generalize s.entriesOf d = l, s'.entriesOf d = l' at h
  cases h with
  | nil => rfl
  | cons hxy _ => exact congrArg some hxy.level_eq

theorem levelOf_eq_of_samePublication {d : PressureDomainId} {pub pub' : Published F}
    (h : SamePublication d pub pub') : pub.snapshot.levelOf d = pub'.snapshot.levelOf d := by
  have hlevel : ∀ s : Snapshot F, s.levelOf d
      = ((s.entriesOf d).map DomainState.withoutResponses).head?.map DomainState.level :=
          fun s => by
    rw [Snapshot.levelOf_eq_head?, List.head?_map, Option.map_map]
    rfl
  rw [hlevel, hlevel, h]

/-- Any list of calls is aligned with itself, whatever `d`. -/
theorem aligned_refl (d : PressureDomainId) (ops : List (Op F)) :
    Machine.Aligned (SameFor Set.univ d) (Elsewhere d) (Elsewhere d) ops ops := by
  induction ops with
  | nil => exact .nil
  | cons op ops ih =>
    have hskip : Elsewhere d op →
        Machine.Aligned (SameFor Set.univ d) (Elsewhere d) (Elsewhere d) (op :: ops) (op :: ops) :=
      fun h => .left h (.right h ih)
    cases op with
    | setPolicy p => exact .both rfl ih
    | setHistoryLimit | registerProvider => exact hskip trivial
    | setBudget id b =>
      by_cases hid : id = d
      · exact .both ⟨hid, hid, rfl⟩ ih
      · exact hskip hid
    | clearBudget id =>
      by_cases hid : id = d
      · exact .both ⟨hid, hid⟩ ih
      · exact hskip hid
    | refresh nowMs polls =>
      by_cases hc : Completes polls
      · exact .both ⟨rfl, hc, hc, rfl, fun _ _ => trivial, fun _ _ => rfl⟩ ih
      · exact hskip hc

/-! ## Until the next observation -/

/-- Two retained states that are the same, or the same but for a machine recreated under its own
configuration. -/
def Recreated (st st' : DomainRuntimeState F) : Prop :=
  st' = st ∨ st' = { st with hysteresis := HysteresisState.new st.hysteresis.cfg }

/-- Publishing the policy in force recreates the machine of `d` at most. -/
theorem agree_republish {rt : PressureRuntime F} (hs : Sound rt) (d : PressureDomainId) :
    AgreeUpTo Recreated (SameIn Set.univ) d rt (rt.setPolicy rt.policy) := by
  have hentries : List.Forall₂ (SameState (SameIn Set.univ)) (rt.currentSnapshot.entriesOf d)
      (rt.currentSnapshot.entriesOf d) :=
    List.forall₂_same.mpr fun _ _ => ⟨rfl, rfl, trivial⟩
  unfold PressureRuntime.setPolicy
  split_ifs
  · refine ⟨rfl, rfl, ?_, hentries⟩
    cases rt.domainStates.lookup d with
    | none => exact .none
    | some st => exact .some (Or.inl rfl)
  · refine ⟨rfl, rfl, ?_, hentries⟩
    rw [Keyed.lookup_mapVal]
    cases hst : rt.domainStates.lookup d with
    | none => exact .none
    | some st =>
      refine .some (Or.inr ?_)
      rw [(hs.states d st hst).cfg]

/-- A machine at rest is as good as recreated. -/
theorem AtRestAt.agree {a b : PressureRuntime F} (ha : Sound a) {d : PressureDomainId}
    (hrest : AtRestAt a d) (h : AgreeUpTo Recreated (SameIn Set.univ) d a b) :
    Agree (SameIn Set.univ) d a b := by
  refine ⟨h.policy, h.budget, ?_, h.entries⟩
  have hst := h.state
  have hsound := ha.states d
  unfold AtRestAt at hrest
  generalize a.domainStates.lookup d = x, b.domainStates.lookup d = y at hst hrest hsound ⊢
  cases hst with
  | none => exact .none
  | @some st st' hrec =>
    rcases hrec with rfl | rfl
    · exact .some (.refl _)
    · exact .some ⟨(hrest st rfl).similar_new (hsound st rfl).wf, rfl⟩

/-- **One call that does not observe `d`**, made on both sides: `d` is published
alike, and the machine of `d` is still the same or recreated. -/
theorem agree_unobserved {a b : PressureRuntime F} (ha : Sound a) (hb : Sound b)
    {d : PressureDomainId} (h : AgreeUpTo Recreated (SameIn Set.univ) d a b) {op : Op F}
    (hop : d ∉ op.observes) :
    AgreeUpTo Recreated (SameIn Set.univ) d (step a op).1 (step b op).1 ∧
      List.Forall₂ (fun pub pub' => pub.snapshot.levelOf d = pub'.snapshot.levelOf d)
        (step a op).2 (step b op).2 := by
  by_cases helse : Elsewhere d op
  · obtain ⟨hout, hp, hbud, hst, hcur⟩ := elsewhere_step a helse
    obtain ⟨hout', hp', hbud', hst', hcur'⟩ := elsewhere_step b helse
    rw [hout, hout']
    exact ⟨h.of_eq hp hbud hst hcur hp' hbud' hst' hcur', .nil⟩
  cases op with
  | setHistoryLimit | registerProvider => exact absurd trivial helse
  | setPolicy p =>
    refine ⟨h.setPolicy p fun st st' hst => ?_, .nil⟩
    rcases hst with rfl | rfl
    · exact Or.inl rfl
    · exact Or.inl rfl
  | setBudget id bud =>
    obtain rfl : id = d := not_not.mp helse
    exact ⟨h.setBudget bud, .nil⟩
  | clearBudget id =>
    obtain rfl : id = d := not_not.mp helse
    exact ⟨h.clearBudget, .nil⟩
  | refresh nowMs polls =>
    have hc : Completes polls := not_not.mp helse
    obtain ⟨log, hlog⟩ := (a.refresh_cases nowMs polls).resolve_right fun hno => hno.1 hc
    obtain ⟨log', hlog'⟩ := (b.refresh_cases nowMs polls).resolve_right fun hno => hno.1 hc
    have hunseen : ∀ l : PollLog F, (Op.refresh nowMs polls).observes
        = PressureRuntime.observedIds l → sightingsFor d l.sightings = [] := fun l hl =>
      not_not.mp (mt PressureRuntime.mem_observedIds.mpr (hl ▸ hop))
    obtain ⟨hagree, hentries⟩ := h.unseen nowMs (hunseen log (observes_of_completes hlog))
      (hunseen log' (observes_of_completes hlog')) fun x _ y _ hxy => by
        rw [hlog.health, hlog'.health, ha.health, hb.health, hxy.provider.1]
    have hstep : step a (.refresh nowMs polls) = _ := hlog.refresh_eq
    have hstep' : step b (.refresh nowMs polls) = _ := hlog'.refresh_eq
    rw [hstep, hstep']
    exact ⟨hagree, .cons (levelOf_eq_of_entries hentries) .nil⟩

/-- The next call that observes `d`, if there is one, finds its machine at rest. -/
def MetAtRest (d : PressureDomainId) (rt : PressureRuntime F) : List (Op F) → Prop
  | [] => True
  | op :: ops => if d ∈ op.observes then AtRestAt rt d else MetAtRest d (step rt op).1 ops

instance (d : PressureDomainId) (rt : PressureRuntime F) (ops : List (Op F)) :
    Decidable (MetAtRest d rt ops) := by
  induction ops generalizing rt with
  | nil => exact instDecidableTrue
  | cons op ops ih =>
    unfold MetAtRest
    have := ih (step rt op).1
    infer_instance

/-- **Runs that differ in recreated machines**: the same calls publish the same
levels of `d` when the next of them to observe it finds its machine at rest. -/
theorem recreated_run {a b : PressureRuntime F} (ha : Sound a) (hb : Sound b)
    {d : PressureDomainId} (h : AgreeUpTo Recreated (SameIn Set.univ) d a b) {ops : List (Op F)}
    (hmet : MetAtRest d a ops) :
    List.Forall₂ (fun pub pub' => pub.snapshot.levelOf d = pub'.snapshot.levelOf d)
      (publishedBy a ops) (publishedBy b ops) := by
  induction ops generalizing a b with
  | nil => exact .nil
  | cons op ops ih =>
    by_cases hop : d ∈ op.observes
    · have hrest : AtRestAt a d := by rwa [MetAtRest, if_pos hop] at hmet
      exact (isolated_run ha hb (hrest.agree ha h) (aligned_refl d (op :: ops))).imp
        fun _ _ => levelOf_eq_of_samePublication
    · rw [MetAtRest, if_neg hop] at hmet
      obtain ⟨hagree, hpubs⟩ := agree_unobserved ha hb h hop
      exact List.rel_append hpubs (ih (sound_step ha op) (sound_step hb op) hagree hmet)

/-- **What publishing the policy in force again leaves alone**: inserted at any point of
any run, it changes no published level of a domain whose machine is at rest when the domain
is next observed, if it is. `set_policy` rebuilds the debounce machines, which costs a
machine with a pending transition the observations counted so far; a machine at rest has
none to lose. -/
theorem republish_invisible (pre post : List (Op F)) (d : PressureDomainId)
    (h : MetAtRest d (runFrom PressureRuntime.init pre) post) :
    levelsIn d (publishedBy PressureRuntime.init
        (pre ++ .setPolicy (runFrom PressureRuntime.init pre).policy :: post))
      = levelsIn d (publishedBy PressureRuntime.init (pre ++ post)) := by
  have hs := sound_run (F := F) pre
  have hs' := sound_step hs (.setPolicy (runFrom PressureRuntime.init pre).policy)
  have hmap : levelsIn d (publishedBy (runFrom PressureRuntime.init pre) post)
      = levelsIn d (publishedBy (step (runFrom PressureRuntime.init pre)
        (.setPolicy (runFrom PressureRuntime.init pre).policy)).1 post) :=
    levelsIn_eq (recreated_run hs hs' (agree_republish hs d) h)
  unfold publishedBy
  rw [Machine.outputs_append, Machine.outputs_append, Machine.outputs_cons]
  unfold levelsIn at hmap ⊢
  rw [List.map_append, List.map_append, List.map_append, hmap]
  rfl

/-- A host at 10 percent, then rising. -/
def risingHost (committed : UInt64) (nowMs : UInt64) : Op ℚ :=
  .refresh nowMs [{ name := "host", outcome := .returned { observations :=
    [{ id := { high := 0, low := 1 }, type := .hostMemory, totalCapacity := 100,
       committed := committed }] } }]

/-- Published while the host is calm, the policy in force changes nothing. -/
theorem republish_invisible_calm :
    levelsIn { high := 0, low := 1 } (publishedBy PressureRuntime.init
        ([.registerProvider "host", risingHost 10 1000]
          ++ .setPolicy (runFrom PressureRuntime.init
              [.registerProvider "host", risingHost 10 1000]).policy
            :: [risingHost 90 2000, risingHost 90 3000]))
      = levelsIn { high := 0, low := 1 } (publishedBy PressureRuntime.init
          ([.registerProvider "host", risingHost 10 1000]
            ++ [risingHost 90 2000, risingHost 90 3000])) :=
  republish_invisible _ _ _ (by decide +kernel)

/-- Published while the host is at `high`, it takes the next snapshot of the host
down to `normal`. -/
theorem republish_relieves :
    let pre : List (Op ℚ) := [.registerProvider "host", risingHost 90 1000, risingHost 90 2000]
    let post : List (Op ℚ) := [risingHost 90 3000]
    Machine.Along step Legal PressureRuntime.init (pre ++ post) ∧
      levelsIn { high := 0, low := 1 } (publishedBy PressureRuntime.init
          (pre ++ .setPolicy (runFrom PressureRuntime.init pre).policy :: post))
        ≠ levelsIn { high := 0, low := 1 } (publishedBy PressureRuntime.init (pre ++ post)) := by
  decide +kernel

end MemoryPressure
