import MemoryPressure.Run

/-!
# Runtimes that agree on one domain

`AgreeUpTo R P d a b`: `a` and `b` have the same policy, the same budget of `d`
and the same entries of `d`, up to the responses (which read the host tier) and
up to the names of the providers, which `P` relates; their retained states of
`d` are related by `R`. Nothing is said of other domains. It is the relation of every
comparison of two runs in this development: with another domain around, with a call
inserted, with providers renamed by a trace.

- `AgreeUpTo.unseen`: a refresh of each that does not see `d` and decides its
  retention alike keeps the agreement and publishes `d` alike;
- `AgreeUpTo.setPolicy`, `setBudget`, `clearBudget`: the same policy or budget
  call on both keeps it;
- `AgreeUpTo.of_eq`: a call that leaves policy, budget, state and snapshot of `d`
  alone, on either side, keeps it too;
- `Agree`: the states are similar. Then a refresh of each that sees the same
  observations of `d` publishes it alike (`Agree.refresh`).

The relation of states is a parameter because not every comparison can afford similarity
all the time: while `d` is not seen nothing is asked of `R` but that recreating machines
keeps it.
-/

namespace MemoryPressure

variable {F : Type} [Double F]

/-- A domain state but for who reported it and what to do about it. -/
def DomainState.core (ds : DomainState F) : DomainState F :=
  { ds with provider := "", responses := [] }

/-- Two domain states that differ in responses and provider at most, with
providers related by `P`. -/
structure SameState (P : String → String → Prop) (x y : DomainState F) : Prop where
  core : x.core = y.core
  provider : P x.provider y.provider

namespace SameState

variable {P : String → String → Prop} {x y : DomainState F}

theorem level_eq (h : SameState P x y) : x.level = y.level := (congrArg DomainState.level h.core :)

/-- Responses and explanation are written from what the core holds. -/
theorem respond (h : SameState P x y) (blocked blocked' : Bool) :
    SameState P (respond blocked x) (respond blocked' y) where
  core := by
    have hcore : ∀ (b : Bool) (z : DomainState F), (MemoryPressure.respond b z).core
        = { z.core with explanation := buildExplanation z.core } := fun _ _ => rfl
    rw [hcore, hcore, h.core]
  provider := h.provider

/-- Retained copies of same states are the same once they have been given their
explanation. -/
theorem respond_keeper (h : SameState P x y) (blocked blocked' : Bool) (nowMs : UInt64) :
    SameState P (MemoryPressure.respond blocked (keeper nowMs x))
      (MemoryPressure.respond blocked' (keeper nowMs y)) where
  core := by
    have hcore : ∀ (b : Bool) (z : DomainState F),
        (MemoryPressure.respond b (keeper nowMs z)).core
          = { z.core with
              validity := .stale, confidence := .low, timestampMs := nowMs
              explanation := buildExplanation z.core } := fun _ _ => rfl
    rw [hcore, hcore, h.core]
  provider := h.provider

end SameState

/-- Similar retained states make the same of the same observation, whoever
reports it. -/
theorem interpretStep_sameState {P : String → String → Prop} {pol : PressurePolicy F}
    {budgets budgets' : Budgets} {nowMs : UInt64} {st st' : DomainRuntimeState F}
    (h : DomainRuntimeState.Similar st st') {sight sight' : Sighting F}
    (hname : P sight.1 sight'.1) (hobs : sight.2 = sight'.2)
    (hbudget : budgets.lookup sight.2.id = budgets'.lookup sight.2.id) :
    DomainRuntimeState.Similar (interpretStep pol budgets nowMs st sight).1
        (interpretStep pol budgets' nowMs st' sight').1 ∧
      SameState P (interpretStep pol budgets nowMs st sight).2
        (interpretStep pol budgets' nowMs st' sight').2 := by
  obtain ⟨name, obs⟩ := sight
  obtain ⟨name', obs'⟩ := sight'
  obtain rfl : obs = obs' := hobs
  obtain ⟨hsim, hout⟩ := h.interpretStep pol budgets' nowMs (name, obs)
  -- the budget is all that `interpretStep` reads of the budgets
  have hstate : (interpretStep pol budgets nowMs st (name, obs)).1
      = (interpretStep pol budgets' nowMs st (name, obs)).1 := by
    simp only [interpretStep, hbudget]
  have hcore : (interpretStep pol budgets nowMs st (name, obs)).2
      = (interpretStep pol budgets' nowMs st (name, obs)).2 := by
    simp only [interpretStep, hbudget]
  refine ⟨hstate ▸ hsim, ?_, hname⟩
  rw [hcore, hout]
  rfl

/-- Filters that agree on related elements keep related lists related. -/
theorem forall₂_filter {α β : Type*} {R : α → β → Prop} {p : α → Bool} {q : β → Bool}
    {l : List α} {l' : List β} (h : List.Forall₂ R l l')
    (hpq : ∀ x ∈ l, ∀ y ∈ l', R x y → p x = q y) :
    List.Forall₂ R (l.filter p) (l'.filter q) := by
  induction h with
  | nil => exact .nil
  | @cons x y l l' hxy _ ih =>
    have hrest :=
      ih fun x hx y hy => hpq x (List.mem_cons_of_mem _ hx) y (List.mem_cons_of_mem _ hy)
    have heq := hpq x (List.mem_cons_self ..) y (List.mem_cons_self ..) hxy
    by_cases hp : p x = true
    · rw [List.filter_cons_of_pos hp, List.filter_cons_of_pos (heq ▸ hp)]
      exact .cons hxy hrest
    · rw [List.filter_cons_of_neg hp, List.filter_cons_of_neg (heq ▸ hp)]
      exact hrest

theorem forall₂_any {α β : Type*} {R : α → β → Prop} {p : α → Bool} {q : β → Bool}
    {l : List α} {l' : List β} (h : List.Forall₂ R l l')
    (hpq : ∀ x ∈ l, ∀ y ∈ l', R x y → p x = q y) : l.any p = l'.any q := by
  induction h with
  | nil => rfl
  | @cons x y l l' hxy _ ih =>
    rw [List.any_cons, List.any_cons,
      hpq x (List.mem_cons_self ..) y (List.mem_cons_self ..) hxy,
      ih fun x hx y hy => hpq x (List.mem_cons_of_mem _ hx) y (List.mem_cons_of_mem _ hy)]

/-- Agreement on everything that goes into the entries of `d`. -/
structure AgreeUpTo (R : DomainRuntimeState F → DomainRuntimeState F → Prop)
    (P : String → String → Prop) (d : PressureDomainId) (a b : PressureRuntime F) : Prop where
  policy : a.policy = b.policy
  budget : a.budgets.lookup d = b.budgets.lookup d
  state : Option.Rel R (a.domainStates.lookup d) (b.domainStates.lookup d)
  entries : List.Forall₂ (SameState P) (a.currentSnapshot.entriesOf d)
    (b.currentSnapshot.entriesOf d)

/-- Agreement with similar retained states: the same input is published alike. -/
abbrev Agree (P : String → String → Prop) (d : PressureDomainId) (a b : PressureRuntime F) : Prop :=
  AgreeUpTo DomainRuntimeState.Similar P d a b

/-- Observations of `d` that are the same, by related providers. -/
def SameSightings (P : String → String → Prop) (s s' : List (Sighting F)) : Prop :=
  List.Forall₂ (fun x y => P x.1 y.1 ∧ x.2 = y.2) s s'

section

open PressureRuntime (CompletesWith refreshed published)

variable {R : DomainRuntimeState F → DomainRuntimeState F → Prop} {P : String → String → Prop}
  {d : PressureDomainId} {a b : PressureRuntime F}

namespace AgreeUpTo

/-- Calls that leave alone what a domain depends on keep every agreement on it. -/
theorem of_eq (h : AgreeUpTo R P d a b) {a' b' : PressureRuntime F} (hpa : a'.policy = a.policy)
    (hba : a'.budgets.lookup d = a.budgets.lookup d) (hsa : a'.domainStates = a.domainStates)
    (hca : a'.currentSnapshot = a.currentSnapshot) (hpb : b'.policy = b.policy)
    (hbb : b'.budgets.lookup d = b.budgets.lookup d) (hsb : b'.domainStates = b.domainStates)
    (hcb : b'.currentSnapshot = b.currentSnapshot) : AgreeUpTo R P d a' b' where
  policy := by rw [hpa, hpb, h.policy]
  budget := by rw [hba, hbb, h.budget]
  state := by
    rw [hsa, hsb]
    exact h.state
  entries := by
    rw [hca, hcb]
    exact h.entries

/-- A call of `set_policy` with one policy on both sides keeps the agreement, when
new machines relate states that were related. -/
theorem setPolicy (h : AgreeUpTo R P d a b) (p : PressurePolicy F)
    (hnew : ∀ st st', R st st' → R { st with hysteresis := HysteresisState.new p.hysteresis }
      { st' with hysteresis := HysteresisState.new p.hysteresis }) :
    AgreeUpTo R P d (a.setPolicy p) (b.setPolicy p) := by
  unfold PressureRuntime.setPolicy
  split_ifs
  · exact h
  · refine ⟨rfl, h.budget, ?_, h.entries⟩
    rw [Keyed.lookup_mapVal, Keyed.lookup_mapVal]
    have hst := h.state
    generalize a.domainStates.lookup d = x, b.domainStates.lookup d = y at hst ⊢
    cases hst with
    | none => exact .none
    | some hxy => exact .some (hnew _ _ hxy)

theorem setBudget (h : AgreeUpTo R P d a b) (bud : Budget) :
    AgreeUpTo R P d (a.setBudget d bud) (b.setBudget d bud) := by
  unfold PressureRuntime.setBudget
  split_ifs
  · exact h
  · refine ⟨h.policy, ?_, h.state, h.entries⟩
    rw [Finmap.lookup_insert, Finmap.lookup_insert]

theorem clearBudget (h : AgreeUpTo R P d a b) :
    AgreeUpTo R P d (a.clearBudget d) (b.clearBudget d) where
  policy := h.policy
  budget := by
    show (a.budgets.erase d).lookup d = (b.budgets.erase d).lookup d
    rw [Finmap.lookup_erase, Finmap.lookup_erase]
  state := h.state
  entries := h.entries

/-- **A refresh of each that does not see `d`** publishes it alike when its
retention is decided alike, and keeps the agreement, whatever relates the
retained states. -/
theorem unseen (h : AgreeUpTo R P d a b) (nowMs : UInt64) {log log' : PollLog F}
    (hseen : sightingsFor d log.sightings = []) (hseen' : sightingsFor d log'.sightings = [])
    (hkeep : ∀ x ∈ a.currentSnapshot.entriesOf d, ∀ y ∈ b.currentSnapshot.entriesOf d,
      SameState P x y →
        (healthFor log.health x.provider).notFresh = (healthFor log'.health y.provider).notFresh) :
    AgreeUpTo R P d (refreshed a.policy a.budgets a nowMs log)
        (refreshed b.policy b.budgets b nowMs log') ∧
      List.Forall₂ (SameState P)
        ((published a.policy a.budgets a nowMs log).snapshot.entriesOf d)
        ((published b.policy b.budgets b nowMs log').snapshot.entriesOf d) := by
  obtain ⟨hentries, hstate⟩ := PressureRuntime.entriesOf_unseen a.policy a.budgets a nowMs hseen
  obtain ⟨hentries', hstate'⟩ := PressureRuntime.entriesOf_unseen b.policy b.budgets b nowMs hseen'
  have hsame : List.Forall₂ (SameState P)
      ((published a.policy a.budgets a nowMs log).snapshot.entriesOf d)
      ((published b.policy b.budgets b nowMs log').snapshot.entriesOf d) := by
    rw [hentries, hentries', List.forall₂_map_left_iff, List.forall₂_map_right_iff]
    exact (forall₂_filter h.entries hkeep).imp fun x y hxy => hxy.respond_keeper _ _ nowMs
  refine ⟨⟨h.policy, h.budget, ?_, hsame⟩, hsame⟩
  -- the state is erased on both sides or on neither
  have hdrop := forall₂_any h.entries fun x hx y hy hxy =>
    congrArg Bool.not (hkeep x hx y hy hxy)
  rw [hstate, hstate', hdrop]
  split_ifs
  · exact .none
  · exact h.state

end AgreeUpTo

/-- **A refresh of each** that sees `d` alike keeps the agreement and publishes
`d` alike. -/
theorem Agree.refresh (h : Agree P d a b) {nowMs : UInt64} {polls polls' : List (Poll F)}
    {log log' : PollLog F} (hlog : CompletesWith a nowMs polls log)
    (hlog' : CompletesWith b nowMs polls' log')
    (hsights : SameSightings P (sightingsFor d (sightingsOf polls))
      (sightingsFor d (sightingsOf polls')))
    (hkeep : sightingsFor d (sightingsOf polls) = [] →
      ∀ x ∈ a.currentSnapshot.entriesOf d, ∀ y ∈ b.currentSnapshot.entriesOf d, SameState P x y →
        (healthFor log.health x.provider).notFresh = (healthFor log'.health y.provider).notFresh) :
    Agree P d (refreshed a.policy a.budgets a nowMs log)
        (refreshed b.policy b.budgets b nowMs log') ∧
      List.Forall₂ (SameState P)
        ((published a.policy a.budgets a nowMs log).snapshot.entriesOf d)
        ((published b.policy b.budgets b nowMs log').snapshot.entriesOf d) := by
  rw [← hlog.sightings, ← hlog'.sightings] at hsights
  rw [← hlog.sightings] at hkeep
  by_cases hseen : sightingsFor d log.sightings = []
  · have hseen' : sightingsFor d log'.sightings = [] := by
      rw [hseen] at hsights
      exact List.forall₂_nil_left_iff.mp hsights
    exact h.unseen nowMs hseen hseen' (hkeep hseen)
  · -- seen on both sides: the same observations meet similar states
    have hseen' : sightingsFor d log'.sightings ≠ [] := by
      intro hnil
      rw [hnil] at hsights
      exact hseen (List.forall₂_nil_right_iff.mp hsights)
    obtain ⟨hentries, hstate⟩ :=
      PressureRuntime.entriesOf_observed a.policy a.budgets a nowMs hseen
    obtain ⟨hentries', hstate'⟩ :=
      PressureRuntime.entriesOf_observed b.policy b.budgets b nowMs hseen'
    have hids : ∀ sight ∈ sightingsFor d log.sightings, sight.2.id = d := by
      intro sight hmem
      simpa using (List.mem_filter.mp hmem).2
    have hsights' : List.Forall₂
        (fun x y : Sighting F => P x.1 y.1 ∧ x.2 = y.2 ∧ x.2.id = d)
        (sightingsFor d log.sightings) (sightingsFor d log'.sightings) := by
      have hboth := (List.forall₂_and_left _ _).mpr ⟨hids, hsights⟩
      exact hboth.imp fun x y hxy => ⟨hxy.2.1, hxy.2.2, hxy.1⟩
    -- one sighting after the other, from similar states to similar states
    obtain ⟨hR, hT⟩ := Keyed.solo_rel
      (DomainRuntimeState.new a.policy.hysteresis 16) (interpretStep a.policy a.budgets nowMs)
      (DomainRuntimeState.new b.policy.hysteresis 16) (interpretStep b.policy b.budgets nowMs)
      (R := DomainRuntimeState.Similar) (T := SameState P)
      (h.policy ▸ .refl _)
      (fun st st' sight sight' hst hsight => by
        rw [← h.policy]
        refine interpretStep_sameState hst hsight.1 hsight.2.1 ?_
        rw [hsight.2.2]
        exact h.budget)
      h.state hsights'
    have hsame : List.Forall₂ (SameState P)
        ((published a.policy a.budgets a nowMs log).snapshot.entriesOf d)
        ((published b.policy b.budgets b nowMs log').snapshot.entriesOf d) := by
      rw [hentries, hentries', List.forall₂_map_left_iff, List.forall₂_map_right_iff]
      exact hT.imp fun x y hxy => hxy.respond _ _
    refine ⟨⟨h.policy, h.budget, ?_, hsame⟩, hsame⟩
    rw [hstate, hstate']
    exact hR

/-- New machines for one configuration, on similar states. -/
theorem DomainRuntimeState.Similar.recreate {st st' : DomainRuntimeState F}
    (h : DomainRuntimeState.Similar st st') (cfg : HysteresisConfig F) :
    DomainRuntimeState.Similar { st with hysteresis := HysteresisState.new cfg }
      { st' with hysteresis := HysteresisState.new cfg } := by
  refine ⟨.refl _, ?_⟩
  rw [← h.rest]

end

end MemoryPressure
