import MemoryPressure.Run

/-!
# The runtime as a product of cells

Seen from one domain, the runtime is a small machine of its own: the policy, the
domain's budget, its retained state and its published entries. It reads of a refresh
the domain's observations and how the providers ended, and nothing of any other
domain.

- `Cell`, `Cell.step`: that machine. It is stated on its own, without the maps, the loops
  and the other members of the runtime: what the component is for, as seen from a domain.
- `view_step`: one call on the runtime is one step of every cell (**refinement**).
- `product_of_cells`: a run of the runtime is, domain by domain, a run of the cells.
  What the domains have in common is one bit, whether the host can take displaced
  bytes; it reaches the responses, and the text that is rebuilt with them.

The refinement is a view in the sense of `Foundation/Machine.lean` (`Machine.view_run`), from
the spec lemmas of a refresh that say what comes of one domain (`lookup_refreshed`,
`entriesOf_published`). It holds of every runtime and every call, reachable or not, as nothing
in it needs an invariant: a domain may be observed twice, and a refresh may be cut short.

What is published of a domain beyond its cell is written by the second pass over all
entries, and `DomainState.bare` takes it off.
-/

namespace MemoryPressure

variable {F : Type} [Double F]

/-- A domain state in all fields but those the second pass writes. -/
def DomainState.bare (ds : DomainState F) : DomainState F :=
  { ds with responses := [], explanation := "" }

@[simp] theorem bare_respond (blocked : Bool) (ds : DomainState F) :
    (respond blocked ds).bare = ds.bare := rfl

@[simp] theorem respond_bare (blocked : Bool) (ds : DomainState F) :
    respond blocked ds.bare = respond blocked ds := rfl

@[simp] theorem bare_bare (ds : DomainState F) : ds.bare.bare = ds.bare := rfl

/-- One domain's part of the runtime. -/
structure Cell (F : Type) [Double F] where
  policy : PressurePolicy F
  budget : Option Budget
  state : Option (DomainRuntimeState F)
  entries : List (DomainState F)

namespace Cell

/-- What one observation makes of the domain. -/
def interpret (pol : PressurePolicy F) (budget : Option Budget) (nowMs : UInt64)
    (st : DomainRuntimeState F) (sight : Sighting F) : DomainRuntimeState F × DomainState F :=
  let st' := st.observe pol budget nowMs sight.2
  (st', domainStateFor pol budget nowMs sight.1 st.hysteresis.current st' sight.2)

/-- A refresh: the observations of the domain, or what becomes of it without any. -/
def refresh (c : Cell F) (nowMs : UInt64) (health : Finmap (fun _ : String => ProviderStatus)) :
    List (Sighting F) → Cell F
  | [] =>
    { c with
      state := if c.entries.any fun pd => !(healthFor health pd.provider).notFresh then none
        else c.state
      entries := (c.entries.filter fun pd => (healthFor health pd.provider).notFresh).map
        fun pd => (keeper nowMs pd).bare }
  | sights =>
    let r := Keyed.solo (DomainRuntimeState.new c.policy.hysteresis 16)
      (interpret c.policy c.budget nowMs) c.state sights
    { c with state := r.1, entries := r.2.map DomainState.bare }

/-- One call, as far as domain `d` goes. A refresh shows the entries it leaves. -/
def step (d : PressureDomainId) (c : Cell F) : Op F → Cell F × List (List (DomainState F))
  | .setPolicy p =>
    if (validatePolicy p).isSome then (c, [])
    else
      ({ c with
        policy := p
        state := c.state.map fun st =>
          { st with hysteresis := HysteresisState.new p.hysteresis } }, [])
  | .setBudget id b =>
    if id = d ∧ validateBudget b = none then ({ c with budget := some b }, []) else (c, [])
  | .clearBudget id => if id = d then ({ c with budget := none }, []) else (c, [])
  | .setHistoryLimit _ | .registerProvider _ => (c, [])
  | .refresh nowMs polls =>
    if Completes polls then
      let c' := c.refresh nowMs (healthAfter ∅ polls) (sightingsFor d (sightingsOf polls))
      (c', [c'.entries])
    else (c, [])

/-- Domain `d` of a runtime. -/
def view (d : PressureDomainId) (rt : PressureRuntime F) : Cell F where
  policy := rt.policy
  budget := rt.budgets.lookup d
  state := rt.domainStates.lookup d
  entries := (rt.currentSnapshot.entriesOf d).map DomainState.bare

end Cell

/-- The entries of a domain in a published snapshot, but for the second pass. -/
def Published.shows (d : PressureDomainId) (pub : Published F) : List (DomainState F) :=
  (pub.snapshot.entriesOf d).map DomainState.bare

open PressureRuntime (CompletesWith refreshed published swept)

/-! ## One refresh -/

/-- The interpretation loop reads one budget for one domain. -/
theorem interpretFor_eq (pol : PressurePolicy F) (budgets : Budgets) (nowMs : UInt64)
    (d : PressureDomainId) (st : Option (DomainRuntimeState F)) {sights : List (Sighting F)}
    (h : ∀ sight ∈ sights, sight.2.id = d) :
    interpretFor pol budgets nowMs st sights
      = Keyed.solo (DomainRuntimeState.new pol.hysteresis 16)
          (Cell.interpret pol (budgets.lookup d) nowMs) st sights := by
  induction sights generalizing st with
  | nil => rfl
  | cons sight sights ih =>
    have hone : interpretStep pol budgets nowMs (st.getD (DomainRuntimeState.new pol.hysteresis 16))
        sight = Cell.interpret pol (budgets.lookup d) nowMs
          (st.getD (DomainRuntimeState.new pol.hysteresis 16)) sight := by
      rw [← h sight List.mem_cons_self]
      rfl
    have hrest := ih (some (interpretStep pol budgets nowMs
      (st.getD (DomainRuntimeState.new pol.hysteresis 16)) sight).1)
      fun s hs => h s (List.mem_cons_of_mem sight hs)
    rw [interpretFor] at hrest ⊢
    rw [Keyed.solo, Keyed.solo, hrest, hone]

/-- **A completing refresh is a refresh of every cell.** -/
theorem view_refreshed {rt : PressureRuntime F} (hs : Sound rt) (d : PressureDomainId)
    {nowMs : UInt64} {polls : List (Poll F)} {log : PollLog F}
    (hlog : CompletesWith rt nowMs polls log) :
    Cell.view d (refreshed rt.policy rt.budgets rt nowMs log)
      = (Cell.view d rt).refresh nowMs (healthAfter ∅ polls)
          (sightingsFor d (sightingsOf polls)) := by
  have hhealth : log.health = healthAfter ∅ polls := hlog.health.trans (by rw [hs.health])
  rw [← hlog.sightings, ← hhealth]
  have hids : ∀ sight ∈ sightingsFor d log.sightings, sight.2.id = d := fun sight hmem =>
    of_decide_eq_true (List.mem_filter.mp hmem).2
  cases hsights : sightingsFor d log.sightings with
  | nil =>
    obtain ⟨hentries, hlookup⟩ :=
      PressureRuntime.entriesOf_unseen rt.policy rt.budgets rt nowMs hsights
    have hentries' : ((refreshed rt.policy rt.budgets rt nowMs log).currentSnapshot.entriesOf d).map
        DomainState.bare = (((rt.currentSnapshot.entriesOf d).map DomainState.bare).filter fun pd =>
          (healthFor log.health pd.provider).notFresh).map fun pd => (keeper nowMs pd).bare := by
      show ((published rt.policy rt.budgets rt nowMs log).snapshot.entriesOf d).map _ = _
      rw [hentries, List.map_map, List.filter_map, List.map_map]
      rfl
    have hstate : (refreshed rt.policy rt.budgets rt nowMs log).domainStates.lookup d
        = if ((rt.currentSnapshot.entriesOf d).map DomainState.bare).any fun pd =>
            !(healthFor log.health pd.provider).notFresh then none
          else rt.domainStates.lookup d := by
      rw [hlookup, List.any_map]
      rfl
    rw [Cell.view, hentries', hstate]
    rfl
  | cons sight sights =>
    have hne : sightingsFor d log.sightings ≠ [] := by simp [hsights]
    obtain ⟨hentries, hlookup⟩ :=
      PressureRuntime.entriesOf_observed rt.policy rt.budgets rt nowMs hne
    rw [interpretFor_eq rt.policy rt.budgets nowMs d _ hids, hsights] at hentries hlookup
    have hentries' : ((refreshed rt.policy rt.budgets rt nowMs log).currentSnapshot.entriesOf d).map
        DomainState.bare = (Keyed.solo (DomainRuntimeState.new rt.policy.hysteresis 16)
          (Cell.interpret rt.policy (rt.budgets.lookup d) nowMs) (rt.domainStates.lookup d)
          (sight :: sights)).2.map DomainState.bare := by
      show ((published rt.policy rt.budgets rt nowMs log).snapshot.entriesOf d).map _ = _
      rw [hentries, List.map_map]
      rfl
    rw [Cell.view, hentries', hlookup]
    rfl

/-- The second pass sees the types and levels it leaves. -/
theorem hostBlocked_map_respond (blocked : Bool) (domains : List (DomainState F)) :
    hostBlocked (domains.map (respond blocked)) = hostBlocked domains := by
  have hpresent : hostPresent (domains.map (respond blocked)) = hostPresent domains := by
    rw [hostPresent, List.any_map]
    rfl
  have hsev : hostSev (domains.map (respond blocked)) = hostSev domains := by
    rw [hostSev, List.foldl_map]
    rfl
  rw [hostBlocked, hpresent, hsev]
  rfl

/-- **What a refresh publishes of a domain** is what its cell shows, with the responses
the host allows. -/
theorem entriesOf_respond (rt : PressureRuntime F) (nowMs : UInt64) (log : PollLog F)
    (d : PressureDomainId) :
    (published rt.policy rt.budgets rt nowMs log).snapshot.entriesOf d
      = ((published rt.policy rt.budgets rt nowMs log).shows d).map
          (respond (hostBlocked
              (published rt.policy rt.budgets rt nowMs log).snapshot.domains)) := by
  have hblocked : hostBlocked (published rt.policy rt.budgets rt nowMs log).snapshot.domains
      = hostBlocked (swept rt.policy rt.budgets rt nowMs log).domains :=
    hostBlocked_map_respond _ _
  rw [hblocked, Published.shows, List.map_map]
  conv_lhs =>
    rw [← List.map_id ((published rt.policy rt.budgets rt nowMs log).snapshot.entriesOf d)]
  refine List.map_congr_left ?_
  intro ds hds
  obtain ⟨ds₀, -, rfl⟩ := List.mem_map.mp (Snapshot.mem_entriesOf.mp hds).1
  rfl

/-! ## Runs -/

/-- **One call is one step of every cell.** -/
theorem view_step {rt : PressureRuntime F} (hs : Sound rt) (d : PressureDomainId) (op : Op F) :
    Cell.view d (step rt op).1 = (Cell.step d (Cell.view d rt) op).1 ∧
      (step rt op).2.map (Published.shows d) = (Cell.step d (Cell.view d rt) op).2 := by
  cases op with
  | setPolicy p =>
    show Cell.view d (rt.setPolicy p) = _ ∧ _
    rw [PressureRuntime.setPolicy, Cell.step]
    split_ifs
    · exact ⟨rfl, rfl⟩
    · refine ⟨?_, rfl⟩
      simp only [Cell.view, Keyed.lookup_mapVal]
  | setBudget id b =>
    show Cell.view d (rt.setBudget id b) = _ ∧ _
    rw [PressureRuntime.setBudget, Cell.step]
    by_cases hvalid : validateBudget b = none
    · rw [if_neg (by simp [hvalid])]
      by_cases hid : id = d
      · rw [if_pos ⟨hid, hvalid⟩, hid]
        refine ⟨?_, rfl⟩
        simp only [Cell.view, Finmap.lookup_insert]
      · rw [if_neg fun h => hid h.1]
        refine ⟨?_, rfl⟩
        simp only [Cell.view, Finmap.lookup_insert_of_ne _ (Ne.symm hid)]
    · rw [if_pos (Option.isSome_iff_ne_none.mpr hvalid), if_neg fun h => hvalid h.2]
      exact ⟨rfl, rfl⟩
  | clearBudget id =>
    show Cell.view d (rt.clearBudget id) = _ ∧ _
    rw [PressureRuntime.clearBudget, Cell.step]
    by_cases hid : id = d
    · rw [if_pos hid, hid]
      refine ⟨?_, rfl⟩
      simp only [Cell.view, Finmap.lookup_erase]
    · rw [if_neg hid]
      refine ⟨?_, rfl⟩
      simp only [Cell.view, Finmap.lookup_erase_ne (Ne.symm hid)]
  | setHistoryLimit | registerProvider => exact ⟨rfl, rfl⟩
  | refresh nowMs polls =>
    show Cell.view d (rt.refresh nowMs polls).1 = _ ∧ (rt.refresh nowMs polls).2.map _ = _
    rw [Cell.step]
    rcases rt.refresh_cases nowMs polls with ⟨log, hlog⟩ | ⟨hnot, log, heq⟩
    · have hview := view_refreshed hs d hlog
      rw [hlog.refresh_eq, if_pos hlog.completes, ← hview]
      exact ⟨rfl, rfl⟩
    · rw [heq, if_neg hnot]
      exact ⟨rfl, rfl⟩

/-- **The runtime is a product of cells.** After every run each domain is where its
cell is after the same calls, and every publication showed of it what the cell did,
with the responses and the text that the levels of the host leave it. -/
theorem product_of_cells (ops : List (Op F)) (d : PressureDomainId) :
    Cell.view d (runFrom PressureRuntime.init ops)
        = Machine.run (Cell.step d) (Cell.view d PressureRuntime.init) ops ∧
      (publishedBy PressureRuntime.init ops).map (Published.shows d)
        = Machine.outputs (Cell.step d) (Cell.view d PressureRuntime.init) ops ∧
      ∀ pub ∈ publishedBy PressureRuntime.init ops,
        pub.snapshot.entriesOf d
          = (pub.shows d).map (respond (hostBlocked pub.snapshot.domains)) := by
  obtain ⟨hview, hout⟩ := Machine.view_run step (Cell.view d) (Published.shows d)
    (I := Sound) (s := PressureRuntime.init)
    (fun rt op (_ : op ∈ ops) hs => view_step hs d op)
    (fun _ op _ hs => sound_step hs op) sound_init
  refine ⟨hview, hout, fun pub hpub => ?_⟩
  obtain ⟨before, op, -, -, hstep⟩ := Machine.exists_step_of_mem_outputs step hpub
  obtain ⟨nowMs, polls, log, -, -, rfl⟩ := step_publishes hstep
  exact entriesOf_respond _ nowMs log d

end MemoryPressure
