import MemoryPressure.Agreement

/-!
# Domain isolation

What a domain publishes depends on its own observations, its own budget, the
policy, the clock and the statuses of the providers that report it. Two runs
that agree on these (`SameFor`) and differ in anything else (`Elsewhere`)
publish the same `DomainState` for it in every snapshot, but for the responses
(`domain_isolated`).

The statement is about two runs that are aligned call by call, with any calls about other
things in between on either side: budgets of other domains, registrations, the history
limit, and refreshes that an exception cuts short. In the refreshes that are matched, other
domains may be observed at will, other providers may fail, and everything may be polled in
any order that keeps the observations of this domain in theirs. The proof is a lockstep of
the two runs (`Machine.lockstep`) under the agreement of `Agreement.lean`.

Responses are excluded because they do depend on other domains: whether a demotion is
recommended is decided by the levels of host-like domains. `product_of_cells`
(`Cell.lean`) says exactly how much of them comes through.
-/

namespace MemoryPressure

variable {F : Type} [Double F]

/-- The same call as far as `d` goes: the same policy, the same budget of `d`, or
refreshes at the same time that both complete, with the same observations of `d`
by providers in `S` and the same statuses (or throws) of these. -/
def SameFor (S : Set String) (d : PressureDomainId) : Op F → Op F → Prop
  | .setPolicy p, .setPolicy p' => p = p'
  | .setBudget id b, .setBudget id' b' => id = d ∧ id' = d ∧ b = b'
  | .clearBudget id, .clearBudget id' => id = d ∧ id' = d
  | .refresh nowMs polls, .refresh nowMs' polls' =>
    nowMs = nowMs' ∧ Completes polls ∧ Completes polls' ∧
      sightingsFor d (sightingsOf polls) = sightingsFor d (sightingsOf polls') ∧
      (∀ sight ∈ sightingsFor d (sightingsOf polls), sight.1 ∈ S) ∧
      ∀ p ∈ S, statusesOf p polls = statusesOf p polls'
  | _, _ => False

/-- A call about something else: the budget of another domain, a registration,
the history limit, or a refresh that an escaping exception cuts short. -/
def Elsewhere (d : PressureDomainId) : Op F → Prop
  | .setBudget id _ => id ≠ d
  | .clearBudget id => id ≠ d
  | .setHistoryLimit _ => True
  | .registerProvider _ => True
  | .refresh _ polls => ¬ Completes polls
  | .setPolicy _ => False

/-- A domain state in all fields except `responses`. -/
def DomainState.withoutResponses (ds : DomainState F) : DomainState F := { ds with responses := [] }

/-- Two names of one provider, which is among `S`. -/
def SameIn (S : Set String) (p p' : String) : Prop := p = p' ∧ p ∈ S

theorem SameState.withoutResponses_eq {S : Set String} {x y : DomainState F}
    (h : SameState (SameIn S) x y) : x.withoutResponses = y.withoutResponses := by
  have hback : ∀ z : DomainState F,
      z.withoutResponses = { z.core with provider := z.provider } := fun _ => rfl
  rw [hback, hback, h.core, h.provider.1]

/-- A call about something else publishes nothing and leaves `d` alone. -/
theorem elsewhere_step (rt : PressureRuntime F) {d : PressureDomainId} {op : Op F}
    (hop : Elsewhere d op) :
    (step rt op).2 = [] ∧ (step rt op).1.policy = rt.policy ∧
      (step rt op).1.budgets.lookup d = rt.budgets.lookup d ∧
      (step rt op).1.domainStates = rt.domainStates ∧
      (step rt op).1.currentSnapshot = rt.currentSnapshot := by
  cases op with
  | setPolicy => cases hop
  | setHistoryLimit | registerProvider => exact ⟨rfl, rfl, rfl, rfl, rfl⟩
  | clearBudget id =>
    exact ⟨rfl, rfl, Finmap.lookup_erase_ne (Ne.symm hop), rfl, rfl⟩
  | setBudget id b =>
    show ([] : List (Published F)) = [] ∧ (rt.setBudget id b).policy = _ ∧
      (rt.setBudget id b).budgets.lookup d = _ ∧ (rt.setBudget id b).domainStates = _ ∧
      (rt.setBudget id b).currentSnapshot = _
    unfold PressureRuntime.setBudget
    split_ifs
    · exact ⟨rfl, rfl, rfl, rfl, rfl⟩
    · exact ⟨rfl, rfl, Finmap.lookup_insert_of_ne _ (Ne.symm hop), rfl, rfl⟩
  | refresh nowMs polls =>
    rcases rt.refresh_cases nowMs polls with ⟨log, hlog⟩ | ⟨-, log, heq⟩
    · exact absurd hlog.completes hop
    -- cut short by an exception, a refresh touches nothing that is asked about
    · have hstep : step rt (.refresh nowMs polls) = (rt.cutShort log, []) := heq
      rw [hstep]
      exact ⟨rfl, rfl, rfl, rfl, rfl⟩

/-- Publications that say the same of `d`, but for the responses. -/
def SamePublication (d : PressureDomainId) (pub pub' : Published F) : Prop :=
  (pub.snapshot.entriesOf d).map DomainState.withoutResponses
    = (pub'.snapshot.entriesOf d).map DomainState.withoutResponses

/-- **One call of each run**, the same for `d`: the agreement is kept and `d` is
published alike. -/
theorem agree_sameFor {S : Set String} {d : PressureDomainId} {a b : PressureRuntime F}
    (ha : Sound a) (hb : Sound b) (h : Agree (SameIn S) d a b) {op op' : Op F}
    (hop : SameFor S d op op') :
    Agree (SameIn S) d (step a op).1 (step b op').1 ∧
      List.Forall₂ (SamePublication d) (step a op).2 (step b op').2 := by
  cases op with
  | setPolicy p =>
    cases op' with
    | setPolicy p' =>
      obtain rfl : p = p' := hop
      exact ⟨h.setPolicy p fun _ _ hst => hst.recreate p.hysteresis, .nil⟩
    | _ => cases hop
  | setBudget id bud =>
    cases op' with
    | setBudget id' bud' =>
      obtain ⟨rfl, rfl, rfl⟩ : id = d ∧ id' = d ∧ bud = bud' := hop
      exact ⟨h.setBudget bud, .nil⟩
    | _ => cases hop
  | clearBudget id =>
    cases op' with
    | clearBudget id' =>
      obtain ⟨rfl, rfl⟩ : id = d ∧ id' = d := hop
      exact ⟨h.clearBudget, .nil⟩
    | _ => cases hop
  | setHistoryLimit | registerProvider => cases op' <;> cases hop
  | refresh nowMs polls =>
    cases op' with
    | refresh nowMs' polls' =>
      obtain ⟨rfl, hc, hc', hsights, hnames, hstatus⟩ := hop
      obtain ⟨log, hlog⟩ := (a.refresh_cases nowMs polls).resolve_right fun hno => hno.1 hc
      obtain ⟨log', hlog'⟩ := (b.refresh_cases nowMs polls').resolve_right fun hno => hno.1 hc'
      have hsame : SameSightings (SameIn S) (sightingsFor d (sightingsOf polls))
          (sightingsFor d (sightingsOf polls')) := by
        rw [← hsights]
        exact List.forall₂_same.mpr fun sight hmem => ⟨⟨rfl, hnames sight hmem⟩, rfl⟩
      -- the providers in `S` report the same status to both
      obtain ⟨hagree, hentries⟩ := h.refresh hlog hlog' hsame fun _ x _ y _ hxy => by
        obtain ⟨hname, hin⟩ := hxy.provider
        rw [hlog.health, hlog'.health, ha.health, hb.health, healthFor_healthAfter,
          healthFor_healthAfter, ← hname, hstatus _ hin]
      have hstep : step a (.refresh nowMs polls) = _ := hlog.refresh_eq
      have hstep' : step b (.refresh nowMs polls') = _ := hlog'.refresh_eq
      rw [hstep, hstep']
      refine ⟨hagree, .cons ?_ .nil⟩
      show List.map _ _ = List.map _ _
      rw [← List.forall₂_eq_eq_eq, List.forall₂_map_left_iff, List.forall₂_map_right_iff]
      exact hentries.imp fun x y hxy => hxy.withoutResponses_eq
    | _ => cases hop

/-- **Agreement carries through runs**: from runtimes that agree on `d`, calls
that are the same for `d` or about something else publish the same for `d`. -/
theorem isolated_run {S : Set String} {d : PressureDomainId} {a b : PressureRuntime F}
    (ha : Sound a) (hb : Sound b) (hagree : Agree (SameIn S) d a b) {ops ops' : List (Op F)}
    (h : Machine.Aligned (SameFor S d) (Elsewhere d) (Elsewhere d) ops ops') :
    List.Forall₂ (SamePublication d) (publishedBy a ops) (publishedBy b ops') := by
  refine Machine.lockstep step
    (R := fun a b : PressureRuntime F => Sound a ∧ Sound b ∧ Agree (SameIn S) d a b)
    (fun a b op op' hR hop => ?_) (fun a b op hR hop => ?_) (fun a b op' hR hop => ?_) h
    ⟨ha, hb, hagree⟩
  · obtain ⟨ha, hb, hagree⟩ := hR
    obtain ⟨hagree', hpubs⟩ := agree_sameFor ha hb hagree hop
    exact ⟨⟨sound_step ha op, sound_step hb op', hagree'⟩, hpubs⟩
  · obtain ⟨ha, hb, hagree⟩ := hR
    obtain ⟨hout, hp, hbud, hs, hc⟩ := elsewhere_step a hop
    exact ⟨hout, sound_step ha op, hb, hagree.of_eq hp hbud hs hc rfl rfl rfl rfl⟩
  · obtain ⟨ha, hb, hagree⟩ := hR
    obtain ⟨hout, hp, hbud, hs, hc⟩ := elsewhere_step b hop
    exact ⟨hout, ha, sound_step hb op', hagree.of_eq rfl rfl rfl rfl hp hbud hs hc⟩

/-- **Domain isolation.** Two runs whose calls are, in order, the same for `d` (with its
observations all by providers in `S`) and otherwise about something else, publish the same
for `d` in every snapshot, in all fields except `responses`. Responses are left out because
the second pass lets the host's level decide whether an accelerator is to demote. -/
theorem domain_isolated (S : Set String) (d : PressureDomainId) {ops ops' : List (Op F)}
    (h : Machine.Aligned (SameFor S d) (Elsewhere d) (Elsewhere d) ops ops') :
    List.Forall₂ (SamePublication d) (publishedBy PressureRuntime.init ops)
      (publishedBy PressureRuntime.init ops') :=
  isolated_run sound_init sound_init ⟨rfl, rfl, .none, .nil⟩ h

/-- What the accelerator of the next two runs reports. -/
def acceleratorPoll (committed : UInt64) : Poll ℚ :=
  { name := "cuda", outcome := .returned { observations :=
      [{ id := { high := 0, low := 2 }, type := .acceleratorMemory, totalCapacity := 100,
         committed := committed }] } }

/-- A run with the accelerator alone, whose provider throws in the end. -/
def aloneRun : List (Op ℚ) :=
  [.registerProvider "cuda", .refresh 1000 [acceleratorPoll 90], .refresh 2000 [acceleratorPoll 95],
    .refresh 3000 [{ name := "cuda", outcome := .threw "lost" }]]

/-- The accelerator of `aloneRun` next to a host that fills up under a budget and fails. -/
def crowdedRun : List (Op ℚ) :=
  let host (committed : UInt64) : Poll ℚ :=
    { name := "host", outcome := .returned { observations :=
        [{ id := { high := 0, low := 1 }, type := .hostMemory, totalCapacity := 100,
           committed := committed }] } }
  [.registerProvider "cuda", .registerProvider "host",
    .setBudget { high := 0, low := 1 } { hardCapacity := 50 },
    .refresh 1000 [host 10, acceleratorPoll 90], .refresh 2000 [acceleratorPoll 95, host 99],
    .refresh 3000 [{ name := "host", outcome := .returned { status := .failed } },
      { name := "cuda", outcome := .threw "lost" }]]

/-- The host changes nothing in what is published for the accelerator. -/
theorem domain_isolated_crowded :
    List.Forall₂ (SamePublication { high := 0, low := 2 })
      (publishedBy PressureRuntime.init aloneRun)
          (publishedBy PressureRuntime.init crowdedRun) := by
  refine domain_isolated {"cuda"} { high := 0, low := 2 }
    (.left trivial (.right trivial (.right trivial (.right (by decide : (_ : PressureDomainId) ≠ _)
      (.both ⟨rfl, by decide, by decide, rfl, ?_, ?_⟩
          (.both ⟨rfl, by decide, by decide, rfl, ?_, ?_⟩
        (.both ⟨rfl, by decide, by decide, rfl, ?_, ?_⟩ .nil)))))))
  -- who reports the accelerator, and how its provider ended, refresh by refresh
  · exact fun sight hsight => List.mem_singleton.mp hsight ▸ rfl
  · rintro p rfl
    decide +kernel
  · exact fun sight hsight => List.mem_singleton.mp hsight ▸ rfl
  · rintro p rfl
    decide +kernel
  · exact fun sight hsight => by cases hsight
  · rintro p rfl
    decide +kernel

end MemoryPressure
