import Mathlib.Data.List.DropRight
import MemoryPressure.Retained

/-!
# Episodes of pressure (`runtime.cpp`, `domain.h`)

A published domain names a peak, kept as a running maximum beside its retained
state. An episode is what was published of the domain since it was last at
`Normal`, or absent; it is defined on the list of snapshots alone.

- `PeaksWith`: what the running maximum has to do with the levels of an episode;
  retention keeps it, and so does an observation that does not open an episode
  below the maximum (`observe_iff`).
- `EpisodeKept`: the invariant of a run with what it has published so far, for one domain:
  the stores are aligned (`Retained.lean`), and the retained state peaks with the episode.
- `peak_per_episode_iff`: the maximum is not reset, so the peak is that of the
  episode exactly when each episode opens at least as high as anything before it.

The condition is asked of each observation, before it is made: what it would take the domain
to, against the peak recorded. For the converse it is the first observation that breaks it
which publishes a wrong peak, at once (`opensAtPeak_of_peaksRight`).
-/

namespace MemoryPressure

variable {F : Type} [Double F]

/-! ## Episodes -/

/-- The snapshot has the domain, above `Normal`. -/
def Snapshot.pressured (s : Snapshot F) (d : PressureDomainId) : Bool :=
  (s.levelOf d).any fun level => level ≠ .normal

/-- **The current episode** of a domain: the levels published for it since the
last snapshot that had it at `Normal`, or did not have it. -/
def episode (d : PressureDomainId) (pubs : List (Published F)) : List PressureLevel :=
  (pubs.rtakeWhile fun pub => pub.snapshot.pressured d).filterMap fun pub => pub.snapshot.levelOf d

/-- The maximum severity rank among some levels. -/
def peakOf (levels : List PressureLevel) : Nat :=
  levels.foldl (fun acc level => max acc (severityFloor level)) 0

@[simp] theorem peakOf_concat (levels : List PressureLevel) (level : PressureLevel) :
    peakOf (levels ++ [level]) = max (peakOf levels) (severityFloor level) := List.foldl_concat ..

/-- What one more published level makes of an episode: it ends at `Normal`, or
where the domain is gone. -/
def extendEpisode (levels : List PressureLevel) : Option PressureLevel → List PressureLevel
  | none => []
  | some level => if level = .normal then [] else levels ++ [level]

theorem episode_concat (d : PressureDomainId) (pubs : List (Published F)) (pub : Published F) :
    episode d (pubs ++ [pub]) = extendEpisode (episode d pubs) (pub.snapshot.levelOf d) := by
  unfold episode
  cases hlevel : pub.snapshot.levelOf d with
  | none =>
    rw [List.rtakeWhile_concat_neg _ _ _ (by simp [Snapshot.pressured, hlevel])]
    rfl
  | some level =>
    by_cases hcalm : level = .normal
    · rw [List.rtakeWhile_concat_neg _ _ _ (by simp [Snapshot.pressured, hlevel, hcalm]),
        extendEpisode, if_pos hcalm]
      rfl
    · rw [List.rtakeWhile_concat_pos _ _ _ (by simp [Snapshot.pressured, hlevel, hcalm]),
        List.filterMap_append, extendEpisode, if_neg hcalm]
      congr 1
      simp [hlevel]

/-! ## The running maximum -/

namespace DomainRuntimeState

/-- A retained state and the episode of its domain: above `Normal` the running
maximum is the peak of the episode. -/
structure PeaksWith (st : DomainRuntimeState F) (levels : List PressureLevel) : Prop where
  reached : severityFloor st.hysteresis.level ≤ st.peakLevelRank
  calm : st.hysteresis.level = .normal → levels = []
  pressured : st.hysteresis.level ≠ .normal → st.peakLevelRank = peakOf levels

variable {st : DomainRuntimeState F} {levels : List PressureLevel}

theorem peaksWith_new (cfg : HysteresisConfig F) (win : Nat) :
    (DomainRuntimeState.new cfg win).PeaksWith [] where
  reached := Nat.zero_le _
  calm := fun _ => rfl
  pressured := fun hne => absurd rfl hne

/-- A publication at the level a state is at leaves its peak. -/
theorem PeaksWith.retained (h : st.PeaksWith levels) :
    st.PeaksWith (extendEpisode levels (some st.hysteresis.level)) where
  reached := h.reached
  calm := fun hcalm => if_pos hcalm
  pressured := fun hne => by
    rw [extendEpisode, if_neg hne, peakOf_concat, ← h.pressured hne, Nat.max_eq_left h.reached]

/-- **An observation keeps the running maximum that of the episode, exactly when**
it does not open an episode below what the maximum is at. -/
theorem PeaksWith.observe_iff (h : st.PeaksWith levels) (pol : PressurePolicy F)
    (budget : Option Budget) (nowMs : UInt64) (obs : DomainObservation F) :
    let after := (st.observe pol budget nowMs obs).hysteresis.level
    (st.observe pol budget nowMs obs).PeaksWith (extendEpisode levels (some after)) ↔
      (st.hysteresis.level = .normal → after ≠ .normal →
        st.peakLevelRank ≤ severityFloor after) := by
  intro after
  have hpeak : (st.observe pol budget nowMs obs).peakLevelRank
      = max st.peakLevelRank (severityFloor after) := rfl
  -- a new episode is of this level alone
  have hopened : st.hysteresis.level = .normal → after ≠ .normal →
      peakOf (extendEpisode levels (some after)) = severityFloor after := by
    intro hbefore hafter
    rw [extendEpisode, if_neg hafter, h.calm hbefore]
    exact Nat.zero_max _
  constructor
  · intro hkept hbefore hafter
    have hsame := hkept.pressured hafter
    rw [hpeak, hopened hbefore hafter] at hsame
    exact max_eq_right_iff.mp hsame
  · intro hlow
    refine ⟨Nat.le_max_right _ _, fun hcalm => if_pos hcalm, ?_⟩
    intro hafter
    by_cases hbefore : st.hysteresis.level = .normal
    · rw [hpeak, hopened hbefore hafter, Nat.max_eq_right (hlow hbefore hafter)]
    · rw [hpeak, extendEpisode, if_neg (show after ≠ .normal from hafter), peakOf_concat,
        h.pressured hbefore]

end DomainRuntimeState

/-! ## Along a run -/

/-- The retained state that the next observation of a domain meets. -/
def PressureRuntime.stateOf (rt : PressureRuntime F) (d : PressureDomainId) :
    DomainRuntimeState F :=
  (rt.domainStates.lookup d).getD (DomainRuntimeState.new rt.policy.hysteresis 16)

/-- An observation that takes a domain out of `Normal` takes it to a level at
least as severe as the peak recorded for it. -/
def OpensAtPeak (rt : PressureRuntime F) (nowMs : UInt64) (sight : Sighting F) : Prop :=
  let st := rt.stateOf sight.2.id
  let after := (st.hysteresis.update
    (rawLevel rt.policy (rt.budgets.lookup sight.2.id) sight.2 st.hysteresis.level) nowMs).level
  st.hysteresis.level = .normal → after ≠ .normal → st.peakLevelRank ≤ severityFloor after

instance (rt : PressureRuntime F) (nowMs : UInt64) (sight : Sighting F) :
    Decidable (OpensAtPeak rt nowMs sight) :=
  inferInstanceAs (Decidable (_ = _ → _ ≠ _ → _ ≤ _))

/-- Every observation of a refresh that completes does. -/
def EpisodesOpenAtPeak (rt : PressureRuntime F) : Op F → Prop
  | .refresh nowMs polls =>
    Completes polls → ∀ sight ∈ sightingsOf polls, OpensAtPeak rt nowMs sight
  | _ => True

instance (rt : PressureRuntime F) (op : Op F) : Decidable (EpisodesOpenAtPeak rt op) :=
  match op with
  | .refresh nowMs polls => inferInstanceAs (Decidable
      (Completes polls → ∀ sight ∈ sightingsOf polls, OpensAtPeak rt nowMs sight))
  | .setPolicy _ | .setBudget _ _ | .clearBudget _ | .setHistoryLimit _ | .registerProvider _ =>
    inferInstanceAs (Decidable True)

/-- A runtime and what it has published so far, for one domain: the stores are
aligned, and the retained state peaks with the episode. -/
structure EpisodeKept (d : PressureDomainId) (x : PressureRuntime F × List (Published F)) :
    Prop where
  mirrors : MirrorsAt d x.1
  peaks : (x.1.stateOf d).PeaksWith (episode d x.2)

open PressureRuntime (CompletesWith refreshed published entriesOf_seen)

/-- **A completed refresh and the peaks of one domain.** -/
theorem EpisodeKept.refreshed {d : PressureDomainId} {rt : PressureRuntime F}
    {pubs : List (Published F)} (h : EpisodeKept d (rt, pubs)) {nowMs : UInt64}
    {polls : List (Poll F)} {log : PollLog F} (hlog : CompletesWith rt nowMs polls log)
    (hop : (Op.refresh nowMs polls).observes.count d ≤ 1)
    (hopens : ∀ sight ∈ sightingsOf polls, OpensAtPeak rt nowMs sight) :
    ((refreshed rt.policy rt.budgets rt nowMs log).stateOf d).PeaksWith
      (episode d (pubs ++ [published rt.policy rt.budgets rt nowMs log])) := by
  rw [episode_concat, Snapshot.levelOf_eq_head?]
  unfold PressureRuntime.stateOf
  have hpeaks := h.peaks
  rcases h.mirrors.refreshed_cases hlog hop with ⟨hlookup, hentries⟩ |
    ⟨st, pd, blocked, hst, hcar, hlookup, hentries⟩ | ⟨sight, blocked, hseen, hlookup, hentries⟩
  · rw [hentries, hlookup]
    exact DomainRuntimeState.peaksWith_new ..
  · rw [PressureRuntime.stateOf, show rt.domainStates.lookup d = some st from hst] at hpeaks
    rw [hentries, hlookup]
    show st.PeaksWith (extendEpisode _ (some pd.level))
    rw [hcar.level]
    exact hpeaks.retained
  · have hmine : sight ∈ sightingsFor d log.sightings := hseen ▸ List.mem_singleton_self sight
    obtain ⟨hmem, hid⟩ := List.mem_filter.mp hmine
    obtain rfl : sight.2.id = d := of_decide_eq_true hid
    rw [hlog.sightings] at hmem
    rw [hentries, hlookup]
    exact (hpeaks.observe_iff _ _ _ _).mpr (hopens sight hmem)

/-- **A step keeps the peaks of one domain**, when its observation opens no
episode below what is recorded. -/
theorem EpisodeKept.step {d : PressureDomainId} {x : PressureRuntime F × List (Published F)}
    (h : EpisodeKept d x) {op : Op F} (hpol : op.setsPolicy = false)
    (hop : op.observes.count d ≤ 1) (hopens : EpisodesOpenAtPeak x.1 op) :
    EpisodeKept d (Machine.traced step x op).1 := by
  refine ⟨mirrorsAt_step h.mirrors hpol hop, ?_⟩
  obtain ⟨rt, pubs⟩ := x
  show ((MemoryPressure.step rt op).1.stateOf d).PeaksWith
    (episode d (pubs ++ (MemoryPressure.step rt op).2))
  cases op with
  | setPolicy p => cases hpol
  | setBudget id b =>
    show ((rt.setBudget id b).stateOf d).PeaksWith (episode d (pubs ++ []))
    rw [rt.setBudget_eq id b, List.append_nil]
    exact h.peaks
  | clearBudget | setHistoryLimit | registerProvider =>
    show (rt.stateOf d).PeaksWith (episode d (pubs ++ []))
    rw [List.append_nil]
    exact h.peaks
  | refresh nowMs polls =>
    show ((rt.refresh nowMs polls).1.stateOf d).PeaksWith
      (episode d (pubs ++ (rt.refresh nowMs polls).2))
    rcases rt.refresh_cases nowMs polls with ⟨log, hlog⟩ | ⟨-, log, heq⟩
    · rw [hlog.refresh_eq]
      exact h.refreshed hlog hop (hopens hlog.completes)
    · rw [heq, List.append_nil]
      exact h.peaks

/-- **Peaks are per episode**: every domain published above `Normal` names the
maximum severity rank of its current episode. -/
def PeaksRight (x : PressureRuntime F × List (Published F)) : Prop :=
  ∀ ds ∈ x.1.currentSnapshot.domains, severityRank .normal < severityRank ds.level →
    ds.peakLevel = peakOf (episode ds.id x.2)

instance (x : PressureRuntime F × List (Published F)) : Decidable (PeaksRight x) :=
  inferInstanceAs (Decidable (∀ ds ∈ x.1.currentSnapshot.domains,
    severityRank .normal < severityRank ds.level → ds.peakLevel = peakOf (episode ds.id x.2)))

/-- Where the retained peaks are kept along a run, the published ones are right. -/
theorem peaksRight_of_kept {x : PressureRuntime F × List (Published F)}
    (h : ∀ d, EpisodeKept d x) : PeaksRight x := by
  intro ds hds habove
  obtain ⟨st, hst, hcar⟩ := (mirrors_of_mirrorsAt fun d => (h d).mirrors).entries ds hds
  have hpeaks := (h ds.id).peaks
  rw [PressureRuntime.stateOf, hst] at hpeaks
  have hne : st.hysteresis.level ≠ .normal := by
    intro hcalm
    rw [hcar.level.trans hcalm] at habove
    exact absurd habove (by decide)
  exact hcar.peakLevel.trans (hpeaks.pressured hne)

theorem severityRank_normal_lt {level : PressureLevel} (hne : level ≠ .normal)
    (hknown : level ≠ .unknown) : severityRank .normal < severityRank level := by
  cases level with
  | normal => exact absurd rfl hne
  | unknown => exact absurd rfl hknown
  | elevated | high | critical | exhausted => decide

/-- An observation after which the peaks are right opened no episode below what
was recorded. -/
theorem opensAtPeak_of_peaksRight {rt : PressureRuntime F} {pubs : List (Published F)}
    {nowMs : UInt64} {log : PollLog F} {sight : Sighting F}
    (hpeaks : (rt.stateOf sight.2.id).PeaksWith (episode sight.2.id pubs))
    (hseen : sightingsFor sight.2.id log.sightings = [sight])
    (hright : PeaksRight (refreshed rt.policy rt.budgets rt nowMs log,
      pubs ++ [published rt.policy rt.budgets rt nowMs log])) : OpensAtPeak rt nowMs sight := by
  have hentries := (entriesOf_seen rt.policy rt.budgets rt nowMs hseen).1
  have hiff := hpeaks.observe_iff rt.policy (rt.budgets.lookup sight.2.id) nowMs sight.2
  intro hbefore hafter
  refine hiff.mp ⟨Nat.le_max_right _ _, fun hcalm => absurd hcalm hafter, fun _ => ?_⟩
    hbefore hafter
  -- the entry that the observation published is above `Normal`
  have hlevel : severityRank .normal < severityRank (interpretStep rt.policy rt.budgets nowMs
      (rt.stateOf sight.2.id) sight).2.level := by
    have hknown : (interpretStep rt.policy rt.budgets nowMs (rt.stateOf sight.2.id) sight).2.level
        ≠ .unknown :=
      HysteresisState.update_level_ne_unknown (by rw [hbefore]; decide)
        (rawLevel_ne_unknown _ _ _ _)
    exact severityRank_normal_lt hafter hknown
  obtain ⟨hds, -⟩ := Snapshot.mem_entriesOf.mp (hentries ▸ List.mem_singleton_self _)
  have hpeak := hright _ hds hlevel
  rw [show DomainState.id _ = sight.2.id from rfl, episode_concat, Snapshot.levelOf_eq_head?,
    hentries] at hpeak
  exact hpeak

theorem episodesOpenAtPeak_of_peaksRight {x : PressureRuntime F × List (Published F)}
    (h : ∀ d, EpisodeKept d x) {op : Op F} (hop : op.observes.Nodup)
    (hright : PeaksRight (Machine.traced step x op).1) : EpisodesOpenAtPeak x.1 op := by
  obtain ⟨rt, pubs⟩ := x
  cases op with
  | refresh nowMs polls =>
    intro hcompletes sight hsight
    rcases rt.refresh_cases nowMs polls with ⟨log, hlog⟩ | ⟨hc, -⟩
    · have hmine : sight ∈ sightingsFor sight.2.id log.sightings :=
        List.mem_filter.mpr ⟨hlog.sightings ▸ hsight, by simp⟩
      have hseen : sightingsFor sight.2.id log.sightings = [sight] := by
        rcases seen_or_unseen hlog (List.nodup_iff_count_le_one.mp hop sight.2.id) with
          hnone | ⟨only, hone⟩
        · rw [hnone] at hmine
          cases hmine
        · rw [hone] at hmine
          rw [hone, List.mem_singleton.mp hmine]
      change PeaksRight ((rt.refresh nowMs polls).1, pubs ++ (rt.refresh nowMs polls).2) at hright
      rw [hlog.refresh_eq] at hright
      exact opensAtPeak_of_peaksRight (h sight.2.id).peaks hseen hright
    · exact absurd hcompletes hc
  | _ => trivial

/-- **The peaks of a run are per episode, exactly when** no observation takes a domain from
`Normal` to a level below the peak recorded for it. The recorded peak only ever rises, and
nothing resets it where an episode begins: an episode that opens below the peak of an
earlier one is recorded with that. -/
theorem peak_per_episode_iff (ops : List (Op F)) (hpol : ∀ op ∈ ops, op.setsPolicy = false)
    (hops : ∀ op ∈ ops, op.observes.Nodup) :
    (∀ pre post, ops = pre ++ post → PeaksRight
        (runFrom PressureRuntime.init pre, publishedBy PressureRuntime.init pre))
      ↔ Machine.Along step EpisodesOpenAtPeak PressureRuntime.init ops := by
  have hiff := Machine.checkpoints_iff_along (Machine.traced step)
    (I := fun x => ∀ d, EpisodeKept d x) (Q := fun x op => EpisodesOpenAtPeak x.1 op)
    (s := (PressureRuntime.init, [])) ops
    (fun x h (_ : True) => peaksRight_of_kept h)
    (fun x op hop h hopens d =>
      (h d).step (hpol op hop) (List.nodup_iff_count_le_one.mp (hops op hop) d) hopens)
    (fun x op hop h hopens => ⟨trivial, fun hright =>
      hopens (episodesOpenAtPeak_of_peaksRight h (hops op hop) hright)⟩)
    (fun d => ⟨Or.inl ⟨rfl, rfl⟩, DomainRuntimeState.peaksWith_new ..⟩)
  rw [Machine.along_traced] at hiff
  rw [← hiff]
  refine forall₂_congr fun pre post => imp_congr_right fun _ => ?_
  rw [Machine.run_traced, List.nil_append]
  exact (imp_iff_right trivial).symm

/-- A host of 100 bytes, refreshed every second with so much of it committed. -/
def hostRun (committed : List UInt64) : List (Op ℚ) :=
  .registerProvider "host" :: committed.mapIdx fun i c =>
    .refresh (1000 * (UInt64.ofNat i + 1)) [{ name := "host", outcome := .returned { observations :=
      [{ id := { high := 0, low := 1 }, type := .hostMemory, totalCapacity := 100,
         committed := c }] } }]

/-- Up to `High`, back to `Normal`, and up to the given load again. -/
def twoEpisodes (again : UInt64) : List (Op ℚ) :=
  hostRun [90, 90, 10, 10, 10, 10, again, again]

/-- A second episode as severe as the first has its peak. -/
theorem peak_per_episode_again :
    (publishedBy (PressureRuntime.init : PressureRuntime ℚ) (twoEpisodes 90)).map (fun pub =>
        pub.snapshot.domains.map fun ds => (ds.level, ds.peakLevel))
      = [[(.normal, 0)], [(.high, 2)], [(.high, 2)], [(.elevated, 2)], [(.elevated, 2)],
          [(.normal, 2)], [(.normal, 2)], [(.high, 2)]] ∧
      ∀ pre post, twoEpisodes 90 = pre ++ post → PeaksRight
        (runFrom PressureRuntime.init pre, publishedBy PressureRuntime.init pre) :=
  ⟨by decide +kernel, (peak_per_episode_iff (twoEpisodes 90) (by decide +kernel)
    (by decide +kernel)).mpr (by decide +kernel)⟩

/-- **Not always**: a second episode that only reaches `Elevated` still names the
peak of the first. -/
theorem peak_outlives_episode :
    Machine.Along step Legal PressureRuntime.init (twoEpisodes 75) ∧
      (∀ op ∈ twoEpisodes 75, op.setsPolicy = false ∧ op.observes.Nodup) ∧
      (runFrom PressureRuntime.init (twoEpisodes 75)).currentSnapshot.domains.map
          (fun ds => (ds.level, ds.peakLevel)) = [(.elevated, 2)] ∧
      episode { high := 0, low := 1 } (publishedBy PressureRuntime.init (twoEpisodes 75))
        = [.elevated] ∧
      ¬ ∀ pre post, twoEpisodes 75 = pre ++ post → PeaksRight
        (runFrom PressureRuntime.init pre, publishedBy PressureRuntime.init pre) := by
  refine ⟨by decide +kernel, by decide +kernel, by decide +kernel, by decide +kernel, ?_⟩
  intro h
  have hlast := h (twoEpisodes 75) [] (List.append_nil _).symm
  revert hlast
  decide +kernel

end MemoryPressure
