import MemoryPressure.Session

/-!
# How far retained state can grow (`runtime.cpp`)

A session whose refreshes observe at most `m` distinct domains each, with at most
`k` subscriptions open and a history limit of `L`. The history is trimmed at
every publication; the other containers each have a way to grow:

- the snapshot takes every observation of a refresh, and every domain it retains
  as stale on top (runtime.cpp:321);
- `subscriptions_` is appended to and never erased from (runtime.cpp:138).

Two conditions keep them from it. `FewClosed` is one on the calls alone: a subscription is
made only while few of those made before have been closed. `Contained` is one on a refresh
and on what it finds: no domain twice, and few retained where a new one comes in.

- `retained_bounded`: with both, every container of the session is bounded, for each from
  `m`, `k` and `L` alone, however long the session is.
- `retained_unbounded`: without them the list of subscriptions and the snapshot each have
  sessions in which they grow past any bound.
- `stale_domains_accumulate`: one observed domain a refresh is enough for the latter, if it
  is another one each time and the provider calls itself stale.

**Proof structure.** `length_published` counts what one refresh publishes: either nothing
in it is new, and the published ids are among the current ones, or at most `m` are observed
and at most `m` retained. `Small` is the invariant of the runtime, `Within` that of the
session. What the calls tell of closed subscriptions is what the session lists
(`closedOnes_step`), so that the condition on the calls can be carried along with the
state (`fewClosed_iff`).

Sizes are numbers of entries. The queue of a subscription has its own bound
(`BoundedQueue.lean`), and the texts inside an entry are not measured.
-/

namespace MemoryPressure

variable {F C : Type} [Double F]

/-! ## What a run is given -/

/-- How many subscriptions are open. -/
def Session.openCount (s : Session F C) : Nat := s.subscriptions.countP fun sub => !sub.closed

/-- The domains a turn observes, with multiplicity. -/
def Turn.observes : Turn F C → List PressureDomainId
  | .refresh nowMs polls => (Op.refresh nowMs polls).observes
  | _ => []

/-- The history limit a turn sets. -/
def Turn.setsLimit : Turn F C → Option Nat
  | .call c => match c.1 with
    | .setHistoryLimit n => some n
    | _ => none
  | _ => none

/-- A new runtime whose history limit is `L`. -/
def Session.start (L : Nat) : Session F C :=
  { rt := PressureRuntime.init.setHistoryLimit L }

/-- Which of the subscriptions made so far are closed, as the calls tell:
`subscribe` makes an open one and `close` closes one for good. -/
def Turn.closes (closed : List Bool) : Turn F C → List Bool
  | .call c => match c.1 with
    | .subscribe _ _ => closed ++ [false]
    | .close n => closed.modify n fun _ => true
    | _ => closed
  | _ => closed

/-- `subscribe` is called only while at most `k` of the subscriptions made before
have been closed. This is said of the calls, not of the runtime. -/
def FewClosed (k : Nat) (turns : List (Turn F C)) : Prop :=
  Machine.Along (fun closed turn => (Turn.closes closed turn, ([] : List Unit)))
    (fun closed turn => turn.subscribes = true → closed.count true ≤ k) [] turns

/-- No refresh observes more than `m` distinct domains, at most `k` subscriptions
are open at any time, and the history limit stays `L`. -/
structure Permitted (m k L : Nat) (turns : List (Turn F C)) : Prop where
  observes : ∀ turn ∈ turns, turn.observes.toFinset.card ≤ m
  opens : Machine.Along Session.step (fun s turn => (s.step turn).1.openCount ≤ k)
    (Session.start L) turns
  limits : ∀ turn ∈ turns, ∀ n ∈ turn.setsLimit, n = L

/-- The domains of the current snapshot that a refresh retains as stale. -/
def retainedBy (s : Session F C) (polls : List (Poll F)) : List (DomainState F) :=
  s.rt.currentSnapshot.domains.filter
    (retains (healthAfter s.rt.providerHealth polls)
        ((sightingsOf polls).map fun sight => sight.2.id))

/-- The turn does not let the snapshot grow: a refresh observes no domain twice, and
retains at most `m` domains when it observes one that is new. -/
def Contained (m : Nat) (s : Session F C) : Turn F C → Prop
  | .refresh nowMs polls => s.phase = .idle →
    (Op.refresh nowMs polls).observes.Nodup ∧
      ((∃ d ∈ (Op.refresh nowMs polls).observes, d ∉ s.rt.currentSnapshot.ids) →
        (retainedBy s polls).length ≤ m)
  | _ => True

/-! ## What one operation keeps -/

/-- What is bounded of the runtime. -/
structure Small (m L : Nat) (rt : PressureRuntime F) : Prop where
  sound : Sound rt
  nodup : rt.currentSnapshot.ids.Nodup
  domains : rt.currentSnapshot.domains.length ≤ 2 * m
  history : rt.history.length ≤ L
  limit : rt.historyLimit = L

theorem length_ids (snap : Snapshot F) : snap.ids.length = snap.domains.length :=
  List.length_map ..

/-- **The domains of one refresh**: observed ones that were there take the place
of their entries, and new ones come with at most `m` retained. -/
theorem length_published {m : Nat} {rt : PressureRuntime F} (hnd : rt.currentSnapshot.ids.Nodup)
    (hlen : rt.currentSnapshot.domains.length ≤ 2 * m) {pol : PressurePolicy F} {budgets : Budgets}
    {nowMs : UInt64} {log : PollLog F} (hobs : (PressureRuntime.observedIds log).Nodup)
    (hfew : (PressureRuntime.observedIds log).toFinset.card ≤ m)
    (hnew : (∃ d ∈ PressureRuntime.observedIds log, d ∉ rt.currentSnapshot.ids) →
      (rt.currentSnapshot.domains.filter
        (retains log.health (PressureRuntime.observedIds log))).length ≤ m) :
    (PressureRuntime.published pol budgets rt nowMs log).snapshot.domains.length ≤ 2 * m := by
  have hids : (PressureRuntime.published pol budgets rt nowMs log).snapshot.ids = _ :=
    PressureRuntime.ids_published
  have hpub : (PressureRuntime.published pol budgets rt nowMs log).snapshot.ids.Nodup :=
    (ids_published_nodup hnd).mpr hobs
  rw [← length_ids]
  by_cases hall : ∀ d ∈ PressureRuntime.observedIds log, d ∈ rt.currentSnapshot.ids
  · -- nothing new: the published ids are some of the current ones
    have hsub : (PressureRuntime.published pol budgets rt nowMs log).snapshot.ids
        ⊆ rt.currentSnapshot.ids := by
      intro d hd
      rw [hids, List.mem_append] at hd
      rcases hd with hseen | hkept
      · exact hall d hseen
      · exact (List.filter_sublist.map _).subset hkept
    have hle := (List.subperm_of_subset hpub hsub).length_le
    rw [length_ids rt.currentSnapshot] at hle
    exact Nat.le_trans hle hlen
  · push Not at hall
    have hkept := hnew hall
    rw [List.toFinset_card_of_nodup hobs] at hfew
    rw [hids, List.length_append, List.length_map]
    omega

/-- Whatever leaves the snapshot and the history alone keeps the bounds. -/
theorem Small.keep {m L : Nat} {rt rt' : PressureRuntime F} (h : Small m L rt)
    (hsound : Sound rt') (hcurrent : rt'.currentSnapshot = rt.currentSnapshot)
    (hhistory : rt'.history = rt.history) (hlimit : rt'.historyLimit = rt.historyLimit) :
    Small m L rt' where
  sound := hsound
  nodup := by rw [hcurrent]; exact h.nodup
  domains := by rw [hcurrent]; exact h.domains
  history := by rw [hhistory]; exact h.history
  limit := by rw [hlimit]; exact h.limit

/-- **One operation keeps the bounds**, given what a contained refresh does. -/
theorem Small.step {m L : Nat} {rt : PressureRuntime F} (h : Small m L rt) {op : Op F}
    (hobs : op.observes.Nodup) (hfew : op.observes.toFinset.card ≤ m)
    (hnew : ∀ nowMs polls, op = .refresh nowMs polls →
      (∃ d ∈ op.observes, d ∉ rt.currentSnapshot.ids) →
      (rt.currentSnapshot.domains.filter (retains (healthAfter rt.providerHealth polls)
        ((sightingsOf polls).map fun sight => sight.2.id))).length ≤ m)
    (hlimit : ∀ n, op = .setHistoryLimit n → n = L) : Small m L (step rt op).1 := by
  have hsound := sound_step h.sound op
  have hnodup := ids_nodup_step h.nodup hobs
  cases op with
  | refresh nowMs polls =>
    rcases rt.refresh_cases nowMs polls with ⟨log, hlog⟩ | ⟨-, log, heq⟩
    · have hstep : MemoryPressure.step rt (.refresh nowMs polls) = _ := hlog.refresh_eq
      rw [observes_of_completes hlog] at hobs hfew hnew
      rw [hstep] at hsound hnodup ⊢
      refine ⟨hsound, hnodup,
        length_published h.nodup h.domains hobs hfew fun hex => ?_, ?_, h.limit⟩
      · have hkept := hnew nowMs polls rfl hex
        rwa [← hlog.observedIds_eq, ← hlog.health] at hkept
      -- trimmed to the limit at the publication
      · show (List.drop _ (rt.history ++ [_])).length ≤ L
        rw [List.length_drop, h.limit]
        omega
    · have hstep : MemoryPressure.step rt (.refresh nowMs polls) = _ := heq
      rw [hstep] at hsound ⊢
      exact h.keep hsound rfl rfl rfl
  | setPolicy p =>
    change Sound (rt.setPolicy p) at hsound
    show Small m L (rt.setPolicy p)
    rw [rt.setPolicy_eq p] at hsound ⊢
    exact h.keep hsound rfl rfl rfl
  | setBudget id b =>
    change Sound (rt.setBudget id b) at hsound
    show Small m L (rt.setBudget id b)
    rw [rt.setBudget_eq id b] at hsound ⊢
    exact h.keep hsound rfl rfl rfl
  | setHistoryLimit n => exact ⟨hsound, hnodup, h.domains, h.history, hlimit n rfl⟩
  | clearBudget | registerProvider => exact h.keep hsound rfl rfl rfl

/-- The retained states are those of published domains. -/
theorem Small.card_domainStates {m L : Nat} {rt : PressureRuntime F} (h : Small m L rt) :
    rt.domainStates.keys.card ≤ 2 * m := by
  have hsub : rt.domainStates.keys ⊆ rt.currentSnapshot.ids.toFinset := fun d hd =>
    List.mem_toFinset.mpr (h.sound.known d (Finmap.mem_keys.mp hd))
  refine Nat.le_trans (Finset.card_le_card hsub) (Nat.le_trans (List.toFinset_card_le _) ?_)
  rw [length_ids]
  exact h.domains

/-! ## Closed subscriptions -/

/-- Which of a session's subscriptions are closed, in the order in which they were made. -/
def Session.closedOnes (s : Session F C) : List Bool := s.subscriptions.map fun sub => sub.closed

/-- A change of one element, seen through a map. -/
theorem map_modify_at {α β : Type} {f : α → β} {g : α → α} (g' : β → β) {n : Nat} {l : List α}
    (h : ∀ a ∈ l[n]?, f (g a) = g' (f a)) : (l.modify n g).map f = (l.map f).modify n g' := by
  refine List.ext_getElem? fun i => ?_
  rw [List.getElem?_map, List.getElem?_modify, List.getElem?_modify, List.getElem?_map]
  cases hget : l[i]? with
  | none => rfl
  | some a =>
    refine congrArg some ?_
    show f (if n = i then g a else a) = if n = i then g' (f a) else f a
    split_ifs with hi
    · exact h a (hi ▸ hget)
    · rfl

/-- A change that neither closes nor reopens. -/
theorem closedOnes_modify (s : Session F C) {n : Nat} {g : Subscription C → Subscription C}
    (h : ∀ sub ∈ s.subscriptions[n]?, (g sub).closed = sub.closed) :
    (s.subscriptions.modify n g).map (fun sub => sub.closed) = s.closedOnes := by
  rw [map_modify_at id h, List.modify_id, Session.closedOnes]

/-- The delivery closes nothing. -/
theorem closedOnes_deliver (s : Session F C) : s.deliver.closedOnes = s.closedOnes := by
  unfold Session.deliver
  split
  · rfl
  · rfl
  · rfl
  · rfl
  · split
    · rfl
    · split
      · rfl
      · rename_i sub hsub
        split_ifs
        · rfl
        · split
          · rfl
          · rename_i sub' ok cb hpush
            refine closedOnes_modify s fun sub₀ hsub₀ => ?_
            obtain rfl := Option.some.inj (hsub.symm.trans hsub₀)
            exact (Subscription.pushes_of_push hpush).closed_eq

/-- **The calls tell what is closed**: nothing else closes a subscription. -/
theorem closedOnes_step (s : Session F C) (turn : Turn F C) :
    (s.step turn).1.closedOnes = turn.closes s.closedOnes := by
  cases turn with
  | call c =>
    obtain ⟨c, hscope⟩ := c
    cases c with
    | subscribe filter cb => exact List.map_append
    | close n => exact map_modify_at (fun _ => true) fun _ _ => rfl
    | tryPop n =>
      refine closedOnes_modify s fun sub _ => ?_
      unfold Subscription.tryPop
      split <;> rfl
    | setCallback | clear => exact closedOnes_modify s fun _ _ => rfl
    | _ => rfl
  | deliver => exact closedOnes_deliver s
  | setPolicy | refresh | callbackReturns | callbackThrows =>
    cases hphase : s.phase <;> simp only [Session.step, hphase] <;> rfl

/-- **Few closed ones, as the session sees it**: the condition on the calls is one
on the subscriptions that the session lists. -/
theorem fewClosed_iff {k L : Nat} {turns : List (Turn F C)} :
    FewClosed k turns ↔ Machine.Along Session.step
      (fun s turn => turn.subscribes = true → s.closedOnes.count true ≤ k)
      (Session.start L) turns :=
  (Machine.along_view Session.step Session.closedOnes closedOnes_step
    (Q := fun closed turn => turn.subscribes = true → closed.count true ≤ k)
    (s := Session.start L)).symm

/-! ## Contained sessions -/

/-- What is bounded of a session. -/
structure Within (m k L : Nat) (s : Session F C) : Prop where
  runtime : Small m L s.rt
  subscriptions : s.subscriptions.length ≤ 2 * k

/-- Every subscription is open or closed. -/
theorem open_add_closed (s : Session F C) :
    s.openCount + s.closedOnes.count true = s.subscriptions.length := by
  rw [List.length_eq_countP_add_countP fun sub : Subscription C => sub.closed, Nat.add_comm,
    Session.closedOnes, List.count_eq_countP, List.countP_map]
  refine congrArg₂ _ (List.countP_congr fun sub _ => ?_) (List.countP_congr fun sub _ => ?_)
  · show (sub.closed == true) = true ↔ sub.closed = true
    rw [beq_iff_eq]
  · cases sub.closed <;> decide

/-- **A contained turn keeps the bounds.** -/
theorem Within.step {m k L : Nat} {s : Session F C} (h : Within m k L s) {turn : Turn F C}
    (hfew : turn.observes.toFinset.card ≤ m) (hopen : (s.step turn).1.openCount ≤ k)
    (hlimit : ∀ n ∈ turn.setsLimit, n = L)
    (hclosed : turn.subscribes = true → s.closedOnes.count true ≤ k)
    (hcontained : Contained m s turn) :
    Within m k L (s.step turn).1 where
  runtime := by
    have hquiet : ∀ {op : Op F}, op.observes = [] → (∀ nowMs polls, op ≠ .refresh nowMs polls) →
        (∀ n, op = .setHistoryLimit n → n = L) → Small m L (MemoryPressure.step s.rt op).1 :=
      fun hnone hno hlim => h.runtime.step (by rw [hnone]; exact List.nodup_nil)
        (by rw [hnone]; exact Nat.zero_le _)
            (fun nowMs polls heq => absurd heq (hno nowMs polls)) hlim
    rw [(Session.step_runtime turn).1]
    cases hop : turn.op s with
    | none => exact h.runtime
    | some op =>
      show Small m L (MemoryPressure.step s.rt op).1
      -- only a refresh observes anything
      cases turn with
      | refresh nowMs polls =>
        rw [Turn.op] at hop
        split at hop
        · rename_i hphase
          obtain rfl := Option.some.inj hop
          obtain ⟨hnodup, hnew⟩ := hcontained hphase
          refine h.runtime.step hnodup hfew
            (fun nowMs' polls' heq hex => ?_) fun n hn => by cases hn
          obtain ⟨rfl, rfl⟩ := Op.refresh.inj heq
          exact hnew hex
        · cases hop
      | setPolicy p =>
        rw [Turn.op] at hop
        split at hop
        · obtain rfl := Option.some.inj hop
          exact hquiet rfl (fun _ _ hn => by cases hn) fun n hn => by cases hn
        · cases hop
      | call c =>
        obtain ⟨c, hscope⟩ := c
        cases c with
        | registerProvider | setBudget | clearBudget =>
          obtain rfl := Option.some.inj hop
          exact hquiet rfl (fun _ _ hn => by cases hn) fun n hn => by cases hn
        | setHistoryLimit n =>
          obtain rfl := Option.some.inj hop
          refine hquiet rfl (fun _ _ hn => by cases hn) fun n' hn' => ?_
          obtain rfl := Op.setHistoryLimit.inj hn'
          exact hlimit n rfl
        | _ => cases hop
      | _ => cases hop
  subscriptions := by
    by_cases hsub : turn.subscribes = true
    · cases turn with
      | call c =>
        obtain ⟨c, hscope⟩ := c
        cases c with
        | subscribe filter cb =>
          -- the new subscription is open, so the closed ones are those there were
          have hsame : (s.step (.call ⟨.subscribe filter cb, hscope⟩)).1.closedOnes.count true
              = s.closedOnes.count true := by
            rw [closedOnes_step]
            show List.count true (s.closedOnes ++ [false]) = _
            rw [List.count_append]
            rfl
          have hsplit := open_add_closed (s.step (.call ⟨.subscribe filter cb, hscope⟩)).1
          have hfewClosed : s.closedOnes.count true ≤ k := hclosed rfl
          omega
        | _ => cases hsub
      | _ => cases hsub
    · rw [Session.length_step (Bool.eq_false_iff.mpr hsub)]
      exact h.subscriptions

theorem within_start (m k L : Nat) : Within m k L (Session.start L : Session F C) where
  runtime :=
    { sound := sound_step sound_init (.setHistoryLimit L)
      nodup := List.nodup_nil
      domains := Nat.zero_le _
      history := Nat.zero_le _
      limit := rfl }
  subscriptions := Nat.zero_le _

/-- **Retained state is bounded** in every session that subscribes only while few
subscriptions have been closed and whose turns are contained. The snapshot has at most `2 *
m` entries: a refresh that brings in something new retains at most `m` beside the `m` it
observes, and one that does not publishes no id the last snapshot had not. -/
theorem retained_bounded {m k L : Nat} {turns : List (Turn F C)} (hturns : Permitted m k L turns)
    (hclosed : FewClosed k turns)
    (hcontained : Machine.Along Session.step (Contained m) (Session.start L) turns) :
    (Session.runFrom (Session.start L) turns).rt.currentSnapshot.domains.length ≤ 2 * m ∧
      (Session.runFrom (Session.start L) turns).rt.domainStates.keys.card ≤ 2 * m ∧
      (Session.runFrom (Session.start L) turns).rt.history.length ≤ L ∧
      (Session.runFrom (Session.start L) turns).subscriptions.length ≤ 2 * k := by
  have hgiven : Machine.Along Session.step (fun _ turn =>
      turn.observes.toFinset.card ≤ m ∧ ∀ n ∈ turn.setsLimit, n = L) (Session.start L) turns :=
    (Machine.along_const_iff Session.step).mpr fun turn hturn =>
      ⟨hturns.observes turn hturn, hturns.limits turn hturn⟩
  have hasked := (Machine.along_and Session.step).mpr ⟨hgiven, hturns.opens⟩
  have hkept := (Machine.along_and Session.step).mpr ⟨fewClosed_iff.mp hclosed, hcontained⟩
  have hall : Within m k L (Session.runFrom (Session.start L) turns) :=
    Machine.run_invariant_along Session.step
      (fun s turn hturn h => h.step hturn.1.1.1 hturn.1.2 hturn.1.1.2 hturn.2.1 hturn.2.2)
      ((Machine.along_and Session.step).mpr ⟨hasked, hkept⟩) (within_start m k L)
  exact ⟨hall.runtime.domains, hall.runtime.card_domainStates, hall.runtime.history,
    hall.subscriptions⟩

/-- The sample of a stale provider that reports the `n`-th of its domains,
`copies` times. -/
def stalePoll (n copies : Nat) : Poll F where
  name := "p"
  outcome := .returned
    { status := .stale
      observations := List.replicate copies { id := { high := 0, low := UInt64.ofNat n } } }

theorem observes_stalePoll (nowMs : UInt64) (n copies : Nat) :
    (Op.refresh nowMs [stalePoll (F := F) n copies]).observes
      = List.replicate copies { high := 0, low := UInt64.ofNat n } := by
  have hcompletes : Completes [stalePoll (F := F) n copies] := by
    intro poll hpoll
    rw [List.mem_singleton.mp hpoll]
    rfl
  rw [Op.observes, if_pos hcompletes]
  simp [sightingsOf, stalePoll, SampleOutcome.observations]

/-- A subscriber and one refresh. -/
def Session.polled : List (Turn F C) :=
  [.call ⟨.subscribe {} none, rfl⟩, .refresh 0 [stalePoll 0 1]]

theorem retained_bounded_polled :
    (Session.runFrom (Session.start 64) (Session.polled (F := ℚ) (C := Unit))
        ).rt.currentSnapshot.domains.length ≤ 2 ∧
      (Session.runFrom (Session.start 64) (Session.polled (F := ℚ) (C := Unit))
        ).rt.domainStates.keys.card ≤ 2 ∧
      (Session.runFrom (Session.start 64) (Session.polled (F := ℚ) (C := Unit))
        ).rt.history.length ≤ 64 ∧
      (Session.runFrom (Session.start 64) (Session.polled (F := ℚ) (C := Unit))
        ).subscriptions.length ≤ 2 := by
  have hobs := observes_stalePoll (F := ℚ) 0 0 1
  refine retained_bounded (m := 1) (k := 1) ⟨fun turn hturn => ?_, ?_, fun turn hturn n hn => ?_⟩
    ⟨fun _ => Nat.zero_le 1, fun _ => Nat.zero_le 1, trivial⟩ ⟨trivial, ?_, trivial⟩
  · rcases List.mem_pair.mp hturn with rfl | rfl
    · exact Nat.zero_le 1
    · show (Op.refresh 0 [stalePoll (F := ℚ) 0 1]).observes.toFinset.card ≤ 1
      rw [hobs]
      exact List.toFinset_card_le _
  · exact ⟨Nat.le_refl 1, Nat.le_refl 1, trivial⟩
  · rcases List.mem_pair.mp hturn with rfl | rfl <;> cases hn
  · refine fun _ => ⟨?_, fun _ => Nat.zero_le 1⟩
    rw [hobs]
    exact List.nodup_singleton _

/-! ## What is not bounded

Each run here keeps all promises of `Permitted` and breaks one of the two conditions. The
sizes grow with the length of the run, so that no bound in terms of `m`, `k` and `L`
holds. -/

/-- A subscriber comes and goes, `n` times over. -/
def churn : Nat → List (Turn F C)
  | 0 => []
  | n + 1 => churn n ++ [.call ⟨.subscribe {} none, rfl⟩, .call ⟨.close n, rfl⟩]

/-- `n` closed subscriptions and nothing else. -/
def Session.churned (L n : Nat) : Session F C :=
  { rt := PressureRuntime.init.setHistoryLimit L
    subscriptions := List.replicate n ({} : Subscription C).close }

theorem openCount_churned (L n : Nat) : (Session.churned L n : Session F C).openCount = 0 :=
  List.countP_eq_zero.mpr fun sub hsub => by
    rw [List.eq_of_mem_replicate hsub]
    exact Bool.false_ne_true

/-- One more comes and goes. -/
theorem run_pair (L n : Nat) : Session.runFrom (Session.churned L n : Session F C)
    [.call ⟨.subscribe {} none, rfl⟩, .call ⟨.close n, rfl⟩] = Session.churned L (n + 1) := by
  have hclose : (List.replicate n ({} : Subscription C).close ++ [({} : Subscription C)]).modify n
      Subscription.close = List.replicate (n + 1) ({} : Subscription C).close := by
    rw [List.modify_eq_take_drop, List.take_left' (List.length_replicate ..),
      List.drop_left' (List.length_replicate ..), List.replicate_succ']
    rfl
  exact congrArg
    (fun subs => Session.mk ⟨PressureRuntime.init.setHistoryLimit L, subs⟩ .idle) hclose

/-- All subscriptions ever made are still listed, closed. -/
theorem run_churn (L n : Nat) :
    Session.runFrom (Session.start L) (churn n : List (Turn F C)) = Session.churned L n := by
  induction n with
  | zero => rfl
  | succ n ih =>
    have happend : Session.runFrom (Session.start L) (churn (n + 1) : List (Turn F C)) = _ :=
      Machine.run_append ..
    rw [happend]
    change Session.runFrom (Session.runFrom (Session.start L) (churn n)) _ = _
    rw [ih]
    exact run_pair L n

theorem churn_permitted (n : Nat) : Permitted 1 1 64 (churn n : List (Turn F C)) := by
  have hmem : ∀ turn ∈ (churn n : List (Turn F C)), turn.observes = [] ∧ turn.setsLimit = none := by
    induction n with
    | zero => exact fun turn hturn => by cases hturn
    | succ n ih =>
      intro turn hturn
      rcases List.mem_append.mp hturn with hold | hnew
      · exact ih turn hold
      · rcases List.mem_pair.mp hnew with rfl | rfl <;> exact ⟨rfl, rfl⟩
  refine ⟨fun turn hturn => ?_, ?_, fun turn hturn limit hlimit => ?_⟩
  · rw [(hmem turn hturn).1]
    exact Nat.zero_le 1
  -- one is open after `subscribe`, none after `close`
  · induction n with
    | zero => trivial
    | succ n ih =>
      refine (Machine.along_append Session.step).mpr
        ⟨ih fun turn hturn => hmem turn (List.mem_append_left _ hturn), ?_⟩
      change Machine.Along Session.step _ (Session.runFrom (Session.start 64) (churn n)) _
      rw [run_churn]
      refine ⟨?_, ?_, trivial⟩
      · show (List.replicate n ({} : Subscription C).close ++ [({} : Subscription C)]).countP _ ≤ 1
        rw [List.countP_append]
        exact Nat.le_of_eq (congrArg (· + 1) (openCount_churned (F := F) 64 n))
      · show (Session.runFrom (Session.churned 64 n : Session F C)
          [.call ⟨.subscribe {} none, rfl⟩, .call ⟨.close n, rfl⟩]).openCount ≤ 1
        rw [run_pair, openCount_churned]
        exact Nat.zero_le 1
  · rw [(hmem turn hturn).2] at hlimit
    cases hlimit

/-- A domain reported over and over in one refresh is published over and over. -/
theorem copies_published (n : Nat) :
    (Session.runFrom (Session.start 64 : Session F C)
      [.refresh 0 [stalePoll 0 n]]).rt.currentSnapshot.domains.length = n := by
  have hobs := observes_stalePoll (F := F) 0 0 n
  rcases (PressureRuntime.init.setHistoryLimit 64 : PressureRuntime F).refresh_cases 0
    [stalePoll 0 n] with ⟨log, hlog⟩ | ⟨hnc, -⟩
  · rw [observes_of_completes hlog] at hobs
    have hrt : (Session.runFrom (Session.start 64 : Session F C) [.refresh 0 [stalePoll 0 n]]).rt
        = _ := congrArg Prod.fst hlog.refresh_eq
    rw [hrt, ← length_ids]
    show (PressureRuntime.published _ _ _ _ log).snapshot.ids.length = n
    rw [PressureRuntime.ids_published, hobs, List.length_append, List.length_replicate]
    rfl
  · exact absurd (fun poll hpoll => by rw [List.mem_singleton.mp hpoll]; rfl) hnc

/-- **Retained state is not bounded**: with at most one subscription open at a time
the list of subscriptions grows for ever, and with one domain observed there can
be any number of entries for it. -/
theorem retained_unbounded :
    (¬ ∃ bound, ∀ turns : List (Turn ℚ Unit), Permitted 1 1 64 turns →
        (Session.runFrom (Session.start 64) turns).subscriptions.length ≤ bound) ∧
      ¬ ∃ bound, ∀ turns : List (Turn ℚ Unit), Permitted 1 1 64 turns →
        (Session.runFrom (Session.start 64) turns).rt.currentSnapshot.domains.length ≤ bound := by
  constructor
  -- the subscriptions of a subscriber who comes and goes
  · rintro ⟨bound, hbound⟩
    have hle := hbound (churn (bound + 1)) (churn_permitted (bound + 1))
    rw [run_churn] at hle
    change (List.replicate (bound + 1) _).length ≤ bound at hle
    rw [List.length_replicate] at hle
    omega
  · rintro ⟨bound, hbound⟩
    have hle := hbound [.refresh 0 [stalePoll 0 (bound + 1)]] ⟨fun turn hturn => ?_, ?_,
      fun turn hturn limit hlimit => ?_⟩
    · rw [copies_published] at hle
      omega
    · rw [List.mem_singleton.mp hturn]
      show (Op.refresh 0 [stalePoll (F := ℚ) 0 (bound + 1)]).observes.toFinset.card ≤ 1
      rw [observes_stalePoll, List.toFinset_replicate_of_ne_zero (Nat.succ_ne_zero bound)]
      exact Nat.le_of_eq (Finset.card_singleton _)
    · exact ⟨Nat.zero_le 1, trivial⟩
    · rw [List.mem_singleton.mp hturn] at hlimit
      cases hlimit

/-- A delivery to nobody comes to its end. -/
theorem drain {s : Session F C} (halone : s.subscriptions = []) (events : List PressureEvent) :
    ∃ k, Session.runFrom (s.inPhase (.between events)) (List.replicate k .deliver)
      = s.inPhase .idle := by
  induction events with
  | nil => exact ⟨1, rfl⟩
  | cons e events ih =>
    obtain ⟨k, hk⟩ := ih
    refine ⟨k + 2, ?_⟩
    -- two steps for an event: there is nobody to offer it to
    have hoffer : (s.inPhase (.between (e :: events))).deliver.deliver
        = s.inPhase (.between events) := by
      have hrange : List.range s.subscriptions.length = [] := by rw [halone]; rfl
      simp only [Session.deliver, Session.inPhase, hrange]
    show Session.runFrom (s.inPhase (.between (e :: events))).deliver.deliver _ = _
    rw [hoffer]
    exact hk

/-- `n` domains of a stale provider, nobody listening. -/
structure Accumulated (n : Nat) (s : Session F C) : Prop where
  idle : s.phase = .idle
  alone : s.subscriptions = []
  provider : ∀ pd ∈ s.rt.currentSnapshot.domains, pd.provider = "p"
  ids : ∀ d ∈ s.rt.currentSnapshot.ids, ∃ i < n, d = { high := 0, low := UInt64.ofNat i }
  count : s.rt.currentSnapshot.domains.length = n

/-- **One more domain**: the stale provider reports another id, and all before it
are retained. -/
theorem Accumulated.round {n : Nat} {s : Session F C} (h : Accumulated n s) (hn : n < 2 ^ 64) :
    ∃ k, Accumulated (n + 1)
      (Session.runFrom s (.refresh 0 [stalePoll n 1] :: List.replicate k .deliver)) := by
  have hobs := observes_stalePoll (F := F) 0 n 1
  rcases s.rt.refresh_cases 0 [stalePoll n 1] with ⟨log, hlog⟩ | ⟨hnc, -⟩
  · rw [observes_of_completes hlog] at hobs
    obtain ⟨k, hk⟩ := drain (s := s.withShared
      ⟨PressureRuntime.refreshed s.rt.policy s.rt.budgets s.rt 0 log, s.subscriptions⟩) h.alone
      (PressureRuntime.published s.rt.policy s.rt.budgets s.rt 0 log).events
    have hstep : (s.step (.refresh 0 [stalePoll n 1])).1
        = (s.withShared ⟨PressureRuntime.refreshed s.rt.policy s.rt.budgets s.rt 0 log,
            s.subscriptions⟩).inPhase
          (.between (PressureRuntime.published s.rt.policy s.rt.budgets s.rt 0 log).events) := by
      simp only [Session.step, h.idle, hlog.refresh_eq, Phase.afterRefresh]
    refine ⟨k, ?_⟩
    show Accumulated (n + 1) (Session.runFrom (s.step (.refresh 0 [stalePoll n 1])).1 _)
    rw [hstep, hk]
    -- nothing published is observed again, and its provider is stale
    have hstale : ∀ pd ∈ s.rt.currentSnapshot.domains,
        retains log.health (PressureRuntime.observedIds log) pd = true := by
      intro pd hpd
      obtain ⟨i, hi, hid⟩ := h.ids pd.id (List.mem_map_of_mem hpd)
      have hnew : pd.id ≠ { high := 0, low := UInt64.ofNat n } := by
        rw [hid]
        intro heq
        have hlow := congrArg (fun d => d.low.toNat) heq
        simp only [UInt64.toNat_ofNat_of_lt' (Nat.lt_trans hi hn),
          UInt64.toNat_ofNat_of_lt' hn] at hlow
        omega
      have hhealth : healthFor log.health pd.provider = .stale := by
        rw [hlog.health, h.provider pd hpd, healthFor_healthAfter]
        rfl
      rw [retains, hobs, hhealth]
      simp [hnew, ProviderStatus.notFresh]
    have hids : (PressureRuntime.published s.rt.policy s.rt.budgets s.rt 0 log).snapshot.ids
        = { high := 0, low := UInt64.ofNat n } :: s.rt.currentSnapshot.ids := by
      rw [PressureRuntime.ids_published, List.filter_eq_self.mpr hstale, hobs]
      rfl
    refine ⟨rfl, h.alone, ?_, ?_, ?_⟩
    · intro ds hds
      obtain ⟨pd, hpd, rfl⟩ := List.mem_map.mp hds
      show pd.provider = "p"
      rw [PressureRuntime.swept_domains, List.mem_append] at hpd
      rcases hpd with hfresh | hkept
      · have hmap : (PressureRuntime.interpreted s.rt.policy s.rt.budgets s.rt 0 log).2.map
            DomainState.provider = log.sightings.map Prod.fst :=
          Keyed.feed_outputs_map _ _ (interpretStep s.rt.policy s.rt.budgets 0) (fun _ _ => rfl) _ _
        have hprovider := List.mem_map_of_mem (f := DomainState.provider) hfresh
        rw [hmap, hlog.sightings] at hprovider
        exact List.mem_singleton.mp hprovider
      · obtain ⟨pd, hpd, rfl⟩ := List.mem_map.mp hkept
        exact h.provider pd (List.mem_filter.mp hpd).1
    · intro d hd
      have hd' : d ∈ (PressureRuntime.published s.rt.policy s.rt.budgets s.rt 0 log).snapshot.ids :=
        hd
      rw [hids] at hd'
      rcases List.mem_cons.mp hd' with rfl | hold
      · exact ⟨n, Nat.lt_succ_self n, rfl⟩
      · obtain ⟨i, hi, hid⟩ := h.ids d hold
        exact ⟨i, Nat.lt_succ_of_lt hi, hid⟩
    · show (PressureRuntime.published s.rt.policy s.rt.budgets s.rt 0 log).snapshot.domains.length
        = _
      rw [← length_ids, hids, List.length_cons, length_ids, h.count]
  · exact absurd (fun poll hpoll => by rw [List.mem_singleton.mp hpoll]; rfl) hnc

/-- Without a call of `subscribe` no subscription is ever open. -/
theorem alone_along {k : Nat} {s : Session F C} (halone : s.subscriptions = [])
    {turns : List (Turn F C)} (hturns : ∀ turn ∈ turns, turn.subscribes = false) :
    Machine.Along Session.step (fun s turn => (s.step turn).1.openCount ≤ k) s turns := by
  induction turns generalizing s with
  | nil => trivial
  | cons turn turns ih =>
    have hstill : (s.step turn).1.subscriptions = [] := by
      rw [← List.length_eq_zero_iff,
        Session.length_step (hturns turn List.mem_cons_self), halone]
      rfl
    refine ⟨?_, ih hstill fun turn' hturn' => hturns turn' (List.mem_cons_of_mem _ hturn')⟩
    show List.countP _ (s.step turn).1.subscriptions ≤ k
    rw [hstill]
    exact Nat.zero_le k

/-- **A stale provider fills the snapshot**: one domain a refresh, another each
time, and no subscriber; after `n` rounds the snapshot has `n` domains. -/
theorem stale_domains_accumulate {n : Nat} (hn : n ≤ 2 ^ 64) :
    ∃ turns : List (Turn F C), Permitted 1 0 64 turns ∧
      (Session.runFrom (Session.start 64) turns).rt.currentSnapshot.domains.length = n := by
  have hrounds : ∃ turns : List (Turn F C),
      (∀ turn ∈ turns, turn.observes.toFinset.card ≤ 1 ∧ turn.setsLimit = none ∧
        turn.subscribes = false) ∧
      Accumulated n (Session.runFrom (Session.start 64) turns) := by
    induction n with
    | zero =>
      refine ⟨[], fun turn hturn => ?_, rfl, rfl, fun pd hpd => ?_, fun d hd => ?_, rfl⟩
      · cases hturn
      · cases hpd
      · cases hd
    | succ n ih =>
      obtain ⟨turns, hturns, hacc⟩ := ih (Nat.le_of_succ_le hn)
      obtain ⟨k, hround⟩ := hacc.round (Nat.lt_of_succ_le hn)
      -- one more round, with as many deliveries as its batch takes
      refine ⟨turns ++ .refresh 0 [stalePoll n 1] :: List.replicate k .deliver, ?_, ?_⟩
      · intro turn hturn
        rcases List.mem_append.mp hturn with hold | hnew
        · exact hturns turn hold
        · rcases List.mem_cons.mp hnew with rfl | hdeliver
          · refine ⟨?_, rfl, rfl⟩
            show (Op.refresh 0 [stalePoll (F := F) n 1]).observes.toFinset.card ≤ 1
            rw [observes_stalePoll]
            exact List.toFinset_card_le _
          · obtain rfl := List.eq_of_mem_replicate hdeliver
            exact ⟨Nat.zero_le 1, rfl, rfl⟩
      · rw [Session.runFrom, Machine.run_append]
        exact hround
  obtain ⟨turns, hturns, hacc⟩ := hrounds
  refine ⟨turns, ⟨fun turn hturn => (hturns turn hturn).1,
    alone_along rfl fun turn hturn => (hturns turn hturn).2.2, fun turn hturn limit hlimit => ?_⟩,
    hacc.count⟩
  rw [(hturns turn hturn).2.1] at hlimit
  cases hlimit

end MemoryPressure
