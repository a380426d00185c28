import MemoryPressure.Concurrency
import MemoryPressure.RefreshSpec

/-!
# Replacing the policy under threads

`set_policy` rebuilds the debounce machines in the scope of `refresh_mutex_` and
stores `policy_` after it, under no mutex. Between the two, another call may
rebuild and store, and a refresh may create machines from the policy it loaded.

- `openCalls`: the calls between their rebuild and their store, in the order in
  which they rebuilt, read off the notes of the run.
- `Stage`: where a thread is inside `set_policy`, and what it has in `openCalls`.
- `targetConfig`: the configuration of the last rebuild still to be stored, else
  that of `policy_`. Every machine has it as long as calls store in the order in
  which they rebuilt and refreshes create machines under it
  (`configs_agree`); otherwise the machines may be left behind
  (`configs_differ`).

**The invariant.** `Agrees` ties a state and its notes together: every thread is at the
`Stage` its open call says, which every move keeps (`stage_step`), and every machine has the
target configuration, which a move that keeps the order keeps (`ConfigsAre.act`). A move
that rebuilds makes its own configuration the target and gives it to every machine at once;
a move that stores in order takes its call off the list and leaves the target where it was
(`targetConfig_store`); any other move touches neither (`Aside`), except for a refresh that
concludes, whose new machines are the second half of `InOrder`. With nobody between
rebuild and store the target is the policy in force, which is `configs_agree`.

The condition is on the moves, not on the machines: it says who may store and what a
refresh may have loaded. That it cannot be dropped is shown by two threads whose calls
store in the opposite order of their rebuilds, whatever else they do.
-/

namespace MemoryPressure

variable {F C : Type} [Double F]

open Threads (Instr)

/-! ## Open calls -/

/-- The calls between rebuild and store after one more note. -/
def noteCall (calls : List (Nat × HysteresisConfig F)) (note : Nat × Note F C) :
    List (Nat × HysteresisConfig F) :=
  match note.2 with
  | .rebuilt cfg => calls ++ [(note.1, cfg)]
  | .stored _ => calls.filter fun call => call.1 ≠ note.1
  | _ => calls

/-- The calls between rebuild and store, by thread, the last to rebuild last. -/
def openCalls (notes : List (Nat × Note F C)) : List (Nat × HysteresisConfig F) :=
  notes.foldl noteCall []

/-- The configuration the debounce machines are meant to have. -/
def targetConfig (calls : List (Nat × HysteresisConfig F)) (pol : PressurePolicy F) :
    HysteresisConfig F :=
  (calls.getLast?.map Prod.snd).getD pol.hysteresis

/-- The policy the action stores, if it is the store of `set_policy`. -/
def Action.storedPolicy : Action F C → Option (PressurePolicy F)
  | .storePolicy p => some p
  | _ => none

/-- The policy a refresh has loaded and what it has polled, if the action
concludes it. -/
def Action.concluded : Action F C → Option (PressurePolicy F × PollLog F)
  | .conclude _ pol _ log => some (pol, log)
  | _ => none

/-- A refresh that observes a domain without a debounce machine creates it under
this configuration. -/
def CreatesUnder (cfg : HysteresisConfig F) (rt : PressureRuntime F) (pol : PressurePolicy F)
    (log : PollLog F) : Prop :=
  (∃ d ∈ PressureRuntime.observedIds log, d ∉ rt.domainStates) → pol.hysteresis = cfg

/-- The call of thread `t` may store: if it was the last to rebuild, the call that
rebuilt before it and is still open has the same configuration. -/
def StoresInOrder (calls : List (Nat × HysteresisConfig F)) (t : Nat) (p : PressurePolicy F) :
    Prop :=
  calls.getLast?.map Prod.fst = some t →
    ∀ call ∈ (calls.filter fun call => call.1 ≠ t).getLast?, call.2 = p.hysteresis

/-- The move keeps the order: calls store in the order in which they rebuilt, as
far as their configurations differ, and a refresh that creates debounce machines
has loaded a policy with the configuration the machines are meant to have. -/
def InOrder (x : System F C × List (Nat × Note F C)) (move : Nat × Choice F C) : Prop :=
  (∀ p ∈ (Threads.nextAct (x.1.code move.1)).bind Action.storedPolicy,
      StoresInOrder (openCalls x.2) move.1 p) ∧
    ∀ c ∈ (Threads.nextAct (x.1.code move.1)).bind Action.concluded,
      CreatesUnder (targetConfig (openCalls x.2) x.1.data.rt.policy) x.1.data.rt c.1 c.2

/-! ## Where a thread is in `set_policy` -/

/-- The action is the rebuild or the store of `set_policy`. -/
def Action.setsPolicy : Action F C → Bool
  | .rebuild _ | .storePolicy _ => true
  | _ => false

/-- The code neither rebuilds nor stores. -/
def Unsetting (c : Code F C) : Prop := ∀ a, Instr.act a ∈ c → a.setsPolicy = false

/-- A thread's code by its place in `set_policy`, with its open call, if any. -/
inductive Stage (t : Nat) : Code F C → List (Nat × HysteresisConfig F) → Prop
  | outside {c} : Unsetting c → Stage t c []
  | called (p) {c} : Unsetting c → Stage t
      (.lock .refresh :: .act (.rebuild p) :: .unlock .refresh :: .act (.storePolicy p) :: c) []
  | entered (p) {c} : Unsetting c → Stage t
      (.act (.rebuild p) :: .unlock .refresh :: .act (.storePolicy p) :: c) []
  | rebuilt (p : PressurePolicy F) {c} : Unsetting c → Stage t
      (.unlock .refresh :: .act (.storePolicy p) :: c) [(t, p.hysteresis)]
  | storing (p : PressurePolicy F) {c} : Unsetting c → Stage t
      (.act (.storePolicy p) :: c) [(t, p.hysteresis)]

/-- A `set_policy` call is between its validation and its store. -/
def settingPolicy (c : Code F C) : Bool :=
  c.any fun i => match i with
    | .act (.storePolicy _) => true
    | _ => false

/-! ## What an action does to the policy and the machines -/

/-- The note is of the rebuild or the store of `set_policy`. -/
def Note.setsPolicy : Note F C → Bool
  | .rebuilt _ | .stored _ => true
  | _ => false

/-- What an action does that is not of `set_policy`: it leaves `policy_` alone,
and the debounce machines too unless it concludes a refresh. -/
structure Aside (a : Action F C) (d d' : Shared F C) (notes : List (Note F C)) : Prop where
  notes : ∀ note ∈ notes, note.setsPolicy = false
  policy : d'.rt.policy = d.rt.policy
  states : d'.rt.domainStates = d.rt.domainStates ∨
    ∃ nowMs pol budgets log, a = .conclude nowMs pol budgets log ∧
      d'.rt.domainStates = (PressureRuntime.swept pol budgets d.rt nowMs log).domainStates

theorem Action.exec_aside {a : Action F C} {choice : Choice F C} {d d' : Shared F C}
    {new : Code F C} {notes : List (Note F C)} (h : a.exec choice d = some (d', new, notes))
    (ha : a.setsPolicy = false) : Aside a d d' notes := by
  have hquiet : ∀ {x : Shared F C} {c : Code F C} {out : List (Note F C)},
      (some (x, c, out) : Option (_ × _ × _)) = some (d', new, notes) →
      (∀ note ∈ out, note.setsPolicy = false) → x.rt.policy = d.rt.policy →
      x.rt.domainStates = d.rt.domainStates → Aside a d d' notes := by
    rintro x c out hx hout hpolicy hstates
    obtain ⟨rfl, -, rfl⟩ := by simpa using hx
    exact ⟨hout, hpolicy, Or.inl hstates⟩
  have hnone : ∀ note ∈ ([] : List (Note F C)), note.setsPolicy = false := fun _ hn => (by cases hn)
  cases a with
  | rebuild | storePolicy => cases ha
  | conclude nowMs pol budgets log =>
    obtain ⟨rfl, -, rfl⟩ := by simpa [exec] using h
    exact ⟨hnone, rfl, Or.inr ⟨nowMs, pol, budgets, log, rfl, rfl⟩⟩
  | apply c =>
    refine hquiet h hnone ?_ ?_ <;> cases c <;> first
      | rfl
      | (rw [Shared.apply, PressureRuntime.setBudget_eq])
  | readCurrent | readHistory | publish | invoke =>
    exact hquiet h (fun note hn => by rw [List.mem_singleton.mp hn]; rfl) rfl rfl
  | poll nowMs pol budgets log names =>
    cases names <;> simp only [exec] at h
    · exact hquiet h hnone rfl rfl
    · repeat' split at h
      all_goals first
        | exact hquiet h hnone rfl rfl
        | cases h
  | deliver events =>
    cases events <;> exact hquiet h hnone rfl rfl
  | user | copyProviders | offer | push | pushLocked | resume =>
    simp only [exec] at h
    repeat' split at h
    all_goals first
      | exact hquiet h hnone rfl rfl
      | cases h
  | _ => exact hquiet h hnone rfl rfl

/-- Every debounce machine has the configuration. -/
def ConfigsAre (cfg : HysteresisConfig F) (states : DomainStates F) : Prop :=
  ∀ d st, states.lookup d = some st → st.hysteresis.cfg = cfg

theorem interpretFor_cfg (pol : PressurePolicy F) (budgets : Budgets) (nowMs : UInt64)
    (sightings : List (Sighting F)) (s : Option (DomainRuntimeState F)) {st : DomainRuntimeState F}
    (h : (interpretFor pol budgets nowMs s sightings).1 = some st) :
    (∃ st₀, s = some st₀ ∧ st.hysteresis.cfg = st₀.hysteresis.cfg) ∨
      (s = none ∧ sightings ≠ [] ∧ st.hysteresis.cfg = pol.hysteresis) := by
  induction sightings generalizing s with
  | nil => exact Or.inl ⟨st, h, rfl⟩
  | cons sight rest ih =>
    rcases ih _ h with ⟨st₁, hst₁, hcfg⟩ | ⟨hnone, -⟩
    · obtain rfl := Option.some.inj hst₁
      have hkeep : st.hysteresis.cfg
          = (s.getD (DomainRuntimeState.new pol.hysteresis 16)).hysteresis.cfg :=
        hcfg.trans (observe_cfg ..)
      cases s with
      | some st₀ => exact Or.inl ⟨st₀, rfl, hkeep⟩
      | none => exact Or.inr ⟨rfl, List.cons_ne_nil _ _, hkeep⟩
    · cases hnone

/-- A refresh that creates machines only under the configuration keeps it. -/
theorem ConfigsAre.swept {cfg : HysteresisConfig F} {rt : PressureRuntime F}
    (h : ConfigsAre cfg rt.domainStates) {pol : PressurePolicy F} {budgets : Budgets}
    {nowMs : UInt64} {log : PollLog F} (hcreates : CreatesUnder cfg rt pol log) :
    ConfigsAre cfg (PressureRuntime.swept pol budgets rt nowMs log).domainStates := by
  intro d st hst
  have hlookup : (PressureRuntime.refreshed pol budgets rt nowMs log).domainStates.lookup d
      = some st := hst
  rw [PressureRuntime.lookup_refreshed] at hlookup
  split_ifs at hlookup
  rcases interpretFor_cfg pol budgets nowMs _ _ hlookup with ⟨st₀, hst₀, hcfg⟩ |
    ⟨hnone, hseen, hcfg⟩
  · rw [hcfg]
    exact h d st₀ hst₀
  · rw [hcfg]
    exact hcreates ⟨d, PressureRuntime.mem_observedIds.mpr hseen, Finmap.lookup_eq_none.mp hnone⟩

/-! ## The order of calls -/

theorem noteCall_of_not_setsPolicy {note : Note F C} (h : note.setsPolicy = false) (t : Nat)
    (calls : List (Nat × HysteresisConfig F)) : noteCall calls (t, note) = calls := by
  cases note <;> first
    | rfl
    | cases h

theorem noteCalls_of_not_setsPolicy {notes : List (Note F C)}
    (h : ∀ note ∈ notes, note.setsPolicy = false) (t : Nat)
    (calls : List (Nat × HysteresisConfig F)) :
    (notes.map fun note => (t, note)).foldl noteCall calls = calls := by
  induction notes with
  | nil => rfl
  | cons note notes ih =>
    rw [List.map_cons, List.foldl_cons, noteCall_of_not_setsPolicy (h note (List.mem_cons_self ..))]
    exact ih fun n hn => h n (List.mem_cons_of_mem note hn)

/-- What holds of a run in which calls keep their order. -/
structure Agrees (x : System F C × List (Nat × Note F C)) : Prop where
  stage : ∀ t, Stage t (x.1.code t) ((openCalls x.2).filter fun call => call.1 = t)
  configs : ConfigsAre (targetConfig (openCalls x.2) x.1.data.rt.policy) x.1.data.rt.domainStates

theorem openCalls_append (out notes : List (Nat × Note F C)) :
    openCalls (out ++ notes) = notes.foldl noteCall (openCalls out) := List.foldl_append

/-- A store that keeps the order leaves the target where it is. -/
theorem targetConfig_store (pol : PressurePolicy F) {calls : List (Nat × HysteresisConfig F)}
    {t : Nat} {p : PressurePolicy F}
    (hmine : calls.filter (fun call => call.1 = t) = [(t, p.hysteresis)])
    (horder : StoresInOrder calls t p) :
    targetConfig (calls.filter fun call => call.1 ≠ t) p = targetConfig calls pol := by
  rcases List.eq_nil_or_concat calls with rfl | ⟨rest, last, rfl⟩
  · cases hmine
  rw [List.concat_eq_append] at hmine horder ⊢
  unfold targetConfig
  unfold StoresInOrder at horder
  rw [List.getLast?_concat] at horder ⊢
  by_cases hlast : last.1 = t
  · have hcfg : last.2 = p.hysteresis := by
      have hmem : last ∈ [(t, p.hysteresis)] := hmine ▸ List.mem_filter.mpr ⟨by simp, by simpa⟩
      rw [List.mem_singleton.mp hmem]
    have hrest := horder (congrArg some hlast)
    generalize ((rest ++ [last]).filter fun call => call.1 ≠ t).getLast? = before at hrest ⊢
    cases before with
    | none => exact hcfg.symm
    | some call => exact (hrest call rfl).trans hcfg.symm
  · rw [List.filter_append, List.filter_cons_of_pos (by simpa using hlast), List.filter_nil,
      List.getLast?_concat]
    rfl

theorem Unsetting.append {c c' : Code F C} (h : Unsetting c) (h' : Unsetting c') :
    Unsetting (c ++ c') := fun a ha => (List.mem_append.mp ha).elim (h a) (h' a)

theorem Unsetting.tail {i : Instr Mutex (Action F C)} {c : Code F C} (h : Unsetting (i :: c)) :
    Unsetting c := fun a ha => h a (List.mem_cons_of_mem i ha)

theorem Plain.unsetting {c : Code F C} (h : Plain c) : Unsetting c := fun a ha => by
  have hplain := h a ha
  cases a <;> first
    | rfl
    | cases hplain

/-- A move of a thread that is outside `set_policy` leaves it outside, or calls
it. -/
theorem Stage.expand (t : Nat) {a : Action F C} {new c : Code F C} (h : Expands a new)
    (hc : Unsetting c) : Stage t (new ++ c) [] := by
  rcases h.special_or_plain with hspecial | hplain
  · cases hspecial with
    | setPolicy p =>
      have huser : Unsetting ([.act .user] ++ c : Code F C) := (plain_act rfl).unsetting.append hc
      rw [Call.code, List.append_assoc]
      split_ifs
      · exact .outside huser
      · exact .called p ((plain_guarded rfl).unsetting.append huser)
    | callback n e dl cb =>
      refine .outside (Unsetting.append (fun b hb => ?_) hc)
      obtain rfl : b = .invoke n cb e (some dl) := by simpa using hb
      rfl
  · exact .outside (hplain.unsetting.append hc)

/-! ### The open calls of each thread -/

section

variable {code : Nat → Code F C} {c new : Code F C} {out out' : List (Nat × Note F C)} {t : Nat}
  {a : Action F C} {i : Choice F C} {d d' : Shared F C} {notes : List (Note F C)}

/-- A rebuild opens a call of its own thread, and of no other. -/
theorem filter_openCalls_rebuilt (out : List (Nat × Note F C)) (t u : Nat)
    (cfg : HysteresisConfig F) :
    (openCalls (out ++ [(t, .rebuilt cfg)])).filter (fun call => call.1 = u)
      = (openCalls out).filter (fun call => call.1 = u) ++ if u = t then [(t, cfg)] else [] := by
  have hopen : openCalls (out ++ [(t, Note.rebuilt cfg)]) = openCalls out ++ [(t, cfg)] :=
    openCalls_append ..
  rw [hopen, List.filter_append]
  by_cases hu : u = t
  · rw [if_pos hu, List.filter_cons_of_pos (by simp [hu]), List.filter_nil]
  · rw [if_neg hu, List.filter_cons_of_neg (by simpa using Ne.symm hu), List.filter_nil]

theorem openCalls_stored (out : List (Nat × Note F C)) (t : Nat) (cfg : HysteresisConfig F) :
    openCalls (out ++ [(t, .stored cfg)]) = (openCalls out).filter fun call => call.1 ≠ t :=
  openCalls_append ..

/-- A store closes the call of its own thread, and of no other. -/
theorem filter_openCalls_stored (out : List (Nat × Note F C)) (t u : Nat)
    (cfg : HysteresisConfig F) :
    (openCalls (out ++ [(t, .stored cfg)])).filter (fun call => call.1 = u)
      = if u = t then [] else (openCalls out).filter fun call => call.1 = u := by
  rw [openCalls_stored, List.filter_filter]
  by_cases hu : u = t
  · rw [if_pos hu]
    exact List.filter_eq_nil_iff.mpr fun call _ => by simp [hu]
  · rw [if_neg hu]
    refine List.filter_congr ?_
    intro call _
    by_cases hcall : call.1 = u <;> simp [hcall, hu]

/-- A lock: the thread is outside of `set_policy`, or enters its first scope. -/
theorem Stage.lock {m : Mutex} {calls : List (Nat × HysteresisConfig F)}
    (h : Stage t (.lock m :: c) calls) : Stage t c calls := by
  cases h with
  | outside h => exact .outside h.tail
  | called p h => exact .entered p h

/-- An unlock: outside, or out of the first scope with the policy still to store. -/
theorem Stage.unlock {m : Mutex} {calls : List (Nat × HysteresisConfig F)}
    (h : Stage t (.unlock m :: c) calls) : Stage t c calls := by
  cases h with
  | outside h => exact .outside h.tail
  | rebuilt p h => exact .storing p h

/-- An action that is not of `set_policy` opens and closes no call. -/
theorem Aside.openCalls_eq (h : Aside a d d' notes) (out : List (Nat × Note F C)) (t : Nat) :
    openCalls (out ++ notes.map fun note => (t, note)) = openCalls out := by
  rw [openCalls_append, noteCalls_of_not_setsPolicy h.notes]

/-- **What an action does to the open calls**: those of its thread say where the
thread is then, and those of the others stay. -/
theorem Stage.act (h : Stage t (.act a :: c) ((openCalls out).filter fun call => call.1 = t))
    (hexec : a.exec i d = some (d', new, notes)) :
    Stage t (new ++ c)
        ((openCalls (out ++ notes.map fun note => (t, note))).filter fun call => call.1 = t) ∧
      ∀ u ≠ t, (openCalls (out ++ notes.map fun note => (t, note))).filter (fun call => call.1 = u)
        = (openCalls out).filter fun call => call.1 = u := by
  generalize hcalls : (openCalls out).filter (fun call => call.1 = t) = calls at h
  cases h with
  | outside h =>
    have haside := Action.exec_aside hexec (h a List.mem_cons_self)
    rw [haside.openCalls_eq, hcalls]
    exact ⟨Stage.expand t (Action.exec_expands hexec) h.tail, fun _ _ => rfl⟩
  | entered p h =>
    obtain ⟨-, rfl, rfl⟩ := by simpa [Action.exec] using hexec
    rw [List.map_singleton, filter_openCalls_rebuilt, if_pos rfl, hcalls]
    refine ⟨.rebuilt p h, fun u hu => ?_⟩
    rw [filter_openCalls_rebuilt, if_neg hu, List.append_nil]
  | storing p h =>
    obtain ⟨-, rfl, rfl⟩ := by simpa [Action.exec] using hexec
    rw [List.map_singleton, filter_openCalls_stored, if_pos rfl]
    refine ⟨.outside h, fun u hu => ?_⟩
    rw [filter_openCalls_stored, if_neg hu]

/-- A move changes the code of one thread, and the open calls of no other. -/
theorem stage_update (hs : ∀ u, Stage u (code u) ((openCalls out).filter fun call => call.1 = u))
    (hmine : Stage t c ((openCalls out').filter fun call => call.1 = t))
    (hothers : ∀ u ≠ t, (openCalls out').filter (fun call => call.1 = u)
      = (openCalls out).filter fun call => call.1 = u) (u : Nat) :
    Stage u (Function.update code t c u) ((openCalls out').filter fun call => call.1 = u) := by
  by_cases hu : u = t
  · rw [hu, Function.update_self]
    exact hmine
  · rw [Function.update_of_ne hu, hothers u hu]
    exact hs u

end

/-- **Every move keeps track** of the calls of `set_policy` that are open. -/
theorem stage_step {s : System F C} {out : List (Nat × Note F C)}
    (hs : ∀ t, Stage t (s.code t) ((openCalls out).filter fun call => call.1 = t))
    (move : Nat × Choice F C) (u : Nat) :
    Stage u ((Threads.step program s move).1.code u)
      ((openCalls (out ++ (Threads.step program s move).2)).filter fun call => call.1 = u) := by
  obtain ⟨t, i⟩ := move
  have hmine := hs t
  rcases Threads.step_cases program s t i with heq | ⟨m, c, hc, hfree, heq⟩ | ⟨m, c, hc, heq⟩ |
    ⟨a, c, d, new, notes, hc, hexec, heq⟩ <;> rw [heq]
  · rw [List.append_nil]
    exact hs u
  all_goals rw [hc] at hmine
  · rw [List.append_nil]
    exact stage_update hs hmine.lock (fun _ _ => rfl) u
  · rw [List.append_nil]
    exact stage_update hs hmine.unlock (fun _ _ => rfl) u
  · obtain ⟨hstage, hothers⟩ := hmine.act hexec
    exact stage_update hs hstage hothers u

/-! ### The target and the machines -/

/-- **What an action does to the target**: it stays where it is, or every machine is
rebuilt for it. A store has to be in order, and a refresh to create machines under it. -/
theorem ConfigsAre.act {t : Nat} {a : Action F C} {c new : Code F C} {i : Choice F C}
    {d d' : Shared F C} {notes : List (Note F C)} {out : List (Nat × Note F C)}
    (hconfigs : ConfigsAre (targetConfig (openCalls out) d.rt.policy) d.rt.domainStates)
    (hstage : Stage t (.act a :: c) ((openCalls out).filter fun call => call.1 = t))
    (hexec : a.exec i d = some (d', new, notes))
    (hstores : ∀ p ∈ a.storedPolicy, StoresInOrder (openCalls out) t p)
    (hcreates : ∀ polled ∈ a.concluded,
      CreatesUnder (targetConfig (openCalls out) d.rt.policy) d.rt polled.1 polled.2) :
    ConfigsAre (targetConfig (openCalls (out ++ notes.map fun note => (t, note))) d'.rt.policy)
      d'.rt.domainStates := by
  generalize hcalls : (openCalls out).filter (fun call => call.1 = t) = calls at hstage
  cases hstage with
  | outside h =>
    have haside := Action.exec_aside hexec (h a List.mem_cons_self)
    rw [haside.openCalls_eq, haside.policy]
    rcases haside.states with hstates | ⟨nowMs, pol, budgets, log, rfl, hstates⟩
    · rw [hstates]
      exact hconfigs
    · rw [hstates]
      exact hconfigs.swept (hcreates (pol, log) rfl)
  -- the machines are rebuilt for the call that is open from here on
  | entered p h =>
    obtain ⟨rfl, rfl, rfl⟩ := by simpa [Action.exec] using hexec
    have hopen : openCalls (out ++ [(t, Note.rebuilt p.hysteresis)])
        = openCalls out ++ [(t, p.hysteresis)] := openCalls_append ..
    show ConfigsAre (targetConfig (openCalls (out ++ [(t, _)])) _) _
    rw [hopen, targetConfig, List.getLast?_concat]
    intro id st hst
    rw [show (d.rebuild p).rt.domainStates.lookup id = _ from Keyed.lookup_mapVal ..] at hst
    obtain ⟨st₀, -, rfl⟩ := Option.map_eq_some_iff.mp hst
    rfl
  -- the policy is stored, and the call is no longer open
  | storing p h =>
    obtain ⟨rfl, rfl, rfl⟩ := by simpa [Action.exec] using hexec
    show ConfigsAre (targetConfig (openCalls (out ++ [(t, _)])) p) d.rt.domainStates
    rw [openCalls_stored, targetConfig_store d.rt.policy hcalls (hstores p rfl)]
    exact hconfigs

/-- **One move** that keeps the order keeps the machines on their target. -/
theorem Agrees.step {x : System F C × List (Nat × Note F C)} (hx : Agrees x)
    {move : Nat × Choice F C} (hmove : InOrder x move) :
    Agrees (Machine.traced (Threads.step program) x move).1 := by
  obtain ⟨s, out⟩ := x
  obtain ⟨t, i⟩ := move
  refine ⟨stage_step hx.stage (t, i), ?_⟩
  show ConfigsAre (targetConfig (openCalls (out ++ (Threads.step program s (t, i)).2))
    (Threads.step program s (t, i)).1.data.rt.policy)
    (Threads.step program s (t, i)).1.data.rt.domainStates
  have hconfigs := hx.configs
  rcases Threads.step_cases program s t i with heq | ⟨m, c, hc, hfree, heq⟩ | ⟨m, c, hc, heq⟩ |
    ⟨a, c, d, new, notes, hc, hexec, heq⟩ <;> rw [heq]
  · rwa [List.append_nil]
  · rwa [List.append_nil]
  · rwa [List.append_nil]
  · have hstage := hx.stage t
    have horder := hmove
    unfold InOrder at horder
    dsimp only at hstage horder
    rw [hc] at hstage horder
    exact hconfigs.act hstage hexec horder.1 horder.2

/-- Nothing is open at the start. -/
theorem agrees_quiet : Agrees (quiet ({} : Shared F C), []) where
  stage _ := .outside fun a ha => by
    obtain rfl := Instr.act.inj (List.mem_singleton.mp ha)
    rfl
  configs d st hst := by cases hst

/-- A thread that is not setting a policy has no open call. -/
theorem Stage.not_open {t : Nat} {c : Code F C} {calls : List (Nat × HysteresisConfig F)}
    (h : Stage t c calls) (hc : settingPolicy c = false) : calls = [] := by
  cases h with
  | outside | called | entered => rfl
  | rebuilt => simp [settingPolicy] at hc
  | storing => simp [settingPolicy] at hc

/-- **When policy and debounce machines agree**: along every schedule in which
calls of `set_policy` store in the order in which they rebuilt and refreshes
create machines under the configuration rebuilt last, whenever no call is in
progress every machine has the configuration of the policy in force. -/
theorem configs_agree {moves : List (Nat × Choice F C)}
    (horder : Machine.Along (Machine.traced (Threads.step program)) InOrder (quiet {}, []) moves)
    (hidle : ∀ t, settingPolicy ((schedule moves).code t) = false) :
    ConfigsAre (schedule moves).data.rt.policy.hysteresis
      (schedule moves).data.rt.domainStates := by
  have hagrees : Agrees
      (Machine.run (Machine.traced (Threads.step program)) (quiet {}, []) moves) :=
    Machine.run_invariant_along _ (fun _ _ hmove hx => hx.step hmove) horder agrees_quiet
  rw [Machine.run_traced] at hagrees
  have hnone : openCalls ([] ++ Machine.outputs (Threads.step program) (quiet {}) moves) = [] :=
    List.eq_nil_iff_forall_not_mem.mpr fun call hcall => by
      have hnil := (hagrees.stage call.1).not_open (hidle call.1)
      exact List.not_mem_nil (hnil ▸ List.mem_filter.mpr ⟨hcall, by simp⟩)
  have hconfigs := hagrees.configs
  rw [hnone] at hconfigs
  exact hconfigs

/-! ## Two calls on two threads -/

instance [DecidableEq F] : DecidableEq (HysteresisConfig F) := fun a b =>
  decidable_of_iff (a.minDwellObservations = b.minDwellObservations ∧
    a.minDwellDurationMs = b.minDwellDurationMs ∧ a.escalationDelayMs = b.escalationDelayMs ∧
    a.recoveryDelayMs = b.recoveryDelayMs ∧
    a.immediateEmergencyEscalation = b.immediateEmergencyEscalation ∧
    a.maxDebounceObservations = b.maxDebounceObservations) (by
      cases a
      cases b
      simp)

instance [DecidableEq F] (x : System F C × List (Nat × Note F C)) (move : Nat × Choice F C) :
    Decidable (InOrder x move) :=
  inferInstanceAs (Decidable ((∀ p ∈ Option.bind _ _, _ → ∀ call ∈ List.getLast? _, _) ∧
    ∀ c ∈ Option.bind _ _, (∃ d ∈ _, _) → _))

/-- Consecutive moves of one thread that need no answer. -/
def proceed (t n : Nat) : List (Nat × Choice ℚ Unit) := List.replicate n (t, .proceed)

/-- Thread 0 registers a provider and refreshes: a host appears. -/
def discoveringMoves : List (Nat × Choice ℚ Unit) :=
  (0, .call (.registerProvider "host")) :: proceed 0 3
    ++ (0, .call (.refresh 1000)) :: proceed 0 6
    ++ (0, .order ["host"]) :: proceed 0 1
    ++ (0, .sampled (.returned { observations :=
        [{ id := { high := 0, low := 1 }, type := .hostMemory, totalCapacity := 100,
           committed := 30 }] })) :: proceed 0 27

/-- Thread 0 has rebuilt for a policy that dwells on three observations, then
thread 1 for one that dwells on four. -/
def rebuildingMoves : List (Nat × Choice ℚ Unit) :=
  (0, .call (.setPolicy { defaultPolicy with hysteresis := { minDwellObservations := 3 } }))
    :: proceed 0 3
    ++ (1, .call (.setPolicy { defaultPolicy with hysteresis := { minDwellObservations := 4 } }))
    :: proceed 1 3

/-- A property of the code of every thread, where only two threads have moved: it holds of
theirs and of user code. -/
theorem forall_code_of_two {moves : List (Nat × Choice ℚ Unit)}
    (h : ∀ move ∈ moves, move.1 = 0 ∨ move.1 = 1) {p : Code ℚ Unit → Bool} {b : Bool}
    (huser : p [.act .user] = b) (hzero : p ((schedule moves).code 0) = b)
    (hone : p ((schedule moves).code 1) = b) (t : Nat) : p ((schedule moves).code t) = b := by
  by_cases ht : t = 0 ∨ t = 1
  · rcases ht with rfl | rfl
    · exact hzero
    · exact hone
  · have hstill : (schedule moves).code t = [.act .user] :=
      Threads.code_run_of_notMem program
        (fun move hmove (heq : move.1 = t) => ht (heq ▸ h move hmove)) _
    rw [hstill]
    exact huser

/-- After `rebuildingMoves` the two threads store in the order in which they rebuilt, and
the machines agree with the policy. -/
theorem configs_agree_in_order :
    ConfigsAre
      (schedule (discoveringMoves ++ rebuildingMoves ++ proceed 0 4 ++
        proceed 1 4)).data.rt.policy.hysteresis
      (schedule (discoveringMoves ++ rebuildingMoves ++ proceed 0 4 ++
        proceed 1 4)).data.rt.domainStates := by
  refine configs_agree (by decide +kernel) (forall_code_of_two (by decide +kernel) rfl ?_ ?_)
  · decide +kernel
  · decide +kernel

/-- The thread is in user code. -/
def inUserCode : Code F C → Bool
  | [.act .user] => true
  | _ => false

/-- After `rebuildingMoves` the two threads store the other way round: with both calls over,
the policy in force dwells on three observations and the machine of the host on four. -/
theorem configs_differ :
    (∀ t, inUserCode ((schedule
        (discoveringMoves ++ rebuildingMoves ++ proceed 1 4 ++ proceed 0 4)).code t) = true) ∧
      ¬ ConfigsAre
        (schedule (discoveringMoves ++ rebuildingMoves ++ proceed 1 4 ++
          proceed 0 4)).data.rt.policy.hysteresis
        (schedule (discoveringMoves ++ rebuildingMoves ++ proceed 1 4 ++
          proceed 0 4)).data.rt.domainStates := by
  refine ⟨forall_code_of_two (by decide +kernel) rfl ?_ ?_, fun h => ?_⟩
  · decide +kernel
  · decide +kernel
  · have hleft : ((schedule (discoveringMoves ++ rebuildingMoves ++ proceed 1 4
        ++ proceed 0 4)).data.rt.domainStates.lookup { high := 0, low := 1 }).any (fun st =>
          st.hysteresis.cfg ≠ (schedule (discoveringMoves ++ rebuildingMoves ++ proceed 1 4
            ++ proceed 0 4)).data.rt.policy.hysteresis) = true := by
      decide +kernel
    obtain ⟨st, hst, hne⟩ := (Option.any_eq_true ..).mp hleft
    exact of_decide_eq_true hne (h _ st hst)

end MemoryPressure
