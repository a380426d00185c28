import MemoryPressure.PolicySwap
import MemoryPressure.Publication
import MemoryPressure.Session

/-!
# Every schedule is a sequential run (`runtime.cpp`)

`refresh` loads the policy, copies the budgets and copies the providers in scopes
of their own, and publishes in another; calls of other threads come in between.
What it publishes is nevertheless what a sequential run of the same calls does.

- `effects`: the calls of a schedule in the order in which they take effect.
- `Midway`: where a thread is in `refresh`, from the load of the policy to the
  publication.
- `Sequential`: a schedule so far against a sequential run. The calls that came in
  since a refresh copied the budgets stand behind it in that run (`post`).
- `serializable`: the run at the end of a schedule in which no refresh loads the
  policy, and no other call rebuilds, while a call of `set_policy` is between its
  rebuild and its store.

**When a call takes effect.** `set_policy` with its store, a refresh with its conclusion
or with the exception that cuts it short, any other call in its one scope. The run keeps
the order of `effects` among the calls of each kind (`OpKind`); a call on the
configuration that came in after the refresh had copied what it changes is moved behind
that refresh, and a registration in front of it as long as the providers are not copied.
Calls of different kinds touch different members (`run_configuration`), which is why they
may be exchanged (`foldl_filter`, `order_core`).

**The simulation.** `Sequential` splits the run at the refresh in progress, `pre ++ post`,
and says what that refresh has loaded so far in terms of the state after `pre`. There is
one lemma for each thing an action can do (`load`, `copyBudgets`, `poll`, `conclude`,
`publish`, `rebuild`, `store` and so on), each from `Explained` to `Explained`.
`Serialized` adds where the threads are: the refresh in progress is of the thread that
holds `refresh_mutex_`, every other thread is outside of it. `step` is then one move,
`outside_step` for a thread outside of `refresh`, `inside_step` and `aside_step` for the
one inside.

While a refresh has concluded and not yet published, its snapshot is in the run and not
yet among the snapshots read, so the published ones are an initial part of those of the
run. Telemetry is not compared, since its counters are counted in scopes of their own in
between; `telemetry_accounts` is about sequential runs.
-/

namespace MemoryPressure

variable {F C : Type} [Double F]

open Threads (Instr)

/-! ## Operations by what they touch

Calls on the configuration have one member of the runtime each, and neither a refresh nor
`set_policy` writes it. So the state after a run splits into what each kind of call makes
of its member, and calls of different kinds commute. -/

/-- What an operation is about. -/
inductive OpKind where
  | core | budget | provider | history
  deriving DecidableEq

def Op.kind : Op F → OpKind
  | .setPolicy _ | .refresh _ _ => .core
  | .setBudget _ _ | .clearBudget _ => .budget
  | .registerProvider _ => .provider
  | .setHistoryLimit _ => .history

/-- The operation without the answers of the providers. -/
def Op.unpolled : Op F → Op F
  | .refresh nowMs _ => .refresh nowMs []
  | op => op

@[simp] theorem Op.kind_unpolled (op : Op F) : op.unpolled.kind = op.kind := by
  cases op <;> rfl

def Op.onBudgets (budgets : Budgets) : Op F → Budgets
  | .setBudget id b => if (validateBudget b).isSome then budgets else budgets.insert id b
  | .clearBudget id => budgets.erase id
  | _ => budgets

def Op.onProviders (providers : Finmap (fun _ : PressureDomainId => String)) :
    Op F → Finmap (fun _ : PressureDomainId => String)
  | .registerProvider name => providers.insert (PressureRuntime.providerKey name) name
  | _ => providers

def Op.onLimit (limit : Nat) : Op F → Nat
  | .setHistoryLimit n => n
  | _ => limit

/-- **What configuration does**: each kind of call to its own member. -/
theorem run_configuration {ops : List (Op F)} (h : ∀ op ∈ ops, op.kind ≠ .core)
    (rt : PressureRuntime F) :
    runFrom rt ops = { rt with
      budgets := ops.foldl Op.onBudgets rt.budgets
      providers := ops.foldl Op.onProviders rt.providers
      historyLimit := ops.foldl Op.onLimit rt.historyLimit } := by
  induction ops generalizing rt with
  | nil => rfl
  | cons op ops ih =>
    have hop := h op List.mem_cons_self
    rw [runFrom, Machine.run_cons, ← runFrom, ih fun o ho => h o (List.mem_cons_of_mem op ho)]
    cases op with
    | setPolicy | refresh => exact absurd rfl hop
    | setBudget id b =>
      simp only [step, PressureRuntime.setBudget, List.foldl_cons, Op.onBudgets, Op.onProviders,
        Op.onLimit]
      split_ifs <;> rfl
    | clearBudget | registerProvider | setHistoryLimit => rfl

theorem published_configuration {ops : List (Op F)} (h : ∀ op ∈ ops, op.kind ≠ .core)
    (rt : PressureRuntime F) : publishedBy rt ops = [] := by
  induction ops generalizing rt with
  | nil => rfl
  | cons op ops ih =>
    have hop := h op List.mem_cons_self
    rw [publishedBy, Machine.outputs_cons, ← publishedBy,
      ih fun o ho => h o (List.mem_cons_of_mem op ho), List.append_nil]
    cases op with
    | setPolicy | refresh => exact absurd rfl hop
    | _ => rfl

theorem legal_configuration {ops : List (Op F)} (h : ∀ op ∈ ops, op.kind ≠ .core)
    (rt : PressureRuntime F) : Machine.Along step Legal rt ops := by
  induction ops generalizing rt with
  | nil => trivial
  | cons op ops ih =>
    have hop := h op List.mem_cons_self
    refine ⟨?_, ih (fun o ho => h o (List.mem_cons_of_mem op ho)) _⟩
    cases op with
    | refresh => exact absurd rfl hop
    | _ => trivial

/-- Operations of other kinds leave the function's member alone. -/
def OnlyKind {α : Type} (k : OpKind) (f : α → Op F → α) : Prop :=
  ∀ a op, op.kind ≠ k → f a op = a

theorem onlyKind_onBudgets : OnlyKind .budget (Op.onBudgets (F := F)) := by
  intro budgets op hop
  cases op <;> first
    | rfl
    | exact absurd rfl hop

theorem onlyKind_onProviders : OnlyKind .provider (Op.onProviders (F := F)) := by
  intro providers op hop
  cases op <;> first
    | rfl
    | exact absurd rfl hop

theorem onlyKind_onLimit : OnlyKind .history (Op.onLimit (F := F)) := by
  intro limit op hop
  cases op <;> first
    | rfl
    | exact absurd rfl hop

namespace OnlyKind

variable {α : Type} {k : OpKind} {f : α → Op F → α} {p : Op F → Bool}

/-- Operations of other kinds may be left out. -/
theorem foldl_filter (h : OnlyKind k f) (hp : ∀ op, op.kind = k → p op = true) (ops : List (Op F))
    (a : α) : (ops.filter p).foldl f a = ops.foldl f a := by
  rw [List.foldl_filter]
  congr 1
  funext a op
  split_ifs with hop
  · rfl
  · exact (h a op fun hk => hop (hp op hk)).symm

/-- Without operations of its kind a member stays as it is. -/
theorem foldl_others (h : OnlyKind k f) (hp : ∀ op, p op = true → op.kind ≠ k) (ops : List (Op F))
    (a : α) : (ops.filter p).foldl f a = a := by
  induction ops generalizing a with
  | nil => rfl
  | cons op ops ih =>
    rw [List.filter_cons]
    split_ifs with hop
    · rw [List.foldl_cons, h a op (hp op hop), ih]
    · exact ih a

end OnlyKind

/-! ## When a call takes effect

The moment is read off the action and the choice, without looking ahead: a refresh takes
effect as it concludes, although its snapshot is seen later. -/

/-- The call that takes effect with the action: `set_policy` with its store, a
refresh with its conclusion or with the exception that cuts it short. -/
def Action.effect (choice : Choice F C) : Action F C → Option (Op F)
  | .apply c => c.op
  | .storePolicy p => some (.setPolicy p)
  | .conclude nowMs _ _ _ => some (.refresh nowMs [])
  | .poll nowMs _ _ _ (_ :: _) =>
    match choice with
    | .sampled .escaped => some (.refresh nowMs [])
    | _ => none
  | _ => none

/-- What a move makes take effect. -/
def effectsOf (s : System F C) (move : Nat × Choice F C) : List (Op F) :=
  ((Threads.nextAct (s.code move.1)).bind (Action.effect move.2)).toList

def effectsFrom (s : System F C) : List (Nat × Choice F C) → List (Op F)
  | [] => []
  | move :: moves => effectsOf s move ++ effectsFrom (Threads.step program s move).1 moves

/-- The calls of a schedule, from construction, in the order in which they take
effect. -/
def effects (moves : List (Nat × Choice F C)) : List (Op F) := effectsFrom (quiet {}) moves

theorem effectsFrom_concat (s : System F C) (moves : List (Nat × Choice F C))
    (move : Nat × Choice F C) : effectsFrom s (moves ++ [move])
      = effectsFrom s moves ++ effectsOf (Threads.runFrom program s moves) move := by
  induction moves generalizing s with
  | nil => simp [effectsFrom, Threads.runFrom]
  | cons m moves ih =>
    rw [List.cons_append, effectsFrom, ih, effectsFrom, List.append_assoc]
    rfl

/-- An action that cannot be performed makes nothing take effect. -/
theorem Action.effect_of_stuck {a : Action F C} {choice : Choice F C} {d : Shared F C}
    (h : a.exec choice d = none) : a.effect choice = none := by
  cases a with
  | apply | storePolicy | conclude => cases h
  | poll nowMs pol budgets log names =>
    cases names with
    | nil => rfl
    | cons name names =>
      cases choice with
      | sampled outcome =>
        cases outcome <;> cases h
      | _ => rfl
  | _ => rfl

/-! ## What the other actions do -/

/-- The action neither rebuilds nor publishes. -/
def Action.isIdle : Action F C → Bool
  | .rebuild _ | .publish _ => false
  | _ => true

/-- An action with which nothing takes effect, is rebuilt or is published changes
nothing of the runtime but its telemetry. -/
theorem Action.exec_idle {a : Action F C} {choice : Choice F C} {d d' : Shared F C}
    {new : Code F C} {notes : List (Note F C)} (h : a.exec choice d = some (d', new, notes))
    (heffect : a.effect choice = none) (ha : a.isIdle = true) :
    d'.rt = { d.rt with stats := d'.rt.stats } ∧
      ∀ note ∈ notes, note.setsPolicy = false ∧ note.publishedSnapshot = none := by
  have hquiet : ∀ {x : Shared F C} {c : Code F C} {out : List (Note F C)},
      (some (x, c, out) : Option (_ × _ × _)) = some (d', new, notes) →
      x.rt = { d.rt with stats := x.rt.stats } →
      (∀ note ∈ out, note.setsPolicy = false ∧ note.publishedSnapshot = none) →
      d'.rt = { d.rt with stats := d'.rt.stats } ∧
        ∀ note ∈ notes, note.setsPolicy = false ∧ note.publishedSnapshot = none := by
    rintro x c out hx hrt hout
    obtain ⟨rfl, -, rfl⟩ := by simpa using hx
    exact ⟨hrt, hout⟩
  have hnone : ∀ note ∈ ([] : List (Note F C)),
      note.setsPolicy = false ∧ note.publishedSnapshot = none := fun _ hn => (by cases hn)
  cases a with
  | rebuild | publish => cases ha
  | storePolicy | conclude => cases heffect
  | apply c =>
    refine hquiet h ?_ hnone
    rw [apply_runtime, show c.op = none from heffect]
    rfl
  | readCurrent | readHistory | invoke =>
    exact hquiet h rfl fun note hn => by rw [List.mem_singleton.mp hn]; exact ⟨rfl, rfl⟩
  | poll nowMs pol budgets log names =>
    cases names with
    | nil => exact hquiet h rfl hnone
    | cons name names =>
      cases choice with
      | sampled outcome =>
        cases outcome with
        | escaped => cases heffect
        | returned | threw => exact hquiet h rfl hnone
      | _ => cases h
  | deliver events =>
    cases events <;> exact hquiet h rfl hnone
  | user | copyProviders | offer | push | pushLocked | resume =>
    simp only [exec] at h
    repeat' split at h
    all_goals first
      | exact hquiet h rfl hnone
      | cases h
  | _ => exact hquiet h rfl hnone

/-! ## Where a thread is in `set_policy` -/

/-- A policy ahead in the code of a thread has passed its check. -/
def PoliciesChecked (c : Code F C) : Prop :=
  ∀ a, Instr.act a ∈ c → ∀ p ∈ a.storedPolicy, validatePolicy p = none

theorem Expands.policiesChecked {a : Action F C} {new : Code F C} (h : Expands a new) :
    PoliciesChecked new := by
  intro b hb p hp
  rcases h.special_or_plain with hspecial | hplain
  · cases hspecial with
    | setPolicy q =>
      rw [Call.code] at hb
      split_ifs at hb with hvalid
      · obtain rfl : b = .user := by simpa using hb
        cases hp
      · rcases (by simpa [guarded] using hb : _ ∨ _ ∨ _ ∨ _) with rfl | rfl | rfl | rfl <;> cases hp
        exact Option.not_isSome_iff_eq_none.mp hvalid
    | callback =>
      obtain rfl : b = _ := by simpa using hb
      cases hp
  · have hb' := hplain b hb
    cases b with
    | storePolicy => cases hb'
    | _ => cases hp

theorem policiesChecked_step {s : System F C} (hs : ∀ t, PoliciesChecked (s.code t))
    (move : Nat × Choice F C) (u : Nat) :
    PoliciesChecked ((Threads.step program s move).1.code u) := by
  intro b hb p hp
  rcases Threads.mem_code_step program hb with hold | ⟨a, d, new, notes, -, hexec, hnew⟩
  · exact hs u b hold p hp
  · exact (Action.exec_expands hexec).policiesChecked b hnew p hp

/-- **Where the threads are in `set_policy`**, after every schedule. -/
theorem stages_run (moves : List (Nat × Choice F C)) (t : Nat) :
    Stage t ((schedule moves).code t) ((openCalls (noted moves)).filter fun call => call.1 = t) ∧
      PoliciesChecked ((schedule moves).code t) := by
  induction moves using List.reverseRecOn generalizing t with
  | nil =>
    constructor
    · refine .outside ?_
      intro a ha
      obtain rfl := Instr.act.inj (List.mem_singleton.mp ha)
      rfl
    · intro a ha p hp
      obtain rfl := Instr.act.inj (List.mem_singleton.mp ha)
      cases hp
  | append_singleton moves move ih =>
    rw [schedule, noted, Threads.runFrom, Machine.run_append, Machine.outputs_append]
    simp only [Machine.run_cons, Machine.run_nil, Machine.outputs_cons, Machine.outputs_nil,
      List.append_nil]
    exact ⟨stage_step (fun u => (ih u).1) move t, policiesChecked_step (fun u => (ih u).2) move t⟩

/-! ## Where a thread is in `refresh`

`Midway` follows the code from the load of the policy to the publication, with the action
next to come. The scopes between two such actions (`isAside`) take mutexes other than
`refresh_mutex_` and change nothing but telemetry. -/

/-- The action is of `refresh` with the policy loaded and the snapshot not yet
published. -/
def Action.midway : Action F C → Bool
  | .copyBudgets _ _ | .copyProviders _ _ _ | .poll _ _ _ _ _ | .interpret _ _ _ _
  | .conclude _ _ _ _ | .publish _ => true
  | _ => false

/-- The instruction is of the scopes between two such actions. -/
def isAside : Instr Mutex (Action F C) → Bool
  | .lock m | .unlock m => m ≠ .refresh
  | .act .countFailure | .act .countTransition | .act .countGeneration | .act (.countRequest _)
  | .act .look => true
  | .act _ => false

/-- No action of `refresh` with the policy loaded and the snapshot unpublished is ahead. -/
def Outside (c : Code F C) : Prop := ∀ a, Instr.act a ∈ c → a.midway = false

/-- A thread's code by the action of `refresh` it is about to perform. -/
inductive Midway : Code F C → Option (Action F C) → Prop
  | outside {c} : Outside c → Midway c none
  | inside {front c : Code F C} (a : Action F C) : a.midway = true →
      (∀ i ∈ front, isAside i = true) → Outside c → Midway (front ++ .act a :: c) (some a)

theorem Outside.append {c c' : Code F C} (h : Outside c) (h' : Outside c') : Outside (c ++ c') :=
  fun a ha => (List.mem_append.mp ha).elim (h a) (h' a)

theorem Outside.tail {i : Instr Mutex (Action F C)} {c : Code F C} (h : Outside (i :: c)) :
    Outside c := fun a ha => h a (List.mem_cons_of_mem i ha)

/-- A lock or an unlock on the way to the next action of `refresh` is not of
`refresh_mutex_`. -/
theorem Midway.tail {i : Instr Mutex (Action F C)} {c : Code F C} {m : Option (Action F C)}
    (h : Midway (i :: c) m) (hi : ∀ a, i ≠ .act a) :
    Midway c m ∧ (m.isSome → isAside i = true) := by
  generalize hcode : i :: c = code at h
  cases h with
  | outside hc =>
    subst hcode
    exact ⟨.outside hc.tail, fun hs => by cases hs⟩
  | @inside front c' a ha hfront hc =>
    cases front with
    | nil => exact absurd (List.cons.inj hcode).1 (hi _)
    | cons j front =>
      obtain ⟨rfl, rfl⟩ := List.cons.inj hcode
      exact ⟨.inside a ha (fun k hk => hfront k (List.mem_cons_of_mem _ hk)) hc,
        fun _ => hfront _ List.mem_cons_self⟩

/-- The action a thread is about to perform: not of `refresh` in progress, between
two actions of it, or the next one. -/
theorem Midway.act_cases {a : Action F C} {c : Code F C} {m : Option (Action F C)}
    (h : Midway (.act a :: c) m) :
    (m = none ∧ a.midway = false ∧ Outside c) ∨
      (isAside (.act a : Instr Mutex (Action F C)) = true ∧ m.isSome ∧ Midway c m) ∨
        (m = some a ∧ a.midway = true ∧ Outside c) := by
  generalize hcode : Instr.act a :: c = code at h
  cases h with
  | outside hc =>
    subst hcode
    exact Or.inl ⟨rfl, hc a List.mem_cons_self, hc.tail⟩
  | @inside front c' b hb hfront hc =>
    cases front with
    | nil =>
      obtain ⟨hact, rfl⟩ := List.cons.inj hcode
      obtain rfl := Instr.act.inj hact
      exact Or.inr (Or.inr ⟨rfl, hb, hc⟩)
    | cons j front =>
      obtain ⟨rfl, rfl⟩ := List.cons.inj hcode
      exact Or.inr (Or.inl ⟨hfront _ List.mem_cons_self, rfl,
        .inside b hb (fun k hk => hfront k (List.mem_cons_of_mem _ hk)) hc⟩)

/-- What an action outside of `refresh` in progress puts in front is outside too,
unless it loads the policy. -/
theorem Expands.outside {a : Action F C} {new : Code F C} (h : Expands a new)
    (ha : a.midway = false) (hload : ∀ nowMs, a ≠ .loadPolicy nowMs) : Outside new := by
  have hdelivery : ∀ dl : Option Delivery, Outside (Delivery.code dl : Code F C) := by
    intro dl b hb
    cases dl with
    | none => cases hb
    | some d =>
      obtain rfl := Instr.act.inj (List.mem_singleton.mp hb)
      rfl
  cases h with
  | call c =>
    cases c with
    | setPolicy p =>
      rw [Call.code]
      split_ifs <;> simp [Outside, guarded, Action.midway]
    | setBudget id b =>
      rw [Call.code]
      split_ifs <;> simp [Outside, guarded, Action.midway]
    | _ => simp [Outside, Call.code, guarded, Action.midway]
  | readDomain id known =>
    split_ifs <;> simp [Outside, guarded, Action.midway]
  | queued n e dl => exact fun b hb => hdelivery dl b (by simpa using hb)
  | misses n e dl => exact hdelivery dl
  | resume dl => exact hdelivery dl
  | loadPolicy nowMs => exact absurd rfl (hload nowMs)
  | poll | polled | escaped | interpret | conclude | copyBudgets | copyProviders => cases ha
  | _ => simp [Outside, Action.midway]

/-! ## Against a sequential run -/

/-- The debounce machines, if a call has rebuilt them and not yet stored its
policy. -/
def rebuiltBy (calls : List (Nat × HysteresisConfig F)) (states : DomainStates F) :
    DomainStates F :=
  match calls with
  | [] => states
  | (_, cfg) :: _ =>
    Keyed.mapVal (fun st => { st with hysteresis := HysteresisState.new cfg }) states

/-- The snapshot the action publishes. -/
def Action.toPublish : Action F C → Option (Snapshot F)
  | .publish snap => some snap
  | _ => none

/-- The answers polled so far are of registered providers; `names` are those still
to poll. -/
def Polled (rt : PressureRuntime F) (nowMs : UInt64) (log : PollLog F) (names : List String) :
    Prop :=
  ∃ polls, pollAll nowMs { health := rt.providerHealth } polls = .ok log ∧
    ((polls.map Poll.name ++ names : List String) : Multiset String)
      = rt.providers.entries.map Sigma.snd

/-- What a refresh has loaded and polled is what it finds in this runtime. -/
def LoadedFrom (rt : PressureRuntime F) : Action F C → Prop
  | .copyBudgets _ pol => pol = rt.policy
  | .copyProviders _ pol budgets => pol = rt.policy ∧ budgets = rt.budgets
  | .poll nowMs pol budgets log names =>
    pol = rt.policy ∧ budgets = rt.budgets ∧ Polled rt nowMs log names
  | .interpret nowMs pol budgets log | .conclude nowMs pol budgets log =>
    pol = rt.policy ∧ budgets = rt.budgets ∧ Polled rt nowMs log []
  | _ => True

/-- A schedule so far against a sequential run `pre ++ post`, where the refresh in
progress, if any, stands between the two: `rt` is its runtime, `calls` are the open
calls of `set_policy`, `snaps` the snapshots published, `done` the calls that have
taken effect and `mid` is the action of `refresh` to be performed next. -/
structure Sequential (rt : PressureRuntime F) (calls : List (Nat × HysteresisConfig F))
    (snaps : List (Snapshot F)) (done : List (Op F)) (mid : Option (Action F C))
    (pre post : List (Op F)) : Prop where
  legal : Machine.Along step Legal PressureRuntime.init pre
  config : ∀ op ∈ post, op.kind ≠ .core
  order : ∀ k, ((pre ++ post).filter fun op => op.kind = k).map Op.unpolled
    = done.filter fun op => op.kind = k
  runtime : rt = { runFrom PressureRuntime.init pre with
    budgets := post.foldl Op.onBudgets (runFrom PressureRuntime.init pre).budgets
    providers := post.foldl Op.onProviders (runFrom PressureRuntime.init pre).providers
    historyLimit := post.foldl Op.onLimit (runFrom PressureRuntime.init pre).historyLimit
    domainStates := rebuiltBy calls (runFrom PressureRuntime.init pre).domainStates
    currentSnapshot := rt.currentSnapshot
    history := rt.history
    stats := rt.stats }
  current : (runFrom PressureRuntime.init pre).currentSnapshot
    = (mid.bind Action.toPublish).getD rt.currentSnapshot
  shown : (publishedBy PressureRuntime.init pre).map Published.snapshot
    = snaps ++ (mid.bind Action.toPublish).toList
  single : calls.length ≤ 1
  closed : mid.isSome → calls = []
  loaded : ∀ a ∈ mid, LoadedFrom (runFrom PressureRuntime.init pre) a

/-- What the registrations among some calls do. -/
theorem run_registrations (ops : List (Op F)) (rt : PressureRuntime F) :
    runFrom rt (ops.filter fun op => op.kind = .provider)
      = { rt with providers := ops.foldl Op.onProviders rt.providers } := by
  have hkind : ∀ op ∈ ops.filter (fun op : Op F => op.kind = .provider), op.kind ≠ .core := by
    intro op ho hcore
    have hprovider := (List.mem_filter.mp ho).2
    simp [hcore] at hprovider
  rw [run_configuration hkind,
    onlyKind_onBudgets.foldl_others fun op hop => by simp [of_decide_eq_true hop],
    onlyKind_onLimit.foldl_others fun op hop => by simp [of_decide_eq_true hop],
    onlyKind_onProviders.foldl_filter fun op hop => by simp [hop]]

theorem filter_registrations (ops : List (Op F)) (k : OpKind) :
    (ops.filter fun op => op.kind = .provider).filter (fun op => op.kind = k)
        ++ (ops.filter fun op => op.kind ≠ .provider).filter (fun op => op.kind = k)
      = ops.filter fun op => op.kind = k := by
  rw [List.filter_filter, List.filter_filter]
  by_cases hk : k = .provider
  · have hnone : ops.filter (fun op => decide (op.kind = k) && decide (op.kind ≠ .provider)) = [] :=
      List.filter_eq_nil_iff.mpr fun op _ => by simp [hk]
    rw [hnone, List.append_nil, hk]
    exact List.filter_congr fun op _ => by simp
  · have hnone : ops.filter (fun op => decide (op.kind = k) && decide (op.kind = .provider)) = [] :=
      List.filter_eq_nil_iff.mpr fun op _ => by
        rw [Bool.and_eq_true, decide_eq_true_eq, decide_eq_true_eq]
        rintro ⟨rfl, hp⟩
        exact hk hp
    rw [hnone, List.nil_append]
    refine List.filter_congr ?_
    intro op _
    by_cases hop : op.kind = k
    · simp [hop, hk]
    · simp [hop]

/-- A refresh or a call of `set_policy` taken into the run before the rest. -/
theorem order_core (pre post : List (Op F)) {done : List (Op F)}
    (hpost : ∀ op ∈ post, op.kind ≠ .core) {op : Op F} (hop : op.kind = .core)
    (h : ∀ k, ((pre ++ post).filter fun op => op.kind = k).map Op.unpolled
      = done.filter fun op => op.kind = k) (k : OpKind) :
    ((pre ++ [op] ++ post).filter fun op => op.kind = k).map Op.unpolled
      = (done ++ [op.unpolled]).filter fun op => op.kind = k := by
  have hk := h k
  rw [List.filter_append, List.map_append] at hk
  rw [List.filter_append, List.filter_append, List.map_append, List.map_append, List.filter_append,
    ← hk]
  by_cases hcore : k = .core
  · have hnone : post.filter (fun op => decide (op.kind = k)) = [] :=
      List.filter_eq_nil_iff.mpr fun o ho => by simpa [hcore] using hpost o ho
    rw [hnone]
    simp [hop, hcore]
  · have hne : ¬ OpKind.core = k := fun heq => hcore heq.symm
    simp [hop, hne]

/-- Some sequential run explains the schedule so far. -/
def Explained (rt : PressureRuntime F) (calls : List (Nat × HysteresisConfig F))
    (snaps : List (Snapshot F)) (done : List (Op F)) (mid : Option (Action F C)) : Prop :=
  ∃ pre post, Sequential rt calls snaps done mid pre post

theorem pollAll_concat {nowMs : UInt64} {polls : List (Poll F)} {log log' : PollLog F}
    (h : pollAll nowMs log polls = .ok log') (rest : List (Poll F)) :
    pollAll nowMs log (polls ++ rest) = pollAll nowMs log' rest := by
  induction polls generalizing log with
  | nil =>
    obtain rfl := Except.ok.inj h
    rfl
  | cons poll polls ih =>
    rw [List.cons_append, pollAll]
    rw [pollAll] at h
    cases hone : pollOne nowMs log poll with
    | error e =>
      rw [hone] at h
      cases h
    | ok log₁ =>
      rw [hone] at h
      exact ih h

namespace Explained

variable {rt rt' : PressureRuntime F} {calls : List (Nat × HysteresisConfig F)}
  {snaps : List (Snapshot F)} {done : List (Op F)} {mid : Option (Action F C)}

/-- Telemetry changes nothing. -/
theorem count (h : Explained rt calls snaps done mid)
    (hrt : rt' = { rt with stats := rt'.stats }) : Explained rt' calls snaps done mid := by
  obtain ⟨pre, post, h⟩ := h
  generalize rt'.stats = stats at hrt
  subst hrt
  refine ⟨pre, post, { h with runtime := ?_ }⟩
  rw [h.runtime]

/-- A call on the configuration comes in. -/
theorem configure (h : Explained rt calls snaps done mid) {op : Op F} (hop : op.kind ≠ .core) :
    Explained (runFrom rt [op]) calls snaps (done ++ [op]) mid := by
  obtain ⟨pre, post, h⟩ := h
  have hone : ∀ o ∈ [op], o.kind ≠ .core := List.forall_mem_singleton.mpr hop
  have hsame : op.unpolled = op := by
    cases op with
    | refresh => exact absurd rfl hop
    | _ => rfl
  refine ⟨pre, post ++ [op],
    { h with config := ?_, order := fun k => ?_, runtime := ?_, current := ?_ }⟩
  · intro o ho
    exact (List.mem_append.mp ho).elim (h.config o) (hone o)
  · rw [← List.append_assoc, List.filter_append, List.map_append, h.order k, List.filter_append]
    by_cases hk : op.kind = k <;> simp [hk, hsame]
  · rw [run_configuration hone, List.foldl_append, List.foldl_append, List.foldl_append]
    rw [h.runtime]
  · rw [run_configuration hone]
    exact h.current

/-- A refresh loads the policy. -/
theorem load (h : Explained rt [] snaps done (none : Option (Action F C))) (nowMs : UInt64) :
    Explained rt [] snaps done (some (.copyBudgets nowMs rt.policy : Action F C)) := by
  obtain ⟨pre, post, h⟩ := h
  refine ⟨pre, post, { h with closed := fun _ => rfl, loaded := ?_ }⟩
  intro a ha
  obtain rfl := Option.some.inj ha
  show rt.policy = _
  rw [h.runtime]

/-- The refresh copies the budgets: what is configured from here on stands behind
it. -/
theorem copyBudgets {nowMs : UInt64} {pol : PressurePolicy F}
    (h : Explained rt calls snaps done (some (.copyBudgets nowMs pol : Action F C))) :
    Explained rt calls snaps done (some (.copyProviders nowMs pol rt.budgets : Action F C)) := by
  obtain ⟨pre, post, h⟩ := h
  have hrun := run_configuration h.config (runFrom PressureRuntime.init pre)
  have hpre : runFrom PressureRuntime.init (pre ++ post) = _ := (Machine.run_append ..).trans hrun
  refine ⟨pre ++ post, [], { h with
    legal := (Machine.along_append step).mpr ⟨h.legal, legal_configuration h.config _⟩
    config := fun _ ho => by cases ho
    order := fun k => by rw [List.append_nil]; exact h.order k
    runtime := ?_, current := ?_, shown := ?_, loaded := ?_ }⟩
  · rw [hpre]
    exact h.runtime
  · rw [hpre]
    exact h.current
  · rw [publishedBy, Machine.outputs_append, ← publishedBy, ← publishedBy,
      published_configuration h.config, List.append_nil]
    exact h.shown
  · intro a ha
    obtain rfl := Option.some.inj ha
    rw [hpre]
    refine ⟨h.loaded _ rfl, ?_⟩
    rw [h.runtime]

/-- The refresh copies the providers: the registrations until here stand before
it. -/
theorem copyProviders {nowMs : UInt64} {pol : PressurePolicy F} {budgets : Budgets}
    {names : List String}
    (h : Explained rt calls snaps done
      (some (.copyProviders nowMs pol budgets : Action F C)))
    (hnames : (names : Multiset String) = rt.providers.entries.map Sigma.snd) :
    Explained rt calls snaps done
      (some (.poll nowMs pol budgets { health := rt.providerHealth } names : Action F C)) := by
  obtain ⟨pre, post, h⟩ := h
  have hregs : ∀ op ∈ post.filter (fun op : Op F => op.kind = .provider), op.kind ≠ .core :=
    fun op ho => h.config op (List.mem_filter.mp ho).1
  have hpre : runFrom PressureRuntime.init (pre ++ post.filter fun op => op.kind = .provider) = _ :=
    (Machine.run_append ..).trans (run_registrations post (runFrom PressureRuntime.init pre))
  obtain ⟨hpol, hbudgets⟩ := h.loaded _ rfl
  refine ⟨pre ++ post.filter fun op => op.kind = .provider,
    post.filter fun op => op.kind ≠ .provider,
    { h with
      legal := (Machine.along_append step).mpr ⟨h.legal, legal_configuration hregs _⟩
      config := fun op ho => h.config op (List.mem_filter.mp ho).1
      order := fun k => ?_, runtime := ?_, current := ?_, shown := ?_, loaded := ?_ }⟩
  · rw [List.append_assoc, List.filter_append, List.filter_append, filter_registrations,
      ← List.filter_append]
    exact h.order k
  · rw [hpre]
    -- what is left of the later calls does to the budgets and the limit what all did
    rw [onlyKind_onBudgets.foldl_filter fun op hop => by simp [hop],
      onlyKind_onProviders.foldl_others fun op hop => of_decide_eq_true hop,
      onlyKind_onLimit.foldl_filter fun op hop => by simp [hop]]
    exact h.runtime
  · rw [hpre]
    exact h.current
  · rw [publishedBy, Machine.outputs_append, ← publishedBy, ← publishedBy,
      published_configuration hregs, List.append_nil]
    exact h.shown
  · intro a ha
    obtain rfl := Option.some.inj ha
    rw [hpre]
    refine ⟨hpol, hbudgets, [], ?_, ?_⟩
    · rw [h.runtime]
      rfl
    · rw [List.map_nil, List.nil_append, hnames]
      rw [h.runtime]

/-- The refresh polls one more provider. -/
theorem poll {nowMs : UInt64} {pol : PressurePolicy F} {budgets : Budgets} {log log' : PollLog F}
    {name : String} {names : List String} {outcome : SampleOutcome F}
    (h : Explained rt calls snaps done
      (some (.poll nowMs pol budgets log (name :: names) : Action F C)))
    (hone : pollOne nowMs log { name := name, outcome := outcome } = .ok log') :
    Explained rt calls snaps done (some (.poll nowMs pol budgets log' names : Action F C)) := by
  obtain ⟨pre, post, h⟩ := h
  obtain ⟨hpol, hbudgets, polls, hpolls, hnames⟩ := h.loaded _ rfl
  refine ⟨pre, post, { h with loaded := ?_ }⟩
  intro a ha
  obtain rfl := Option.some.inj ha
  refine ⟨hpol, hbudgets, polls ++ [{ name := name, outcome := outcome }], ?_, ?_⟩
  · rw [pollAll_concat hpolls, pollAll, hone]
    rfl
  · rw [List.map_append, List.append_assoc]
    exact hnames

/-- All providers are polled. -/
theorem polled {nowMs : UInt64} {pol : PressurePolicy F} {budgets : Budgets} {log : PollLog F}
    (h : Explained rt calls snaps done (some (.poll nowMs pol budgets log [] : Action F C))) :
    Explained rt calls snaps done (some (.interpret nowMs pol budgets log : Action F C)) := by
  obtain ⟨pre, post, h⟩ := h
  refine ⟨pre, post, { h with loaded := ?_ }⟩
  intro a ha
  obtain rfl := Option.some.inj ha
  exact h.loaded (.poll nowMs pol budgets log []) rfl

/-- The observations are interpreted. -/
theorem interpret {nowMs : UInt64} {pol : PressurePolicy F} {budgets : Budgets} {log : PollLog F}
    (h : Explained rt calls snaps done (some (.interpret nowMs pol budgets log : Action F C))) :
    Explained rt calls snaps done (some (.conclude nowMs pol budgets log : Action F C)) := by
  obtain ⟨pre, post, h⟩ := h
  refine ⟨pre, post, { h with loaded := ?_ }⟩
  intro a ha
  obtain rfl := Option.some.inj ha
  exact h.loaded (.interpret nowMs pol budgets log) rfl

/-- An exception cuts the refresh short. -/
theorem escape {nowMs : UInt64} {pol : PressurePolicy F} {budgets : Budgets} {log : PollLog F}
    {name : String} {names : List String}
    (h : Explained rt calls snaps done
      (some (.poll nowMs pol budgets log (name :: names) : Action F C)))
    (hrt : rt' = { rt with
      snapshotId := rt.snapshotId + 1, eventId := rt.eventId + log.events.length }) :
    Explained rt' calls snaps (done ++ [.refresh nowMs []]) (none : Option (Action F C)) := by
  subst hrt
  obtain ⟨pre, post, h⟩ := h
  obtain ⟨-, -, polls, hpolls, hnames⟩ := h.loaded _ rfl
  obtain rfl := h.closed rfl
  -- the providers not polled any more answer nothing
  let rest : List (Poll F) := names.map fun name => { name := name, outcome := .escaped }
  let all : List (Poll F) := polls ++ { name := name, outcome := .escaped } :: rest
  have hrest : rest.map Poll.name = names := (List.map_map ..).trans (List.map_id names)
  have hcut : (runFrom PressureRuntime.init pre).refresh nowMs all
      = ((runFrom PressureRuntime.init pre).cutShort log, []) := by
    rw [PressureRuntime.refresh, PressureRuntime.refreshWith, pollAll_concat hpolls]
    rfl
  have hlegal : Legal (runFrom PressureRuntime.init pre) (.refresh nowMs all) := by
    show ((all.map Poll.name : List String) : Multiset String) = _
    rw [← hnames, List.map_append, List.map_cons, hrest]
  have hpre : runFrom PressureRuntime.init (pre ++ [.refresh nowMs all])
      = (runFrom PressureRuntime.init pre).cutShort log :=
    (Machine.run_append ..).trans (congrArg Prod.fst hcut)
  refine ⟨pre ++ [.refresh nowMs all], post, { h with
    legal := (Machine.along_append step).mpr ⟨h.legal, hlegal, trivial⟩
    order := order_core pre post h.config rfl h.order
    runtime := ?_, current := ?_, shown := ?_, closed := ?_, loaded := ?_ }⟩
  · rw [hpre]
    rw [h.runtime]
    rfl
  · rw [hpre]
    exact h.current
  · rw [publishedBy, Machine.outputs_append, ← publishedBy, ← publishedBy]
    have hquiet : publishedBy (runFrom PressureRuntime.init pre) [.refresh nowMs all] = [] := by
      rw [publishedBy, Machine.outputs_cons, Machine.outputs_nil, List.append_nil]
      exact congrArg Prod.snd hcut
    rw [hquiet, List.append_nil]
    exact h.shown
  · exact fun _ => rfl
  · intro a ha
    cases ha

/-- **The refresh concludes** as a refresh of the sequential run would. -/
theorem conclude {nowMs : UInt64} {pol : PressurePolicy F} {budgets : Budgets} {log : PollLog F}
    (h : Explained rt calls snaps done (some (.conclude nowMs pol budgets log : Action F C)))
    (hrt : rt' = { rt with
      domainStates := (PressureRuntime.swept pol budgets rt nowMs log).domainStates
      generation := PressureRuntime.newGeneration pol budgets rt nowMs log
      snapshotId := rt.snapshotId + 1
      eventId :=
        rt.eventId + (PressureRuntime.published pol budgets rt nowMs log).events.length }) :
    Explained rt' calls snaps (done ++ [.refresh nowMs []])
      (some (.publish (PressureRuntime.published pol budgets rt nowMs log).snapshot :
          Action F C)) := by
  subst hrt
  obtain ⟨pre, post, h⟩ := h
  obtain ⟨rfl, rfl, polls, hpolls, hnames⟩ := h.loaded (.conclude nowMs pol budgets log) rfl
  obtain rfl := h.closed rfl
  -- the refresh sees of the runtime what the sequential run has before it
  obtain ⟨start, hstart⟩ :
      ∃ start, start = runFrom (PressureRuntime.init : PressureRuntime F) pre :=
    ⟨_, rfl⟩
  have hcurrent := h.current
  have hruntime := h.runtime
  rw [← hstart] at hpolls hnames hcurrent hruntime ⊢
  replace hcurrent : rt.currentSnapshot = start.currentSnapshot := hcurrent.symm
  rw [hcurrent] at hruntime
  generalize rt.history = hist at hruntime
  generalize rt.stats = stats at hruntime
  have hrefresh : start.refresh nowMs polls
      = (PressureRuntime.refreshed start.policy start.budgets start nowMs log,
        [PressureRuntime.published start.policy start.budgets start nowMs log]) := by
    rw [PressureRuntime.refresh, PressureRuntime.refreshWith, hpolls]
  have hlegal : Legal (runFrom PressureRuntime.init pre) (.refresh nowMs polls) := by
    rw [List.append_nil] at hnames
    exact hstart ▸ hnames
  have hpre : runFrom PressureRuntime.init (pre ++ [.refresh nowMs polls])
      = PressureRuntime.refreshed start.policy start.budgets start nowMs log :=
    (Machine.run_append ..).trans
      ((congrArg (fun rt => (step rt (.refresh nowMs polls)).1) hstart.symm).trans
        (congrArg Prod.fst hrefresh))
  refine ⟨pre ++ [.refresh nowMs polls], post, { h with
    legal := (Machine.along_append step).mpr ⟨h.legal, hlegal, trivial⟩
    order := order_core pre post h.config rfl h.order
    runtime := ?_, current := ?_, shown := ?_, closed := fun _ => rfl, loaded := ?_ }⟩
  · rw [hpre, hruntime]
    rfl
  · rw [hpre, hruntime]
    rfl
  · rw [publishedBy, Machine.outputs_append, ← publishedBy, List.map_append, h.shown, ← runFrom,
      ← hstart, Machine.outputs_cons, Machine.outputs_nil, List.append_nil]
    show _ ++ List.map _ (start.refresh nowMs polls).2 = _
    rw [hrefresh, hruntime]
    simp [Action.toPublish]
    rfl
  · intro a ha
    obtain rfl := Option.some.inj ha
    trivial

/-- The snapshot is published. -/
theorem publish {snap : Snapshot F} (h : Explained rt calls snaps done
      (some (.publish snap : Action F C)))
    (hrt : rt' = { rt with currentSnapshot := snap, history := rt'.history }) :
    Explained rt' calls (snaps ++ [snap]) done (none : Option (Action F C)) := by
  generalize rt'.history = hist at hrt
  subst hrt
  obtain ⟨pre, post, h⟩ := h
  refine ⟨pre, post,
    { h with runtime := ?_, current := ?_, shown := ?_, closed := ?_, loaded := ?_ }⟩
  · rw [h.runtime]
  · exact h.current
  · rw [h.shown]
    exact (List.append_nil _).symm
  · exact fun hs => by cases hs
  · intro a ha
    cases ha

/-- A call of `set_policy` rebuilds the debounce machines. -/
theorem rebuild (h : Explained rt [] snaps done (none : Option (Action F C))) (t : Nat)
    (cfg : HysteresisConfig F) (hrt : rt' = { rt with
      domainStates := Keyed.mapVal
        (fun st => { st with hysteresis := HysteresisState.new cfg }) rt.domainStates }) :
    Explained rt' [(t, cfg)] snaps done (none : Option (Action F C)) := by
  subst hrt
  obtain ⟨pre, post, h⟩ := h
  refine ⟨pre, post,
    { h with runtime := ?_, single := Nat.le_refl 1, closed := fun hs => by cases hs }⟩
  rw [h.runtime]
  rfl

/-- **A call of `set_policy` takes effect** with its store. -/
theorem store {t : Nat} {p : PressurePolicy F}
    (h : Explained rt [(t, p.hysteresis)] snaps done (none : Option (Action F C)))
    (hp : validatePolicy p = none) :
    Explained { rt with policy := p } [] snaps (done ++ [.setPolicy p])
      (none : Option (Action F C)) := by
  obtain ⟨pre, post, h⟩ := h
  have hrun := run_configuration h.config (runFrom PressureRuntime.init pre)
  have hset : ∀ rt : PressureRuntime F, (step rt (.setPolicy p)).1 = rt.setPolicy p := fun _ => rfl
  have hpre : runFrom PressureRuntime.init (pre ++ post ++ [.setPolicy p]) = _ :=
    (Machine.run_append ..).trans ((congrArg (fun rt => (step rt (.setPolicy p)).1)
      ((Machine.run_append ..).trans hrun)).trans ((hset _).trans (if_neg (by simp [hp]))))
  have hlegal : Machine.Along step Legal PressureRuntime.init (pre ++ post ++ [.setPolicy p]) :=
    (Machine.along_append step).mpr
      ⟨(Machine.along_append step).mpr ⟨h.legal, legal_configuration h.config _⟩, trivial, trivial⟩
  refine ⟨pre ++ post ++ [.setPolicy p], [], { h with
    legal := hlegal
    config := fun _ ho => by cases ho
    order := fun k => ?_, runtime := ?_, current := ?_, shown := ?_
    single := Nat.zero_le 1, closed := fun _ => rfl, loaded := fun _ ha => by cases ha }⟩
  · have hdone : ∀ k, ((pre ++ post ++ []).filter fun op : Op F => op.kind = k).map Op.unpolled
        = done.filter fun op => op.kind = k := by simpa using h.order
    have hkind : (Op.setPolicy p).kind = .core := rfl
    exact order_core (pre ++ post) [] (fun _ ho => by cases ho) hkind hdone k
  · rw [hpre]
    rw [h.runtime]
    rfl
  · rw [hpre]
    exact h.current
  · rw [publishedBy, Machine.outputs_append, Machine.outputs_append, ← publishedBy, ← publishedBy,
      published_configuration h.config, List.append_nil]
    exact (congrArg _ (List.append_nil _)).trans h.shown

end Explained

/-! ## One move

A move either takes or gives back a mutex (`pass`), or performs an action, of a thread
outside of `refresh` or of the one inside. In each case the action is matched with a lemma
of `Explained`, and the places of the threads are brought up to date
(`places_update`). -/

/-- The action of the refresh in progress, if it is of this thread. -/
def atThread (mid : Option (Nat × Action F C)) (t : Nat) : Option (Action F C) :=
  mid.bind fun p => if p.1 = t then some p.2 else none

theorem atThread_self (t : Nat) (a : Action F C) : atThread (some (t, a)) t = some a := if_pos rfl

theorem atThread_of_ne {t u : Nat} (hu : u ≠ t) (a : Action F C) :
    atThread (some (t, a)) u = none := if_neg (Ne.symm hu)

theorem eq_of_atThread {mid : Option (Nat × Action F C)} {t : Nat} {a : Action F C}
    (h : atThread mid t = some a) : mid = some (t, a) := by
  obtain ⟨p, hp, hq⟩ := Option.bind_eq_some_iff.mp h
  split_ifs at hq with heq
  obtain rfl := Option.some.inj hq
  rw [hp, ← heq]

/-- The refresh in progress, if any, is of the thread that holds `refresh_mutex_`,
and a sequential run explains the schedule. -/
structure Serialized (s : System F C) (out : List (Nat × Note F C)) (done : List (Op F))
    (mid : Option (Nat × Action F C)) : Prop where
  places : ∀ t, Midway (s.code t) (atThread mid t)
  owner : ∀ p ∈ mid, s.owner .refresh = some p.1
  explained : Explained s.data.rt (openCalls out) (snapshotsPublished out) done (mid.map Prod.snd)

/-- The action starts on the policy in force: a refresh loads it, or a call of
`set_policy` rebuilds. -/
def Action.startsOnPolicy : Action F C → Bool
  | .loadPolicy _ | .rebuild _ => true
  | _ => false

/-- No refresh loads the policy, and no other call rebuilds, while a call of
`set_policy` is between its rebuild and its store. -/
def Uninterrupted (x : System F C × List (Nat × Note F C)) (move : Nat × Choice F C) : Prop :=
  ∀ a ∈ Threads.nextAct (x.1.code move.1), a.startsOnPolicy = true → openCalls x.2 = []

namespace Serialized

variable {s : System F C} {out : List (Nat × Note F C)} {done : List (Op F)}
  {mid : Option (Nat × Action F C)} {t : Nat}

/-- Nobody else is in `refresh` while a thread that is not holds its mutex. -/
theorem none_of_owner (h : Serialized s out done mid) (howner : s.owner .refresh = some t)
    (hnot : atThread mid t = none) : mid = none := by
  cases mid with
  | none => rfl
  | some p =>
    have hp := h.owner p rfl
    rw [howner] at hp
    obtain ⟨u, a⟩ := p
    obtain rfl : t = u := Option.some.inj hp
    rw [atThread_self] at hnot
    cases hnot

/-- A move that changes the code of one thread. -/
theorem places_update (h : Serialized s out done mid) {m : Option (Nat × Action F C)}
    {c : Code F C} (hmine : Midway c (atThread m t))
    (hother : ∀ u ≠ t, atThread m u = atThread mid u) (u : Nat) :
    Midway (Function.update s.code t c u) (atThread m u) := by
  by_cases hu : u = t
  · rw [hu, Function.update_self]
    exact hmine
  · rw [Function.update_of_ne hu, hother u hu]
    exact h.places u

variable {a : Action F C} {c new : Code F C} {i : Choice F C} {d : Shared F C}
  {notes : List (Note F C)}

/-- Notes that say nothing of policies and snapshots. -/
theorem quiet_notes
    (hnotes : ∀ note ∈ notes, note.setsPolicy = false ∧ note.publishedSnapshot = none)
    (t : Nat) (out : List (Nat × Note F C)) :
    openCalls (out ++ notes.map fun note => (t, note)) = openCalls out ∧
      snapshotsPublished (out ++ notes.map fun note => (t, note)) = snapshotsPublished out := by
  constructor
  · rw [openCalls_append, noteCalls_of_not_setsPolicy fun note hn => (hnotes note hn).1]
  · rw [snapshotsPublished_append]
    refine List.append_right_eq_self.mpr (List.filterMap_eq_nil_iff.mpr ?_)
    intro note hnote
    obtain ⟨n, hn, rfl⟩ := List.mem_map.mp hnote
    exact (hnotes n hn).2

/-- An action with which nothing takes effect moves a thread within its place. -/
theorem idle (h : Serialized s out done mid) (hexec : a.exec i s.data = some (d, new, notes))
    (heffect : a.effect i = none) (ha : a.isIdle = true) {mid' : Option (Nat × Action F C)}
    (hmid : mid'.map Prod.fst = mid.map Prod.fst)
    (hexplained : Explained s.data.rt (openCalls out) (snapshotsPublished out) done
      (mid'.map Prod.snd))
    (hmine : Midway (new ++ c) (atThread mid' t))
    (hother : ∀ u ≠ t, atThread mid' u = atThread mid u) :
    Serialized ⟨d, s.owner, Function.update s.code t (new ++ c)⟩
      (out ++ notes.map fun note => (t, note)) done mid' := by
  obtain ⟨hrt, hnotes⟩ := Action.exec_idle hexec heffect ha
  obtain ⟨hopen, hshown⟩ := quiet_notes hnotes t out
  refine ⟨h.places_update hmine hother, fun p hp => ?_, ?_⟩
  · have hthread : p.1 ∈ mid.map Prod.fst := by
      rw [← hmid]
      exact Option.mem_map_of_mem _ hp
    obtain ⟨q, hq, heq⟩ := Option.mem_map.mp hthread
    rw [← heq]
    exact h.owner q hq
  · rw [hopen, hshown]
    exact hexplained.count hrt

/-- A thread that performs an action of `refresh` or rebuilds holds
`refresh_mutex_`. -/
theorem owner_of_held (hord : Ordered (s, out)) (hc : s.code t = .act a :: c)
    (hheld : Mutex.refresh ∈ Threads.held Action.owes (.act a :: c)) :
    s.owner .refresh = some t :=
  (hord.sound.owner t .refresh).mp (by
    show Mutex.refresh ∈ Threads.held _ (s.code t)
    rwa [hc])

/-- Performed by thread `t` before the rest `c` of its code, the action leaves the
schedule serialized, with what takes effect by it appended. -/
def Kept (s : System F C) (out : List (Nat × Note F C)) (done : List (Op F)) (t : Nat)
    (a : Action F C) (i : Choice F C) (c : Code F C) : Prop :=
  ∀ d new notes, a.exec i s.data = some (d, new, notes) →
    ∃ mid, Serialized ⟨d, s.owner, Function.update s.code t (new ++ c)⟩
      (out ++ notes.map fun note => (t, note)) (done ++ (a.effect i).toList) mid

/-! ### A move outside of `refresh`, case by case -/

/-- A thread outside of `refresh` stays there. -/
theorem outside_places (h : Serialized s out done mid) (hmid : atThread mid t = none)
    (hnew : Outside new) (hout : Outside c) (u : Nat) :
    Midway (Function.update s.code t (new ++ c) u) (atThread mid u) := by
  refine h.places_update ?_ (fun _ _ => rfl) u
  rw [hmid]
  exact .outside (hnew.append hout)

/-- Nothing takes effect. -/
theorem outside_idle (h : Serialized s out done mid) (hmid : atThread mid t = none)
    (ha : a.midway = false) (hload : ∀ nowMs, a ≠ .loadPolicy nowMs) (hidle : a.isIdle = true)
    (heffect : a.effect i = none) (hout : Outside c) : Kept s out done t a i c := by
  intro d new notes hexec
  rw [heffect, Option.toList_none, List.append_nil]
  refine ⟨mid, h.idle hexec heffect hidle rfl h.explained ?_ fun _ _ => rfl⟩
  rw [hmid]
  exact .outside (((Action.exec_expands hexec).outside ha hload).append hout)

/-- A refresh loads the policy: from here on it is in progress. -/
theorem outside_load (h : Serialized s out done mid) (hmid : atThread mid t = none)
    (howner : s.owner .refresh = some t) (hopen : openCalls out = []) (hout : Outside c)
    (nowMs : UInt64) : Kept s out done t (.loadPolicy nowMs) i c := by
  intro d new notes hexec
  obtain rfl := h.none_of_owner howner hmid
  obtain ⟨rfl, rfl, rfl⟩ := by simpa [Action.exec] using hexec
  refine ⟨some (t, .copyBudgets nowMs s.data.rt.policy), ?_, ?_, ?_⟩
  · refine h.places_update ?_ fun u hu => ?_
    · rw [atThread_self]
      have hfront : ∀ i ∈ ([.lock .config] : Code F C), isAside i = true :=
        List.forall_mem_singleton.mpr rfl
      exact .inside _ rfl hfront hout
    · rw [atThread_of_ne hu]
      rfl
  · rintro p hp
    obtain rfl := Option.some.inj hp
    exact howner
  · have hexplained := h.explained
    rw [hopen] at hexplained
    simp only [List.map_nil, List.append_nil, hopen, Action.effect, Option.toList_none]
    exact hexplained.load nowMs

/-- A call of `set_policy` rebuilds: from here on it is open. -/
theorem outside_rebuild (h : Serialized s out done mid) (hmid : atThread mid t = none)
    (howner : s.owner .refresh = some t) (hopen : openCalls out = []) (hout : Outside c)
    (p : PressurePolicy F) : Kept s out done t (.rebuild p) i c := by
  intro d new notes hexec
  obtain rfl := h.none_of_owner howner hmid
  obtain ⟨rfl, rfl, rfl⟩ := by simpa [Action.exec] using hexec
  refine ⟨none, h.outside_places hmid (fun _ hb => by cases hb) hout, fun p hp => (by cases hp), ?_⟩
  have hexplained := h.explained
  rw [hopen] at hexplained
  have hcalls : openCalls (out ++ [(t, Note.rebuilt p.hysteresis)]) = [(t, p.hysteresis)] := by
    rw [openCalls_append, hopen]
    rfl
  have hshown : snapshotsPublished (out ++ [(t, Note.rebuilt p.hysteresis)])
      = snapshotsPublished out := by
    rw [snapshotsPublished_append]
    exact List.append_nil _
  show Explained _ (openCalls (out ++ [(t, Note.rebuilt p.hysteresis)]))
    (snapshotsPublished (out ++ [(t, Note.rebuilt p.hysteresis)])) (done ++ []) none
  rw [hcalls, hshown, List.append_nil]
  exact hexplained.rebuild t p.hysteresis rfl

/-- While a call of `set_policy` is open, no other one is, and no refresh is in
progress. -/
theorem alone_of_open (h : Serialized s out done mid) {call : Nat × HysteresisConfig F}
    (hin : call ∈ openCalls out) : openCalls out = [call] ∧ mid = none := by
  obtain ⟨pre, post, hseq⟩ := h.explained
  constructor
  · obtain ⟨call', hcall⟩ : ∃ call', openCalls out = [call'] :=
      List.length_eq_one_iff.mp (Nat.le_antisymm hseq.single (List.length_pos_of_mem hin))
    rw [hcall] at hin ⊢
    rw [List.mem_singleton.mp hin]
  · cases mid with
    | none => rfl
    | some p =>
      rw [hseq.closed rfl] at hin
      cases hin

/-- A call of `set_policy` stores: it takes effect, and is open no more. -/
theorem outside_store (h : Serialized s out done mid) (hmid : atThread mid t = none)
    {p : PressurePolicy F} (hin : (t, p.hysteresis) ∈ openCalls out)
    (hvalid : validatePolicy p = none) (hout : Outside c) :
    Kept s out done t (.storePolicy p) i c := by
  intro d new notes hexec
  obtain ⟨hopen, rfl⟩ := h.alone_of_open hin
  obtain ⟨rfl, rfl, rfl⟩ := by simpa [Action.exec] using hexec
  refine ⟨none, h.outside_places hmid (fun _ hb => by cases hb) hout, fun p hp => (by cases hp), ?_⟩
  have hexplained := h.explained
  rw [hopen] at hexplained
  have hcalls : openCalls (out ++ [(t, Note.stored p.hysteresis)]) = [] := by
    rw [openCalls_append, hopen]
    show ([(t, p.hysteresis)].filter fun call => call.1 ≠ t) = []
    simp
  have hshown : snapshotsPublished (out ++ [(t, Note.stored p.hysteresis)])
      = snapshotsPublished out := by
    rw [snapshotsPublished_append]
    exact List.append_nil _
  show Explained _ (openCalls (out ++ [(t, Note.stored p.hysteresis)]))
    (snapshotsPublished (out ++ [(t, Note.stored p.hysteresis)])) (done ++ [.setPolicy p]) none
  rw [hcalls, hshown]
  exact hexplained.store hvalid

/-- A call with one scope takes effect in it, if it is about the configuration. -/
theorem outside_apply (h : Serialized s out done mid) (hmid : atThread mid t = none)
    (hout : Outside c) (call : Call F C) : Kept s out done t (.apply call) i c := by
  cases hop : call.op with
  | none => exact h.outside_idle hmid rfl (fun _ heq => by cases heq) rfl hop hout
  | some op =>
    intro d new notes hexec
    have hcore : op.kind ≠ .core := by
      cases call <;> cases hop <;> exact fun heq => by cases heq
    obtain ⟨rfl, rfl, rfl⟩ := by simpa [Action.exec] using hexec
    refine ⟨mid, h.outside_places hmid (fun _ hb => by cases hb) hout, h.owner, ?_⟩
    simp only [List.map_nil, List.append_nil, Action.effect, hop, Option.toList_some]
    show Explained (s.data.apply call).rt _ _ _ _
    rw [apply_runtime, hop]
    exact h.explained.configure hcore

/-- **A move outside of `refresh` in progress.** -/
theorem outside_step (h : Serialized s out done mid) (hord : Ordered (s, out))
    (hstage : Stage t (s.code t) ((openCalls out).filter fun call => call.1 = t))
    (hchecked : PoliciesChecked (s.code t)) (hc : s.code t = .act a :: c)
    (hmid : atThread mid t = none) (ha : a.midway = false) (hout : Outside c)
    (hmove : a.startsOnPolicy = true → openCalls out = []) : Kept s out done t a i c := by
  cases a with
  | loadPolicy nowMs =>
    -- the thread is in the scope of `refresh_mutex_`, so nobody else is
    have howner : s.owner .refresh = some t := owner_of_held hord hc (by
      have hfit := hord.fits t
      change Threads.AllFit Action.owes UnderRefresh [] (s.code t) at hfit
      rw [hc] at hfit
      have hheld := hfit.1 rfl
      rwa [List.append_nil] at hheld)
    exact h.outside_load hmid howner (hmove rfl) hout nowMs
  | rebuild p =>
    have howner : s.owner .refresh = some t := by
      rw [hc] at hstage
      generalize (openCalls out).filter (fun call => call.1 = t) = calls at hstage
      cases hstage with
      | outside hset => cases hset _ List.mem_cons_self
      | entered _ _ => exact owner_of_held hord hc List.mem_cons_self
    exact h.outside_rebuild hmid howner (hmove rfl) hout p
  | storePolicy p =>
    have hmine : (openCalls out).filter (fun call => call.1 = t) = [(t, p.hysteresis)] := by
      rw [hc] at hstage
      generalize (openCalls out).filter (fun call => call.1 = t) = calls at hstage
      cases hstage with
      | outside hset => cases hset _ List.mem_cons_self
      | storing => rfl
    have hin : (t, p.hysteresis) ∈ openCalls out :=
      (List.mem_filter.mp (hmine ▸ List.mem_singleton_self _)).1
    have hvalid : validatePolicy p = none := by
      refine hchecked (.storePolicy p) ?_ p rfl
      rw [hc]
      exact List.mem_cons_self
    exact h.outside_store hmid hin hvalid hout
  | apply call => exact h.outside_apply hmid hout call
  | publish | conclude | poll | interpret | copyBudgets | copyProviders => cases ha
  | _ => exact h.outside_idle hmid ha (fun _ heq => by cases heq) rfl rfl hout

/-! ### A move in `refresh` -/

/-- **A move between two actions of `refresh`.** -/
theorem aside_step (h : Serialized s out done mid) (hexec : a.exec i s.data = some (d, new, notes))
    (haside : isAside (.act a : Instr Mutex (Action F C)) = true)
    (hrest : Midway c (atThread mid t)) :
    Serialized ⟨d, s.owner, Function.update s.code t (new ++ c)⟩
      (out ++ notes.map fun note => (t, note)) (done ++ (a.effect i).toList) mid := by
  have hidle : new = [] → a.effect i = none → a.isIdle = true →
      Serialized ⟨d, s.owner, Function.update s.code t (new ++ c)⟩
        (out ++ notes.map fun note => (t, note)) (done ++ (a.effect i).toList) mid := by
    rintro rfl heffect hidle
    rw [heffect]
    simp only [Option.toList_none, List.append_nil]
    exact h.idle hexec heffect hidle rfl h.explained hrest fun _ _ => rfl
  cases a with
  | countFailure | countTransition | countGeneration | countRequest | look =>
    obtain ⟨-, rfl, -⟩ := by simpa [Action.exec] using hexec
    exact hidle rfl rfl rfl
  | _ => cases haside

/-- The scopes between interpretation and conclusion. -/
theorem interpretCode_aside (transitions : Nat) (next : Action F C) :
    ∃ front : Code F C, interpretCode transitions next = front ++ [.act next] ∧
      ∀ i ∈ front, isAside i = true := by
  refine ⟨_, rfl, ?_⟩
  intro i hi
  rcases List.mem_append.mp hi with hi | hi
  · obtain ⟨code, hcode, hi⟩ := List.mem_flatten.mp hi
    rw [List.eq_of_mem_replicate hcode] at hi
    rcases (by simpa [guarded] using hi : _ ∨ _ ∨ _) with rfl | rfl | rfl <;> rfl
  · rcases (by simpa [guarded] using hi : _ ∨ _ ∨ _) with rfl | rfl | rfl <;> rfl

/-- The scopes between conclusion and publication, and what is left after it. -/
theorem concludeCode_aside (changed : Bool) (pub : Published F) (observations : Nat) :
    ∃ front rest : Code F C,
      concludeCode changed pub observations = front ++ .act (.publish pub.snapshot) :: rest ∧
        (∀ i ∈ front, isAside i = true) ∧ Outside rest := by
  refine ⟨(if changed then guarded .stats .countGeneration else [])
      ++ (pub.events.filter fun e => e.type.isRequest).flatMap
        (fun e => guarded .stats (.countRequest e.type)) ++ [.lock .current],
    .unlock .current :: (guarded .stats (.countSnapshot observations)
      ++ [.act (.deliver pub.events)]), ?_, ?_, ?_⟩
  · simp [concludeCode, guarded]
  · intro i hi
    rcases List.mem_append.mp hi with hi | hi
    · rcases List.mem_append.mp hi with hi | hi
      · split_ifs at hi
        · rcases (by simpa [guarded] using hi : _ ∨ _ ∨ _) with rfl | rfl | rfl <;> rfl
        · cases hi
      · obtain ⟨e, -, hi⟩ := List.mem_flatMap.mp hi
        rcases (by simpa [guarded] using hi : _ ∨ _ ∨ _) with rfl | rfl | rfl <;> rfl
    · rw [List.mem_singleton.mp hi]
      rfl
  · intro b hb
    rcases (by simpa [guarded] using hb : _ ∨ _) with rfl | rfl <;> rfl

/-- The refresh goes on to its next action. -/
theorem advance (h : Serialized s out done (some (t, a)))
    (hexec : a.exec i s.data = some (d, new, notes)) (heffect : a.effect i = none)
    (ha : a.isIdle = true) (hout : Outside c) (front : Code F C) {b : Action F C}
    (hnew : new = front ++ [.act b]) (hb : b.midway = true)
    (hfront : ∀ i ∈ front, isAside i = true)
    (hexplained : Explained s.data.rt (openCalls out) (snapshotsPublished out) done (some b)) :
    Serialized ⟨d, s.owner, Function.update s.code t (new ++ c)⟩
      (out ++ notes.map fun note => (t, note)) (done ++ (a.effect i).toList) (some (t, b)) := by
  rw [heffect]
  simp only [Option.toList_none, List.append_nil]
  refine h.idle hexec heffect ha rfl hexplained ?_ fun u hu => ?_
  · rw [atThread_self, hnew, List.append_assoc]
    exact .inside b hb hfront hout
  · rw [atThread_of_ne hu, atThread_of_ne hu]

/-- The thread leaves `refresh`. -/
theorem leaves (h : Serialized s out done (some (t, a))) (hnew : Outside new) (hout : Outside c)
    (u : Nat) : Midway (Function.update s.code t (new ++ c) u) (atThread none u) := by
  refine h.places_update (m := none) (.outside (hnew.append hout)) (fun v hv => ?_) u
  rw [atThread_of_ne hv]
  rfl

/-- The refresh polls a provider: it goes on to the next, or an exception makes it
leave. -/
theorem inside_poll {nowMs : UInt64} {pol : PressurePolicy F} {budgets : Budgets}
    {log : PollLog F} {name : String} {names : List String}
    (h : Serialized s out done (some (t, .poll nowMs pol budgets log (name :: names))))
    (hout : Outside c) (outcome : SampleOutcome F) :
    Kept s out done t (.poll nowMs pol budgets log (name :: names)) (.sampled outcome) c := by
  intro d new notes hexec
  cases hone : pollOne nowMs log { name := name, outcome := outcome } with
  | ok log' =>
    have hnew := hexec
    simp only [Action.exec, hone] at hnew
    obtain ⟨-, rfl, -⟩ := by simpa using hnew
    have heffect : (Action.poll nowMs pol budgets log (name :: names) : Action F C).effect
        (.sampled outcome) = none := by
      cases outcome with
      | escaped => cases hone
      | _ => rfl
    refine ⟨_, h.advance hexec heffect rfl hout _ rfl rfl ?_ (h.explained.poll hone)⟩
    intro j hj
    split_ifs at hj
    · rcases (by simpa [guarded] using hj : _ ∨ _ ∨ _) with rfl | rfl | rfl <;> rfl
    · cases hj
  | error log' =>
    obtain ⟨rfl, rfl⟩ : outcome = .escaped ∧ log' = log := by
      cases outcome with
      | escaped => exact ⟨rfl, (Except.error.inj hone).symm⟩
      | _ => cases hone
    simp only [Action.exec, hone] at hexec
    obtain ⟨rfl, rfl, rfl⟩ := by simpa using hexec
    refine ⟨none, h.leaves (fun _ hb => by cases hb) hout, fun p hp => (by cases hp), ?_⟩
    simp only [List.map_nil, List.append_nil]
    exact h.explained.escape rfl

/-- The refresh concludes: it is what the sequential run does next, and goes on to
publish. -/
theorem inside_conclude {nowMs : UInt64} {pol : PressurePolicy F} {budgets : Budgets}
    {log : PollLog F} (h : Serialized s out done (some (t, .conclude nowMs pol budgets log)))
    (hout : Outside c) : Kept s out done t (.conclude nowMs pol budgets log) i c := by
  intro d new notes hexec
  obtain ⟨rfl, rfl, rfl⟩ := by simpa [Action.exec] using hexec
  obtain ⟨front, rest, hcode, hfront, hrest⟩ := concludeCode_aside (F := F) (C := C)
    (PressureRuntime.changed pol budgets s.data.rt nowMs log)
    (PressureRuntime.published pol budgets s.data.rt nowMs log) log.sightings.length
  refine ⟨some (t, .publish (PressureRuntime.published pol budgets s.data.rt nowMs log).snapshot),
    h.places_update ?_ fun u hu => ?_, fun p hp => ?_, ?_⟩
  · rw [atThread_self, hcode, List.append_assoc]
    exact .inside _ rfl hfront (hrest.append hout)
  · rw [atThread_of_ne hu, atThread_of_ne hu]
  · obtain rfl := Option.some.inj hp
    have howner := h.owner (t, .conclude nowMs pol budgets log) rfl
    exact howner
  · simp only [List.map_nil, List.append_nil]
    exact h.explained.conclude rfl

/-- The refresh publishes, and leaves. -/
theorem inside_publish {snap : Snapshot F} (h : Serialized s out done (some (t, .publish snap)))
    (hout : Outside c) : Kept s out done t (.publish snap) i c := by
  intro d new notes hexec
  obtain ⟨rfl, rfl, rfl⟩ := by simpa [Action.exec] using hexec
  refine ⟨none, h.leaves (fun _ hb => by cases hb) hout, fun p hp => (by cases hp), ?_⟩
  have hopen : openCalls (out ++ [(t, Note.published snap)]) = openCalls out := by
    rw [openCalls_append]
    rfl
  have hshown : snapshotsPublished (out ++ [(t, Note.published snap)])
      = snapshotsPublished out ++ [snap] := snapshotsPublished_append ..
  show Explained _ (openCalls (out ++ [(t, Note.published snap)]))
    (snapshotsPublished (out ++ [(t, Note.published snap)])) (done ++ []) none
  rw [hopen, hshown, List.append_nil]
  exact h.explained.publish rfl

/-- **A move of the refresh in progress.** -/
theorem inside_step (h : Serialized s out done (some (t, a))) (ha : a.midway = true)
    (hout : Outside c) : Kept s out done t a i c := by
  cases a with
  | copyBudgets nowMs pol =>
    intro d new notes hexec
    have hnew := hexec
    obtain ⟨-, rfl, -⟩ := by simpa [Action.exec] using hnew
    refine ⟨_, h.advance hexec rfl rfl hout [.unlock .config, .lock .registry] rfl rfl
      ?_ h.explained.copyBudgets⟩
    simp [isAside]
  | copyProviders nowMs pol budgets =>
    intro d new notes hexec
    cases i with
    | order names =>
      have hnew := hexec
      simp only [Action.exec] at hnew
      split_ifs at hnew with hnames
      obtain ⟨-, rfl, -⟩ := by simpa using hnew
      refine ⟨_, h.advance hexec rfl rfl hout [.unlock .registry] rfl rfl ?_
        (h.explained.copyProviders hnames)⟩
      exact List.forall_mem_singleton.mpr rfl
    | _ => cases hexec
  | poll nowMs pol budgets log names =>
    cases names with
    | nil =>
      intro d new notes hexec
      have hnew := hexec
      obtain ⟨-, rfl, -⟩ := by simpa [Action.exec] using hnew
      exact ⟨_, h.advance hexec rfl rfl hout [] rfl rfl (fun _ hi => by cases hi)
        h.explained.polled⟩
    | cons name names =>
      cases i with
      | sampled outcome => exact h.inside_poll hout outcome
      | _ =>
        intro d new notes hexec
        cases hexec
  | interpret nowMs pol budgets log =>
    intro d new notes hexec
    obtain ⟨front, hcode, hfront⟩ := interpretCode_aside (F := F) (C := C)
      ((PressureRuntime.interpreted pol budgets s.data.rt nowMs log).2.countP
        fun ds => ds.level ≠ ds.previousLevel) (.conclude nowMs pol budgets log)
    have hnew := hexec
    simp only [Action.exec, Option.some.injEq, Prod.mk.injEq] at hnew
    obtain ⟨-, rfl, -⟩ := hnew
    exact ⟨_, h.advance hexec rfl rfl hout _ hcode rfl hfront h.explained.interpret⟩
  | conclude nowMs pol budgets log => exact h.inside_conclude hout
  | publish snap => exact h.inside_publish hout
  | _ => cases ha

/-- A mutex changes hands. -/
theorem pass (h : Serialized s out done mid) {m : Mutex} {owner : Option Nat}
    (hrest : Midway c (atThread mid t))
    (howner : ∀ p ∈ mid, Mutex.refresh ≠ m) :
    Serialized ⟨s.data, Function.update s.owner m owner, Function.update s.code t c⟩ out done mid :=
  ⟨h.places_update hrest fun _ _ => rfl,
    fun p hp => (Function.update_of_ne (howner p hp) ..).trans (h.owner p hp), h.explained⟩

/-- **One move** keeps the schedule explained. -/
theorem step (h : Serialized s out done mid) (hord : Ordered (s, out))
    (hstage : ∀ t, Stage t (s.code t) ((openCalls out).filter fun call => call.1 = t))
    (hchecked : ∀ t, PoliciesChecked (s.code t)) {move : Nat × Choice F C}
    (hmove : Uninterrupted (s, out) move) :
    ∃ mid', Serialized (Threads.step program s move).1 (out ++ (Threads.step program s move).2)
      (done ++ effectsOf s move) mid' := by
  obtain ⟨t, i⟩ := move
  have hplace := h.places t
  -- a thread that has to wait, or cannot perform its action
  have hstuck : Threads.step program s (t, i) = (s, []) → effectsOf s (t, i) = [] →
      ∃ mid', Serialized (Threads.step program s (t, i)).1
        (out ++ (Threads.step program s (t, i)).2) (done ++ effectsOf s (t, i)) mid' := by
    intro heq heffect
    rw [heq, heffect, List.append_nil, List.append_nil]
    exact ⟨mid, h⟩
  cases hc : s.code t with
  | nil => exact hstuck (by simp only [Threads.step, hc]) (by simp [effectsOf, hc, Threads.nextAct])
  | cons instr c =>
    rw [hc] at hplace
    have hnone : (∀ a, instr ≠ .act a) → effectsOf s (t, i) = [] := by
      intro hi
      cases instr with
      | act a => exact absurd rfl (hi a)
      | _ => simp [effectsOf, hc, Threads.nextAct]
    cases instr with
    | lock m =>
      have hact : ∀ a, (.lock m : Instr Mutex (Action F C)) ≠ .act a := fun _ heq => by cases heq
      cases howner : s.owner m with
      | some u => exact hstuck (by simp only [Threads.step, hc, howner]) (hnone hact)
      | none =>
        rw [Threads.step_lock program hc howner, hnone hact, List.append_nil, List.append_nil]
        refine ⟨mid, h.pass (hplace.tail hact).1 fun p hp hm => ?_⟩
        rw [← hm, h.owner p hp] at howner
        cases howner
    | unlock m =>
      have hact : ∀ a, (.unlock m : Instr Mutex (Action F C)) ≠ .act a := fun _ heq => by cases heq
      rw [Threads.step_unlock program hc, hnone hact, List.append_nil, List.append_nil]
      obtain ⟨hrest, haside⟩ := hplace.tail hact
      refine ⟨mid, h.pass hrest fun p hp hm => ?_⟩
      -- the refresh in progress is of the thread that unlocks, which is not out of it yet
      have hmine : s.owner m = some t := (hord.sound.owner t m).mp (by
        show m ∈ Threads.held _ (s.code t)
        rw [hc]
        exact List.mem_cons_self)
      rw [← hm, h.owner p hp] at hmine
      have hat : atThread mid t = some p.2 := by
        rw [Option.mem_def.mp hp, ← Option.some.inj hmine]
        exact atThread_self ..
      have hb := haside (by rw [hat]; rfl)
      rw [← hm] at hb
      cases hb
    | act a =>
      have heffect : effectsOf s (t, i) = (a.effect i).toList := by
        simp [effectsOf, hc, Threads.nextAct]
      cases hexec : a.exec i s.data with
      | none =>
        refine hstuck ?_ ?_
        · have hstill : program.exec a i s.data = none := hexec
          simp only [Threads.step, hc, hstill]
        · rw [heffect, Action.effect_of_stuck hexec]
          rfl
      | some result =>
        obtain ⟨d, new, notes⟩ := result
        rw [Threads.step_act program hc hexec, heffect]
        rcases hplace.act_cases with ⟨hmid, ha, hout⟩ | ⟨haside, -, hrest⟩ | ⟨hmid, ha, hout⟩
        · exact h.outside_step hord (hstage t) (hchecked t) hc hmid ha hout
            (hmove a (by simp [hc, Threads.nextAct])) d new notes hexec
        · exact ⟨mid, h.aside_step hexec haside hrest⟩
        · obtain rfl := eq_of_atThread hmid
          exact h.inside_step ha hout d new notes hexec

end Serialized

/-! ## Schedules -/

/-- Nothing has happened yet. -/
theorem serialized_quiet : Serialized (quiet ({} : Shared F C)) [] [] none where
  places := fun _ => .outside fun a ha => by
    obtain rfl := Instr.act.inj (List.mem_singleton.mp ha)
    rfl
  owner := fun p hp => by cases hp
  explained := ⟨[], [], {
    legal := trivial, config := fun _ ho => (by cases ho), order := fun _ => rfl, runtime := rfl
    current := rfl, shown := rfl, single := Nat.zero_le 1, closed := fun _ => rfl
    loaded := fun _ ha => by cases ha }⟩

/-- A sequential run explains every schedule of uninterrupted moves. -/
theorem serialized_run {moves : List (Nat × Choice F C)}
    (h : Machine.Along (Machine.traced (Threads.step program)) Uninterrupted (quiet {}, []) moves) :
    ∃ mid, Serialized (schedule moves) (noted moves) (effects moves) mid := by
  induction moves using List.reverseRecOn with
  | nil => exact ⟨none, serialized_quiet⟩
  | append_singleton moves move ih =>
    obtain ⟨hbefore, hlast⟩ := (Machine.along_append _).mp h
    rw [Machine.run_traced, List.nil_append] at hlast
    obtain ⟨mid, hmid⟩ := ih hbefore
    have hstep := hmid.step (ordered_run moves) (fun t => (stages_run moves t).1)
      (fun t => (stages_run moves t).2) hlast.1
    rw [schedule, noted, effects, effectsFrom_concat, Threads.runFrom, Machine.run_append,
      Machine.outputs_append]
    simp only [Machine.run_cons, Machine.run_nil, Machine.outputs_cons, Machine.outputs_nil,
      List.append_nil]
    exact hstep

/-- **Every schedule is a sequential run.** Let threads call the runtime in any
order of steps in which no refresh loads the policy, and no other call of
`set_policy` rebuilds, while such a call is between its rebuild and its store. Then
there is a run of the same calls one after the other, those of each kind in the
order in which they took effect, that publishes the same snapshots; a prefix of that
run's snapshots is published as long as a refresh has concluded and not yet published,
and all of them when no thread holds `refresh_mutex_`. While no thread
is in `refresh` or in `set_policy`, that run also leaves the runtime in the same
state, history and telemetry apart. -/
theorem serializable {moves : List (Nat × Choice F C)}
    (h : Machine.Along (Machine.traced (Threads.step program)) Uninterrupted (quiet {}, []) moves) :
    ∃ ops : List (Op F),
      Machine.Along step Legal PressureRuntime.init ops ∧
      (∀ k, (ops.filter fun op => op.kind = k).map Op.unpolled
        = (effects moves).filter fun op => op.kind = k) ∧
      snapshotsPublished (noted moves)
        <+: (publishedBy PressureRuntime.init ops).map Published.snapshot ∧
      ((schedule moves).owner .refresh = none →
        (publishedBy PressureRuntime.init ops).map Published.snapshot
            = snapshotsPublished (noted moves) ∧
          ((∀ t, settingPolicy ((schedule moves).code t) = false) →
            (schedule moves).data.rt = { runFrom PressureRuntime.init ops with
              history := (schedule moves).data.rt.history
              stats := (schedule moves).data.rt.stats })) := by
  obtain ⟨mid, hmid⟩ := serialized_run h
  obtain ⟨pre, post, hseq⟩ := hmid.explained
  have hrun := run_configuration hseq.config (runFrom PressureRuntime.init pre)
  have hall : runFrom PressureRuntime.init (pre ++ post) = _ := (Machine.run_append ..).trans hrun
  have hshown : (publishedBy PressureRuntime.init (pre ++ post)).map Published.snapshot
      = snapshotsPublished (noted moves)
        ++ ((mid.map Prod.snd).bind Action.toPublish).toList := by
    rw [publishedBy, Machine.outputs_append, ← publishedBy, ← publishedBy,
      published_configuration hseq.config, List.append_nil]
    exact hseq.shown
  refine ⟨pre ++ post, (Machine.along_append step).mpr
    ⟨hseq.legal, legal_configuration hseq.config _⟩, hseq.order, ⟨_, hshown.symm⟩, ?_⟩
  intro hfree
  -- nobody holds `refresh_mutex_`, so no refresh is in progress
  have hnone : mid = none := by
    cases mid with
    | none => rfl
    | some p =>
      have howner := hmid.owner p rfl
      rw [hfree] at howner
      cases howner
  subst hnone
  refine ⟨hshown.trans (List.append_nil _), fun hidle => ?_⟩
  have hopen : openCalls (noted moves) = [] := by
    refine List.eq_nil_iff_forall_not_mem.mpr ?_
    intro call hcall
    have hnil := (stages_run moves call.1).1.not_open (hidle call.1)
    exact List.not_mem_nil (hnil ▸ List.mem_filter.mpr ⟨hcall, by simp⟩)
  have hruntime := hseq.runtime
  have hcurrent : (runFrom PressureRuntime.init pre).currentSnapshot
      = (schedule moves).data.rt.currentSnapshot := hseq.current
  rw [hopen, ← hcurrent] at hruntime
  rw [hall]
  exact hruntime

instance (x : System F C × List (Nat × Note F C)) (move : Nat × Choice F C) :
    Decidable (Uninterrupted x move) :=
  inferInstanceAs (Decidable (∀ a ∈ Threads.nextAct (x.1.code move.1),
    a.startsOnPolicy = true → openCalls x.2 = []))

/-- Thread 0 registers a provider and refreshes; when it has copied the budgets,
thread 1 sets one. -/
def budgetMidway : List (Nat × Choice ℚ Unit) :=
  (0, .call (.registerProvider "host")) :: proceed 0 3
    ++ (0, .call (.refresh 1000)) :: proceed 0 5
    ++ (1, .call (.setBudget { high := 0, low := 1 } { hardCapacity := 50 })) :: proceed 1 3
    ++ proceed 0 1 ++ (0, .order ["host"]) :: proceed 0 1
    ++ (0, .sampled (.returned { observations :=
        [{ id := { high := 0, low := 1 }, type := .hostMemory, totalCapacity := 100,
           committed := 30 }] })) :: proceed 0 27

/-- The schedule `budgetMidway` is a run of its three calls one after the other, with the
same snapshots. -/
theorem serializable_budget_midway :
    ∃ ops : List (Op ℚ), Machine.Along step Legal PressureRuntime.init ops ∧
      (∀ k, (ops.filter fun op => op.kind = k).map Op.unpolled
        = (effects budgetMidway).filter fun op => op.kind = k) ∧
      (publishedBy PressureRuntime.init ops).map Published.snapshot
        = snapshotsPublished (noted budgetMidway) := by
  have hmoves : Machine.Along (Machine.traced (Threads.step program)) Uninterrupted (quiet {}, [])
      budgetMidway := by decide +kernel
  obtain ⟨ops, hlegal, hcalls, -, hfree⟩ := serializable hmoves
  exact ⟨ops, hlegal, hcalls, (hfree (by decide +kernel)).1⟩

end MemoryPressure
