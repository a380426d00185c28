import MemoryPressure.Run

/-!
# The synchronous signals (`response.h`, `runtime.cpp`)

`admit` and `backpressure` answer from one published snapshot, without the lock of
`refresh`. Three numbers come out of them for a domain with `available` bytes: the safe
bytes of the hint (all of them), the recommended maximum of the backpressure (a quarter)
and the bytes `admit` accepts, which its table scales with the level: all, a half,
a quarter, none.

- `decideAdmission`: the table, with what each row explains its answer with.
- `admits_iff`: the same as one bound on the request, `admissible`.
- `admitBytes_eq`, `maxNewAllocation_eq`: `admit` and `backpressure` answer from the table
  and from the available bytes of the entry that `find_domain` finds, after every run.
- `signals_agree_iff`: hence, comparing a bound with a quarter and with the whole of one
  number, the recommended maximum is let in exactly up to `high` and the safe bytes exactly
  at `normal`. What is not let in is deferred below `critical` and rejected from there on.

The three numbers are documented side by side, with the table, so that this is how they are
meant to be read: safe bytes are what is left, not what would be admitted.
-/

namespace MemoryPressure

variable {F : Type} [Double F]

/-! ## The signals -/

/-- `Backpressure` (response.h:18). -/
structure Backpressure (F : Type) [Double F] where
  target : PressureDomainId := {}
  severity : PressureLevel := .unknown
  reason : String := ""
  recommendedResponse : ResponseAction := .none
  maxNewAllocation : UInt64 := 0
  admissionReduction : F := 0.0
  deferDurationMs : UInt64 := 0
  generation : Nat := 0
  issuedAtMs : UInt64 := 0
  expiryMs : UInt64 := 0
  confidence : Confidence := .unknown
  targetRole : TierRole := .root

/-- `AdmissionHint` (response.h:34). -/
structure AdmissionHint where
  decision : AdmissionDecision := .reject
  explanation : String := ""
  requestedBytes : UInt64 := 0
  safeBytes : UInt64 := 0
  domainLevel : PressureLevel := .unknown
  reserveAvailable : Bool := false
  deriving DecidableEq, Repr

/-- The admission counters of `RuntimeStats` (runtime.h:31). -/
structure AdmissionStats where
  accept : Nat := 0
  caution : Nat := 0
  defer : Nat := 0
  reject : Nat := 0
  deriving DecidableEq, Repr

/-- The counter `admit` raises (runtime.cpp:520–524). -/
def AdmissionStats.count (stats : AdmissionStats) : AdmissionDecision → AdmissionStats
  | .accept => { stats with accept := stats.accept + 1 }
  | .acceptWithCaution => { stats with caution := stats.caution + 1 }
  | .defer => { stats with defer := stats.defer + 1 }
  | .reject => { stats with reject := stats.reject + 1 }

/-- The decision table of `admit` (runtime.cpp:493–518): the decision on a
request for `bytes` of `avail` bytes, and what it is explained with. -/
def decideAdmission (level : PressureLevel) (bytes avail : UInt64) :
    AdmissionDecision × String :=
  match level with
  | .normal =>
    (if bytes ≤ avail then .accept else .defer,
      "domain NORMAL; request " ++ toString bytes.toNat ++ " vs available " ++ toString avail.toNat)
  | .elevated =>
    (if bytes ≤ avail / 2 then .acceptWithCaution else .defer,
      "domain ELEVATED; only cautious admission")
  | .high =>
    (if bytes ≤ avail / 4 then .acceptWithCaution else .defer,
      "domain HIGH; defer unless the request is small and headroom exists")
  | .critical => (.reject, "domain CRITICAL; reject new work")
  | .exhausted => (.reject, "domain EXHAUSTED; reject new work")
  | .unknown => (.defer, "domain UNKNOWN; defer")

namespace PressureRuntime

/-- `PressureRuntime::admit` (runtime.cpp:481) on the snapshot it loaded, with
the counters it raises: none of them when it returns early. -/
def admitBytes (snap : Option (Snapshot F)) (stats : AdmissionStats) (id : PressureDomainId)
    (bytes : UInt64) : AdmissionHint × AdmissionStats :=
  match snap with
  | none => ({ requestedBytes := bytes, decision := .reject,
               explanation := "no snapshot available" }, stats)
  | some s =>
    match s.findDomain id with
    | none => ({ requestedBytes := bytes, decision := .defer,
                 explanation := "domain unknown" }, stats)
    | some ds =>
      let answer := decideAdmission ds.level bytes ds.available
      ({ requestedBytes := bytes
         domainLevel := ds.level
         safeBytes := ds.available
         reserveAvailable := ds.available ≥ ds.budget.admissionHeadroom
         decision := answer.1
         explanation := answer.2 }, stats.count answer.1)

/-- `PressureRuntime::backpressure` (runtime.cpp:528) on the snapshot it loaded. -/
def backpressure (snap : Option (Snapshot F)) (id : PressureDomainId) : Backpressure F :=
  match snap with
  | none => { target := id }
  | some s =>
    match s.findDomain id with
    | none => { target := id }
    | some ds =>
      { target := id
        severity := ds.level
        confidence := ds.confidence
        generation := s.generation
        issuedAtMs := s.timestampMs
        expiryMs := ds.timestampMs + 10 * 1000
        targetRole := roleFor ds.type
        reason := ds.type.toString ++ " " ++ ds.level.toString
        recommendedResponse := ds.responses.head?.getD .none
        maxNewAllocation :=
          if ds.governed then (if ds.available > 0 then ds.available / 4 else 0)
          else ds.available / 4
        admissionReduction :=
          if ds.level = .high then 0.5
          else if ds.level = .critical then 0.8
          else if ds.level = .exhausted then 1.0
          else 0.0 }

end PressureRuntime

/-- The request is let in. -/
def AdmissionDecision.letsIn : AdmissionDecision → Bool
  | .accept | .acceptWithCaution => true
  | .defer | .reject => false

/-! ## One table -/

/-- How much of the available bytes a level admits (BACKPRESSURE.md, admission
table). -/
def admissible (level : PressureLevel) (avail : UInt64) : Option UInt64 :=
  match level with
  | .normal => some avail
  | .elevated => some (avail / 2)
  | .high => some (avail / 4)
  | .critical | .exhausted | .unknown => none

/-- **The table of `admit` is one bound on the request.** -/
theorem admits_iff {level : PressureLevel} {bytes avail : UInt64} :
    (decideAdmission level bytes avail).1.letsIn = true ↔
      ∃ bound ∈ admissible level avail, bytes ≤ bound := by
  cases level with
  | normal | elevated | high =>
    simp only [decideAdmission, admissible, Option.mem_some_iff, exists_eq_left']
    split_ifs with h
    · exact iff_of_true rfl h
    · exact iff_of_false Bool.false_ne_true h
  | critical | exhausted | unknown =>
    exact iff_of_false Bool.false_ne_true fun ⟨_, h, _⟩ => by cases h

theorem quarter_le_half (n : UInt64) : n / 4 ≤ n / 2 := by
  rw [UInt64.le_iff_toNat_le, UInt64.toNat_div, UInt64.toNat_div]
  show n.toNat / 4 ≤ n.toNat / 2
  omega

theorem quarter_le (n : UInt64) : n / 4 ≤ n := by
  rw [UInt64.le_iff_toNat_le, UInt64.toNat_div]
  exact Nat.div_le_self _ _

theorem not_le_half {n : UInt64} (h : 0 < n) : ¬ n ≤ n / 2 := by
  rw [UInt64.lt_iff_toNat_lt] at h
  rw [UInt64.le_iff_toNat_le, UInt64.toNat_div]
  change 0 < n.toNat at h
  show ¬ n.toNat ≤ n.toNat / 2
  omega

/-- A quarter of what is available is admitted up to `high`. -/
theorem admits_quarter_iff {level : PressureLevel} {avail : UInt64} :
    (decideAdmission level (avail / 4) avail).1.letsIn = true ↔
      level = .normal ∨ level = .elevated ∨ level = .high := by
  rw [admits_iff]
  cases level with
  | normal => simp [admissible, quarter_le]
  | elevated => simp [admissible, quarter_le_half]
  | high => simp [admissible]
  | critical | exhausted | unknown => simp [admissible]

/-- All of what is available is admitted at `normal` only. -/
theorem admits_all_iff {level : PressureLevel} {avail : UInt64} (h : 0 < avail) :
    (decideAdmission level avail avail).1.letsIn = true ↔ level = .normal := by
  have hquarter : ¬ avail ≤ avail / 4 := fun hle =>
    not_le_half h (UInt64.le_trans hle (quarter_le_half avail))
  rw [admits_iff]
  cases level with
  | normal => simp [admissible]
  | elevated => simp [admissible, not_le_half h]
  | high => simp [admissible, hquarter]
  | critical | exhausted | unknown => simp [admissible]

/-- What is refused at a level above the bound: deferred while the level still
admits something, rejected once it admits nothing. -/
theorem refused_decision {level : PressureLevel} {bytes avail : UInt64}
    (hknown : level ≠ .unknown) (h : (decideAdmission level bytes avail).1.letsIn = false) :
    (decideAdmission level bytes avail).1 =
      if (admissible level avail).isSome then .defer else .reject := by
  cases level with
  | normal | elevated | high =>
    simp only [decideAdmission, admissible, Option.isSome_some, if_true] at h ⊢
    split_ifs at h ⊢
    · cases h
    · rfl
  | critical | exhausted => rfl
  | unknown => exact absurd rfl hknown

/-! ## The three numbers -/

open PressureRuntime

/-- `admit` answers from the table, on the domain's level and available bytes. -/
theorem admitBytes_eq {s : Snapshot F} {id : PressureDomainId} {ds : DomainState F}
    (h : s.findDomain id = some ds) (stats : AdmissionStats) (bytes : UInt64) :
    (admitBytes (some s) stats id bytes).1.decision
        = (decideAdmission ds.level bytes ds.available).1 ∧
      (admitBytes (some s) stats id bytes).1.safeBytes = ds.available := by
  simp only [admitBytes, h]
  exact ⟨trivial, trivial⟩

/-- The recommended maximum is a quarter of the available bytes, governed or not. -/
theorem maxNewAllocation_eq {s : Snapshot F} {id : PressureDomainId} {ds : DomainState F}
    (h : s.findDomain id = some ds) :
    (backpressure (some s) id).maxNewAllocation = ds.available / 4 := by
  simp only [backpressure, h]
  split_ifs with hgov hpos
  · rfl
  · obtain hzero : ds.available = 0 := by
      rw [gt_iff_lt, UInt64.lt_iff_toNat_lt, UInt64.toNat_zero, Nat.not_lt, Nat.le_zero] at hpos
      exact UInt64.toNat_inj.mp hpos
    rw [hzero]
    rfl
  · rfl

/-- **When the signals agree.** After every run, for every domain of the current
snapshot: its level is known; a positive recommended maximum is let in exactly
up to `high`, a positive number of safe bytes, whatever request it was reported
for, exactly at `normal`; and what is not let in is deferred below `critical`
and rejected from there on. -/
theorem signals_agree_iff (ops : List (Op F)) (stats : AdmissionStats) (id : PressureDomainId)
    (level : PressureLevel)
    (hlevel : (runFrom PressureRuntime.init ops).currentSnapshot.levelOf id = some level) :
    let snap := some (runFrom (PressureRuntime.init : PressureRuntime F) ops).currentSnapshot
    let decision (n : UInt64) := (admitBytes snap stats id n).1.decision
    level ≠ .unknown ∧
      (0 < (backpressure snap id).maxNewAllocation →
        ((decision (backpressure snap id).maxNewAllocation).letsIn = true ↔
          level = .normal ∨ level = .elevated ∨ level = .high)) ∧
      (∀ m, 0 < (admitBytes snap stats id m).1.safeBytes →
        ((decision (admitBytes snap stats id m).1.safeBytes).letsIn = true ↔ level = .normal)) ∧
      ∀ n, (decision n).letsIn = false →
        decision n = if level = .critical ∨ level = .exhausted then .reject else .defer := by
  obtain ⟨ds, hds, rfl⟩ := Option.map_eq_some_iff.mp hlevel
  have hknown : ds.level ≠ .unknown :=
    (sound_run ops).levels ds (Snapshot.findDomain_some hds).1
  intro snap decision
  have hdecision : ∀ n, decision n = (decideAdmission ds.level n ds.available).1 := fun n =>
    (admitBytes_eq hds stats n).1
  refine ⟨hknown, fun _ => ?_, fun m hpos => ?_, fun n hn => ?_⟩
  · rw [hdecision, maxNewAllocation_eq hds]
    exact admits_quarter_iff
  · rw [(admitBytes_eq hds stats m).2] at hpos ⊢
    rw [hdecision]
    exact admits_all_iff hpos
  · rw [hdecision] at hn ⊢
    rw [refused_decision hknown hn]
    cases hl : ds.level <;> first | rfl | exact absurd hl hknown

/-- One refresh of a host of 1000 bytes. -/
def hostOnce (committed : UInt64) : List (Op ℚ) :=
  [.registerProvider "host",
    .refresh 1000 [{ name := "host", outcome := .returned { observations :=
      [{ id := { high := 0, low := 1 }, type := .hostMemory, totalCapacity := 1000,
         committed := committed }] } }]]

/-- A calm host: its 900 available bytes are let in. -/
theorem signals_agree_normal :
    let snap := some (runFrom (PressureRuntime.init : PressureRuntime ℚ)
      (hostOnce 100)).currentSnapshot
    (admitBytes snap {} { high := 0, low := 1 }
      (admitBytes snap {} { high := 0, low := 1 } 7).1.safeBytes).1.decision.letsIn = true :=
  ((signals_agree_iff (hostOnce 100) {} { high := 0, low := 1 } .normal
    (by decide +kernel)).2.2.1 7 (by decide +kernel)).mpr rfl

/-- An exhausted host reports 10 safe bytes and recommends allocations of up to
2, and rejects either request. -/
theorem signals_disagree :
    Machine.Along step Legal PressureRuntime.init (hostOnce 990) ∧
      ¬ ∀ id ∈ (runFrom (PressureRuntime.init : PressureRuntime ℚ)
          (hostOnce 990)).currentSnapshot.ids,
        let snap := some (runFrom (PressureRuntime.init : PressureRuntime ℚ)
          (hostOnce 990)).currentSnapshot
        let safe := (admitBytes snap {} id 0).1.safeBytes
        let recommended := (backpressure snap id).maxNewAllocation
        (0 < safe → (admitBytes snap {} id safe).1.decision.letsIn = true) ∧
          (0 < recommended → (admitBytes snap {} id recommended).1.decision.letsIn = true) := by
  decide +kernel

end MemoryPressure
