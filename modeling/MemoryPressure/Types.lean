import Mathlib.Data.Nat.Notation

/-!
# The vocabulary of the pressure model (`types.h`)

The enumerations every other module speaks in, the 128-bit domain identity and
the severity order.

**Numbers.** Unsigned 64-bit data (byte counts, timestamps) is `UInt64`, with C++'s
wrap-around, because sums and differences of it are formed in the source and their
wrap-around is observable. Counters that only ever count up from zero (event ids,
snapshot ids, generations, telemetry) are `Nat`: 64 bits of them do not run out.

**Severity.** `severity_rank` puts the five known levels at 0 to 4 and `unknown`, the
state without evidence, below them at -1. Where the source stores a rank in an unsigned
integer it takes the maximum with 0 first, which is `severityFloor`. The two agree on
known levels, and invariants of later modules keep `unknown` out.

**Identity.** An id is two words, printed and parsed as 32 hexadecimal digits. The module
has the printer and the hash; the parser and the proof that the two are inverse to each
other, on exactly the texts the parser accepts, are in `Codec.lean` and `DomainId.lean`.
-/

namespace MemoryPressure

/-- `PressureLevel` (types.h:22). `unknown` is the "no evidence" state. -/
inductive PressureLevel where
  | normal | elevated | high | critical | exhausted | unknown
  deriving DecidableEq, Repr

/-- `DomainType` (types.h:35). -/
inductive DomainType where
  | hostMemory | pinnedHostMemory | acceleratorMemory | sharedHostMemory | fileBackedMemory
  | persistentStorageCapacity | processCommit | systemCommit | custom | unknown
  deriving DecidableEq, Repr

/-- `Confidence` (types.h:49). -/
inductive Confidence where
  | authoritative | high | medium | low | unknown
  deriving DecidableEq, Repr

/-- How strong a confidence is: `Authoritative`, `High`, `Medium`, `Low`,
`Unknown` (types.h:49). -/
def Confidence.strength : Confidence → Nat
  | .authoritative => 4
  | .high => 3
  | .medium => 2
  | .low => 1
  | .unknown => 0

/-- `Provenance` (types.h:59). -/
inductive Provenance where
  | windowsGlobalMemoryStatusEx | windowsPerformanceInfo | windowsProcessMemoryInfo
  | windowsProcessQuery | cudaDriverApi | filesystem | runtimeRegistration | configuredPolicy
  | syntheticInput | importedSnapshot | inferredMetric | allocationProbe | cudaRuntimeApi
  | unknown
  deriving DecidableEq, Repr

/-- `Validity` of a single observation (types.h:77). -/
inductive Validity where
  | valid | stale | partialData | failed | unavailable
  deriving DecidableEq, Repr

/-- How strong a validity is: `Valid`, `Partial`, `Stale`, then `Failed` and
`Unavailable` (types.h:77). -/
def Validity.strength : Validity → Nat
  | .valid => 3
  | .partialData => 2
  | .stale => 1
  | .failed => 0
  | .unavailable => 0

/-- `ProviderStatus` (types.h:86). -/
inductive ProviderStatus where
  | healthy | stale | failed | unavailable | partialData
  deriving DecidableEq, Repr

/-- `TrendDirection` (types.h:95). -/
inductive TrendDirection where
  | flat | rising | falling | unknown
  deriving DecidableEq, Repr

/-- `ResponseAction` (types.h:104). -/
inductive ResponseAction where
  | none | warn | throttle | defer | rejectNewWork | requestReclaim | requestDemotion
  | requestPersistence | requestCompaction | reduceAdmission | reserveCapacity
  | emergencyStopGrowth | custom
  deriving DecidableEq, Repr

/-- `AdmissionDecision` (types.h:121). -/
inductive AdmissionDecision where
  | accept | acceptWithCaution | defer | reject
  deriving DecidableEq, Repr

/-- `TierRole` (types.h:129). -/
inductive TierRole where
  | root | accelerator | staging | buffer | persistent | custom
  deriving DecidableEq, Repr

/-- `PressureDomainId` (types.h:145): the opaque 128-bit name of a domain. -/
structure PressureDomainId where
  high : UInt64 := 0
  low : UInt64 := 0
  deriving DecidableEq, Repr

/-- One lower-case hexadecimal digit. -/
def hexDigit (nibble : UInt64) : Char :=
  if nibble < 10 then Char.ofNat (48 + nibble.toNat) else Char.ofNat (87 + nibble.toNat)

/-- `%016llx`: sixteen lower-case hexadecimal digits, most significant first. -/
def hex16 (n : UInt64) : String :=
  String.ofList ((List.range 16).map fun i => hexDigit ((n >>> (60 - 4 * UInt64.ofNat i)) &&& 15))

/-- `PressureDomainId::to_hex` (types.h:162). -/
def PressureDomainId.toHex (id : PressureDomainId) : String := hex16 id.high ++ hex16 id.low

/-- `PressureDomainId::fnv1a` (types.h:194): FNV-1a over the bytes of a label. -/
def PressureDomainId.fnv1a (key : String) : UInt64 :=
  key.toUTF8.data.foldl (fun h c => (h ^^^ c.toUInt64) * 1099511628211) 14695981039346656037

/-! ## Severity -/

/-- `severity_rank` (types.h:464); `unknown` ranks below every known level. -/
def severityRank : PressureLevel → Int
  | .normal => 0
  | .elevated => 1
  | .high => 2
  | .critical => 3
  | .exhausted => 4
  | .unknown => -1

/-- `static_cast<std::uint64_t>(std::max(0, severity_rank(level)))`: the rank the
runtime aggregates, stores as a peak and stamps on events. -/
def severityFloor (level : PressureLevel) : Nat := (max 0 (severityRank level)).toNat

/-! ## Spellings (used by the explanations and event texts) -/

/-- `to_string(PressureLevel)` (types.h:218). -/
def PressureLevel.toString : PressureLevel → String
  | .normal => "NORMAL"
  | .elevated => "ELEVATED"
  | .high => "HIGH"
  | .critical => "CRITICAL"
  | .exhausted => "EXHAUSTED"
  | .unknown => "UNKNOWN"

/-- `to_string(DomainType)` (types.h:230). -/
def DomainType.toString : DomainType → String
  | .hostMemory => "HOST_MEMORY"
  | .pinnedHostMemory => "PINNED_HOST_MEMORY"
  | .acceleratorMemory => "ACCELERATOR_MEMORY"
  | .sharedHostMemory => "SHARED_HOST_MEMORY"
  | .fileBackedMemory => "FILE_BACKED_MEMORY"
  | .persistentStorageCapacity => "PERSISTENT_STORAGE_CAPACITY"
  | .processCommit => "PROCESS_COMMIT"
  | .systemCommit => "SYSTEM_COMMIT"
  | .custom => "CUSTOM"
  | .unknown => "UNKNOWN"

/-- `to_string(TrendDirection)` (types.h:298). -/
def TrendDirection.toString : TrendDirection → String
  | .flat => "FLAT"
  | .rising => "RISING"
  | .falling => "FALLING"
  | .unknown => "UNKNOWN"

/-- `to_string(ResponseAction)` (types.h:308). -/
def ResponseAction.toString : ResponseAction → String
  | .none => "NONE"
  | .warn => "WARN"
  | .throttle => "THROTTLE"
  | .defer => "DEFER"
  | .rejectNewWork => "REJECT_NEW_WORK"
  | .requestReclaim => "REQUEST_RECLAIM"
  | .requestDemotion => "REQUEST_DEMOTION"
  | .requestPersistence => "REQUEST_PERSISTENCE"
  | .requestCompaction => "REQUEST_COMPACTION"
  | .reduceAdmission => "REDUCE_ADMISSION"
  | .reserveCapacity => "RESERVE_CAPACITY"
  | .emergencyStopGrowth => "EMERGENCY_STOP_GROWTH"
  | .custom => "CUSTOM"

end MemoryPressure
