import MemoryPressure.Budget

/-!
# Spellings (`types.h`, `budget.h`)

How enumerators are written into documents and read back. Every enumerator is
read back from its spelling, but for one: `to_string(ProviderStatus)` has no case
for `Partial`, which falls through to the text of `Unavailable`
(`providerStatusFromString_toString`).

The readers are chains of comparisons in the source and tables here (`readSpelling`), in
the order of the source, with the enumerators in the place of the branches. Each returns
`none` for a text it does not know; what its caller makes of that, a refusal, a default or
an entry passed over, is modelled at the caller. The round trips are closed by cases on the
enumerator: there are finitely many, and each is an evaluation of its table.
-/

namespace MemoryPressure

/-! ## Writing -/

/-- `to_string(Confidence)` (types.h:246). -/
def Confidence.toString : Confidence → String
  | .authoritative => "AUTHORITATIVE"
  | .high => "HIGH"
  | .medium => "MEDIUM"
  | .low => "LOW"
  | .unknown => "UNKNOWN"

/-- `to_string(Provenance)` (types.h:257). -/
def Provenance.toString : Provenance → String
  | .windowsGlobalMemoryStatusEx => "WINDOWS_GLOBAL_MEMORY_STATUS_EX"
  | .windowsPerformanceInfo => "WINDOWS_PERFORMANCE_INFO"
  | .windowsProcessMemoryInfo => "WINDOWS_PROCESS_MEMORY_INFO"
  | .windowsProcessQuery => "WINDOWS_PROCESS_QUERY"
  | .cudaDriverApi => "CUDA_DRIVER_API"
  | .filesystem => "FILESYSTEM"
  | .runtimeRegistration => "RUNTIME_REGISTRATION"
  | .configuredPolicy => "CONFIGURED_POLICY"
  | .syntheticInput => "SYNTHETIC_INPUT"
  | .importedSnapshot => "IMPORTED_SNAPSHOT"
  | .inferredMetric => "INFERRED_METRIC"
  | .allocationProbe => "ALLOCATION_PROBE"
  | .cudaRuntimeApi => "CUDA_RUNTIME_API"
  | .unknown => "UNKNOWN"

/-- `to_string(Validity)` (types.h:277). -/
def Validity.toString : Validity → String
  | .valid => "VALID"
  | .stale => "STALE"
  | .partialData => "PARTIAL"
  | .failed => "FAILED"
  | .unavailable => "UNAVAILABLE"

/-- `to_string(ProviderStatus)` (types.h:288). The switch has no case for
`Partial`; the text after it is returned. -/
def ProviderStatus.toString : ProviderStatus → String
  | .healthy => "HEALTHY"
  | .stale => "STALE"
  | .failed => "FAILED"
  | .unavailable => "UNAVAILABLE"
  | .partialData => "UNAVAILABLE"

/-- `to_string(TierRole)` (types.h:337). -/
def TierRole.toString : TierRole → String
  | .root => "ROOT"
  | .accelerator => "ACCELERATOR"
  | .staging => "STAGING"
  | .buffer => "BUFFER"
  | .persistent => "PERSISTENT"
  | .custom => "CUSTOM"

/-- `to_string(ReserveKind)` (budget.h:33). -/
def ReserveKind.toString : ReserveKind → String
  | .emergency => "EMERGENCY"
  | .migration => "MIGRATION"
  | .checkpoint => "CHECKPOINT"
  | .transferStaging => "TRANSFER_STAGING"
  | .recovery => "RECOVERY"
  | .fragmentation => "FRAGMENTATION"
  | .system => "SYSTEM"
  | .application => "APPLICATION"
  | .custom => "CUSTOM"

/-! ## Reading -/

/-- A chain of comparisons with the spellings of a table. -/
def readSpelling {α : Type} (table : List (String × α)) (s : String) : Option α :=
  (table.find? fun e => e.1 = s).map Prod.snd

/-- `pressure_level_from_string` (types.h:352). -/
def pressureLevelFromString : String → Option PressureLevel :=
  readSpelling
    [("NORMAL", .normal), ("ELEVATED", .elevated), ("HIGH", .high), ("CRITICAL", .critical),
     ("EXHAUSTED", .exhausted), ("UNKNOWN", .unknown)]

/-- `domain_type_from_string` (types.h:362). -/
def domainTypeFromString : String → Option DomainType :=
  readSpelling
    [("HOST_MEMORY", .hostMemory), ("PINNED_HOST_MEMORY", .pinnedHostMemory),
     ("ACCELERATOR_MEMORY", .acceleratorMemory), ("SHARED_HOST_MEMORY", .sharedHostMemory),
     ("FILE_BACKED_MEMORY", .fileBackedMemory),
     ("PERSISTENT_STORAGE_CAPACITY", .persistentStorageCapacity),
     ("PROCESS_COMMIT", .processCommit), ("SYSTEM_COMMIT", .systemCommit), ("CUSTOM", .custom),
     ("UNKNOWN", .unknown)]

/-- `response_action_from_string` (types.h:376). -/
def responseActionFromString : String → Option ResponseAction :=
  readSpelling
    [("NONE", .none), ("WARN", .warn), ("THROTTLE", .throttle), ("DEFER", .defer),
     ("REJECT_NEW_WORK", .rejectNewWork), ("REQUEST_RECLAIM", .requestReclaim),
     ("REQUEST_DEMOTION", .requestDemotion), ("REQUEST_PERSISTENCE", .requestPersistence),
     ("REQUEST_COMPACTION", .requestCompaction), ("REDUCE_ADMISSION", .reduceAdmission),
     ("RESERVE_CAPACITY", .reserveCapacity), ("EMERGENCY_STOP_GROWTH", .emergencyStopGrowth),
     ("CUSTOM", .custom)]

/-- `confidence_from_string` (types.h:393). -/
def confidenceFromString : String → Option Confidence :=
  readSpelling
    [("AUTHORITATIVE", .authoritative), ("HIGH", .high), ("MEDIUM", .medium), ("LOW", .low),
     ("UNKNOWN", .unknown)]

/-- `tier_role_from_string` (types.h:410). -/
def tierRoleFromString : String → Option TierRole :=
  readSpelling
    [("ROOT", .root), ("ACCELERATOR", .accelerator), ("STAGING", .staging), ("BUFFER", .buffer),
     ("PERSISTENT", .persistent), ("CUSTOM", .custom)]

/-- `provenance_from_string` (types.h:420). -/
def provenanceFromString : String → Option Provenance :=
  readSpelling
    [("WINDOWS_GLOBAL_MEMORY_STATUS_EX", .windowsGlobalMemoryStatusEx),
     ("WINDOWS_PERFORMANCE_INFO", .windowsPerformanceInfo),
     ("WINDOWS_PROCESS_MEMORY_INFO", .windowsProcessMemoryInfo),
     ("WINDOWS_PROCESS_QUERY", .windowsProcessQuery), ("CUDA_DRIVER_API", .cudaDriverApi),
     ("FILESYSTEM", .filesystem), ("RUNTIME_REGISTRATION", .runtimeRegistration),
     ("CONFIGURED_POLICY", .configuredPolicy), ("SYNTHETIC_INPUT", .syntheticInput),
     ("IMPORTED_SNAPSHOT", .importedSnapshot), ("INFERRED_METRIC", .inferredMetric),
     ("ALLOCATION_PROBE", .allocationProbe), ("CUDA_RUNTIME_API", .cudaRuntimeApi),
     ("UNKNOWN", .unknown)]

/-- `validity_from_string` (types.h:438). -/
def validityFromString : String → Option Validity :=
  readSpelling
    [("VALID", .valid), ("STALE", .stale), ("PARTIAL", .partialData), ("FAILED", .failed),
     ("UNAVAILABLE", .unavailable)]

/-- `provider_status_from_string` (types.h:447). -/
def providerStatusFromString : String → Option ProviderStatus :=
  readSpelling
    [("HEALTHY", .healthy), ("STALE", .stale), ("FAILED", .failed), ("UNAVAILABLE", .unavailable),
     ("PARTIAL", .partialData)]

/-- `trend_from_string` (types.h:456). -/
def trendFromString : String → Option TrendDirection :=
  readSpelling
    [("FLAT", .flat), ("RISING", .rising), ("FALLING", .falling), ("UNKNOWN", .unknown)]

/-- `reserve_kind_from_string` (budget.h:48). -/
def reserveKindFromString : String → Option ReserveKind :=
  readSpelling
    [("EMERGENCY", .emergency), ("MIGRATION", .migration), ("CHECKPOINT", .checkpoint),
     ("TRANSFER_STAGING", .transferStaging), ("RECOVERY", .recovery),
     ("FRAGMENTATION", .fragmentation), ("SYSTEM", .system), ("APPLICATION", .application),
     ("CUSTOM", .custom)]

/-! ## Round trips -/

@[simp] theorem pressureLevelFromString_toString (v : PressureLevel) :
    pressureLevelFromString v.toString = some v := by cases v <;> rfl

@[simp] theorem domainTypeFromString_toString (v : DomainType) :
    domainTypeFromString v.toString = some v := by cases v <;> rfl

@[simp] theorem responseActionFromString_toString (v : ResponseAction) :
    responseActionFromString v.toString = some v := by cases v <;> rfl

@[simp] theorem confidenceFromString_toString (v : Confidence) :
    confidenceFromString v.toString = some v := by cases v <;> rfl

@[simp] theorem tierRoleFromString_toString (v : TierRole) :
    tierRoleFromString v.toString = some v := by cases v <;> rfl

@[simp] theorem provenanceFromString_toString (v : Provenance) :
    provenanceFromString v.toString = some v := by cases v <;> rfl

@[simp] theorem validityFromString_toString (v : Validity) :
    validityFromString v.toString = some v := by cases v <;> rfl

@[simp] theorem trendFromString_toString (v : TrendDirection) :
    trendFromString v.toString = some v := by cases v <;> rfl

@[simp] theorem reserveKindFromString_toString (v : ReserveKind) :
    reserveKindFromString v.toString = some v := by cases v <;> rfl

/-- What a written provider status is read as: a partial one as unavailable. -/
def ProviderStatus.reread : ProviderStatus → ProviderStatus
  | .partialData => .unavailable
  | v => v

@[simp] theorem providerStatusFromString_toString (v : ProviderStatus) :
    providerStatusFromString v.toString = some v.reread := by cases v <;> rfl

theorem ProviderStatus.reread_eq_iff {v : ProviderStatus} : v.reread = v ↔ v ≠ .partialData := by
  cases v <;> simp [ProviderStatus.reread]

end MemoryPressure
