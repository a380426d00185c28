import MemoryPressure.Json.Rounding
import MemoryPressure.ObservationCodec
import MemoryPressure.SnapshotRoundTrip

/-!
# Lossless or refused

What becomes of integers of any size when a document is read back. One number is
neither kept nor refused: `2 ^ 53 + 1` is a tie, rounded down when it is written,
and then within the bound the reader checks.

- An observation is refused if a number of it is larger than that; else each comes
  back, a `2 ^ 53 + 1` as `2 ^ 53` (`observationFromJson_eq_some_iff`).
- A domain of a snapshot is not refused for its numbers: one that is not read comes
  back as 0, and so does a budget that fails its check, as the default one
  (`DomainState.integers_reread_iff`).

`lossless_or_refused_iff` puts both together.

An integer goes through `double` on its way into a document and back. `stored_eq_some_iff`
is what that does to one number, under the hypothesis that the conversion rounds to the
nearest `double`, ties to even (`RoundsToEven`); nothing else is asked of `double`.
The record level is then a matter of which fields there are: `integers` lists the unsigned
fields of a record in the order of the source, and `clipped` moves each of them, so that
one lemma about lists (`map_eq_self_iff`) serves every record.

The two readers differ by design of the source, one strict and one with a default for each
number, and so do the conditions. The budget inside a domain is read leniently and then
checked as a whole: a budget whose numbers are exact may still come back as the default
one, whose numbers are those of an ungoverned budget
(`Budget.valid_of_integers_eq_default`). Counts of 32 bits and signed fields are the subject
of `Narrowing.lean`.
-/

namespace MemoryPressure

/-- `fields` stays as it is under a function that moves just what exceeds a bound. -/
theorem map_eq_self_iff {f : Nat → Nat} {bound : Nat} (hf : ∀ n, f n = n ↔ n ≤ bound)
    (fields : List (Option Nat)) : fields.map (Option.map f) = fields ↔ AtMost bound fields := by
  have hx : ∀ x : Option Nat, x.map f = x ↔ ∀ n ∈ x, n ≤ bound := by
    intro x
    cases x with
    | none => simp
    | some n => simp [hf]
  induction fields with
  | nil => exact ⟨fun _ => nofun, fun _ => rfl⟩
  | cons x fields ih =>
    rw [List.map_cons, List.cons.injEq, atMost_cons]
    exact and_congr (hx x) ih

variable {F : Type} [JsonDouble F]

/-! ## Numbers -/

/-- What `2 ^ 53 + 1` is rounded to. -/
def clip (n : UInt64) : UInt64 := if n.toNat ≤ 2 ^ 53 then n else UInt64.ofNat (2 ^ 53)

theorem toNat_clip (n : UInt64) : (clip n).toNat = min n.toNat (2 ^ 53) := by
  rw [clip]
  split_ifs with h
  · omega
  · rw [UInt64.toNat_ofNat']
    omega

/-- A number is clipped up to `2 ^ 53 + 1`, and refused above. -/
theorem stored_eq_some_iff [RoundsToEven F] {n m : UInt64} :
    stored F n = some m ↔ n.toNat ≤ 2 ^ 53 + 1 ∧ m = clip n := by
  rw [stored, Json.asUInt64_ofUInt64_eq, clip]
  split_ifs with hexact htie
  · constructor
    · intro h
      exact ⟨by omega, (Option.some.inj h).symm⟩
    · rintro ⟨-, rfl⟩
      rfl
  · constructor
    · intro h
      exact ⟨by omega, (Option.some.inj h).symm⟩
    · rintro ⟨-, rfl⟩
      rfl
  · constructor
    · exact nofun
    · rintro ⟨hle, -⟩
      omega

theorem mapM_stored_eq_some_iff [RoundsToEven F] {n m : Option UInt64} :
    n.mapM (stored F) = some m ↔
      (∀ k ∈ n.map UInt64.toNat, k ≤ 2 ^ 53 + 1) ∧ m = n.map clip := by
  cases n with
  | none =>
    rw [Option.mapM_none]
    exact ⟨fun h => ⟨nofun, (Option.some.inj h).symm⟩, fun h => h.2 ▸ rfl⟩
  | some n =>
    rw [Option.mapM_some, Option.map_eq_map, Option.map_eq_some_iff, Option.map_some,
      forall_mem_some]
    constructor
    · rintro ⟨k, hk, rfl⟩
      obtain ⟨hle, rfl⟩ := stored_eq_some_iff.mp hk
      exact ⟨hle, rfl⟩
    · rintro ⟨hle, rfl⟩
      exact ⟨clip n, stored_eq_some_iff.mpr ⟨hle, rfl⟩, rfl⟩

/-! ## Observations -/

section

variable {F : Type} [Double F]

/-- The unsigned integer fields of an observation. -/
def DomainObservation.integers (o : DomainObservation F) : List (Option Nat) :=
  [some o.totalCapacity.toNat, some o.committed.toNat, some o.resident.toNat,
   some o.unavailable.toNat, some o.available.toNat, some o.observedAtMs.toNat,
   o.reclaimable.map UInt64.toNat, o.usableCapacity.map UInt64.toNat, o.reserved.map UInt64.toNat]

/-- An observation with each of its numbers clipped. -/
def DomainObservation.clipped (o : DomainObservation F) : DomainObservation F :=
  { o with
    totalCapacity := clip o.totalCapacity
    committed := clip o.committed
    resident := clip o.resident
    unavailable := clip o.unavailable
    available := clip o.available
    observedAtMs := clip o.observedAtMs
    reclaimable := o.reclaimable.map clip
    usableCapacity := o.usableCapacity.map clip
    reserved := o.reserved.map clip }

theorem integers_clipped (o : DomainObservation F) :
    o.clipped.integers = o.integers.map (Option.map fun n => min n (2 ^ 53)) := by
  simp only [DomainObservation.integers, DomainObservation.clipped, List.map_cons, List.map_nil,
    Option.map_some, toNat_clip, Option.map_map, Function.comp_def]

end

/-- **An observation read back**: refused for one number above `2 ^ 53 + 1`, and with
its numbers clipped otherwise. -/
theorem observationFromJson_eq_some_iff [RoundsToEven F] {o o' : DomainObservation F} :
    observationFromJson (observationToJson o) = some o' ↔
      AtMost (2 ^ 53 + 1) o.integers ∧ o' = o.clipped := by
  rw [observationFromJson_observationToJson, DomainObservation.reread]
  simp only [Option.bind_eq_bind, Option.bind_eq_some_iff, stored_eq_some_iff,
    mapM_stored_eq_some_iff, DomainObservation.integers, atMost_cons, forall_mem_some]
  constructor
  · rintro ⟨_, ⟨htotal, rfl⟩, _, ⟨hcommitted, rfl⟩, _, ⟨hresident, rfl⟩, _, ⟨hunavailable, rfl⟩,
      _, ⟨havailable, rfl⟩, _, ⟨htime, rfl⟩, _, ⟨hreclaimable, rfl⟩, _, ⟨husable, rfl⟩,
      _, ⟨hreserved, rfl⟩, hread⟩
    exact ⟨⟨htotal, hcommitted, hresident, hunavailable, havailable, htime, hreclaimable, husable,
      hreserved, nofun⟩, (Option.some.inj hread).symm⟩
  · rintro ⟨⟨htotal, hcommitted, hresident, hunavailable, havailable, htime, hreclaimable, husable,
      hreserved, -⟩, rfl⟩
    exact ⟨_, ⟨htotal, rfl⟩, _, ⟨hcommitted, rfl⟩, _, ⟨hresident, rfl⟩, _, ⟨hunavailable, rfl⟩,
      _, ⟨havailable, rfl⟩, _, ⟨htime, rfl⟩, _, ⟨hreclaimable, rfl⟩, _, ⟨husable, rfl⟩,
      _, ⟨hreserved, rfl⟩, rfl⟩

/-- **What is read of an observation is lossless** exactly when no number of it is the
tie, or one of them is above. -/
theorem observation_lossless_iff [RoundsToEven F] (o : DomainObservation F) :
    (∀ o', observationFromJson (observationToJson o) = some o' →
        o'.integers = o.integers ∧ o'.allocationFailures = o.allocationFailures) ↔
      AtMost (2 ^ 53) o.integers ∨ ¬ AtMost (2 ^ 53 + 1) o.integers := by
  have hclip : o.clipped.integers = o.integers ↔ AtMost (2 ^ 53) o.integers := by
    rw [integers_clipped]
    exact map_eq_self_iff (fun n => by omega) o.integers
  constructor
  · intro h
    by_cases hread : AtMost (2 ^ 53 + 1) o.integers
    · exact Or.inl (hclip.mp (h _ (observationFromJson_eq_some_iff.mpr ⟨hread, rfl⟩)).1)
    · exact Or.inr hread
  · intro h o' ho'
    obtain ⟨hread, rfl⟩ := observationFromJson_eq_some_iff.mp ho'
    exact ⟨hclip.mpr (h.resolve_right (not_not.mpr hread)), rfl⟩

/-! ## Domains of a snapshot -/

section

variable [RoundsToEven F]

/-- The lenient readers keep just what is written exactly. -/
theorem toNat_kept_ofNat_eq_iff {n : Nat} :
    (kept F (UInt64.ofNat n)).toNat = n ↔ n ≤ 2 ^ 53 := by
  refine ⟨?_, toNat_kept_ofNat⟩
  intro h
  rw [kept] at h
  cases hread : stored F (UInt64.ofNat n) with
  | none =>
    rw [hread] at h
    exact h ▸ Nat.zero_le _
  | some m =>
    obtain ⟨-, rfl⟩ := stored_eq_some_iff.mp hread
    rw [hread, Option.getD_some, toNat_clip] at h
    omega

theorem toNat_kept_eq_iff {n : UInt64} : (kept F n).toNat = n.toNat ↔ n.toNat ≤ 2 ^ 53 := by
  have h := toNat_kept_ofNat_eq_iff (F := F) (n := n.toNat)
  rwa [UInt64.ofNat_toNat] at h

theorem atMost_of_bind_stored {n : Option UInt64}
    (h : (n.bind (stored F)).map UInt64.toNat = n.map UInt64.toNat) :
    ∀ k ∈ n.map UInt64.toNat, k ≤ 2 ^ 53 := by
  cases n with
  | none => exact nofun
  | some n =>
    obtain ⟨m, hm, hmn⟩ := Option.map_eq_some_iff.mp h
    obtain ⟨-, rfl⟩ := stored_eq_some_iff.mp hm
    rw [toNat_clip] at hmn
    rw [Option.map_some, forall_mem_some]
    omega

/-- A budget that is read with the numbers it had was written exactly. -/
theorem Budget.atMost_of_integers_reread {b : Budget} {hard : UInt64}
    (hhard : stored F b.hardCapacity = some hard)
    (h : (b.reread F hard).integers = b.integers) : AtMost (2 ^ 53) b.integers := by
  obtain ⟨-, rfl⟩ := stored_eq_some_iff.mp hhard
  simp only [Budget.integers, Budget.reread, List.cons_append, List.nil_append, List.cons.injEq,
    Option.some.injEq, List.map_map, List.map_inj_left] at h
  obtain ⟨hversion, hclip, hsoft, hemergency, hmin, hreclaim, hdemotion, hheadroom, hreserves⟩ := h
  rw [toNat_clip] at hclip
  simp only [Budget.integers, List.cons_append, List.nil_append, atMost_cons, forall_mem_some]
  refine ⟨toNat_kept_eq_iff.mp hversion, by omega, atMost_of_bind_stored hsoft,
    toNat_kept_eq_iff.mp hemergency, toNat_kept_eq_iff.mp hmin, toNat_kept_eq_iff.mp hreclaim,
    toNat_kept_eq_iff.mp hdemotion, toNat_kept_eq_iff.mp hheadroom, ?_⟩
  intro x hx n hn
  obtain ⟨rv, hrv, rfl⟩ := List.mem_map.mp hx
  obtain rfl : rv.bytes.toNat = n := Option.some.inj hn
  exact toNat_kept_eq_iff.mp (Option.some.inj (hreserves rv hrv))

/-- The default budget's numbers are those of an ungoverned budget. -/
theorem Budget.valid_of_integers_eq_default {b : Budget} (h : ({} : Budget).integers = b.integers) :
    AtMost (2 ^ 53) b.integers ∧ validateBudget b = none := by
  refine ⟨h ▸ by decide, ?_⟩
  simp only [Budget.integers, List.cons_append, List.nil_append, List.cons.injEq,
    Option.some.injEq] at h
  have hhard : b.hardCapacity = 0 := (UInt64.toNat_inj.mp h.2.1).symm
  have hsoft : b.softCapacity = none := Option.map_eq_none_iff.mp h.2.2.1.symm
  rw [validateBudget, if_pos hhard, hsoft]
  rfl

/-- **A budget in a domain keeps its numbers** exactly when they are written exactly
and it passes its check. -/
theorem Budget.integers_rereadOrDefault_iff (b : Budget) :
    (b.rereadOrDefault F).integers = b.integers ↔
      AtMost (2 ^ 53) b.integers ∧ validateBudget b = none := by
  constructor
  · intro h
    rw [Budget.rereadOrDefault, budgetFromJson_budgetToJson] at h
    cases hhard : stored F b.hardCapacity with
    | none =>
      -- refused: what is read is the default, so that is what it was
      rw [hhard] at h
      exact Budget.valid_of_integers_eq_default h
    | some hard =>
      rw [hhard, Option.bind_some] at h
      split_ifs at h with hbad
      · exact Budget.valid_of_integers_eq_default h
      · have hint := Budget.atMost_of_integers_reread hhard h
        -- so it is the budget itself that was checked
        have hsame : hard = b.hardCapacity := by
          have hle : b.hardCapacity.toNat ≤ 2 ^ 53 :=
            hint _ (List.mem_cons_of_mem _ List.mem_cons_self) _ rfl
          rw [stored_of_le hle] at hhard
          exact (Option.some.inj hhard).symm
        rw [hsame, Budget.reread_eq hint] at hbad
        exact ⟨hint, by simpa using hbad⟩
  · rintro ⟨hint, hvalid⟩
    rw [Budget.rereadOrDefault_of_valid hint hvalid]

/-- **A domain of a snapshot keeps its numbers** under the same condition. -/
theorem DomainState.integers_reread_iff (d : DomainState F) :
    d.reread.integers = d.integers ↔
      AtMost (2 ^ 53) d.integers ∧ validateBudget d.budget = none := by
  constructor
  · intro h
    -- the domain's own numbers are the last twelve
    obtain ⟨hbudget, hown⟩ := List.append_inj' h rfl
    obtain ⟨hint, hvalid⟩ := (Budget.integers_rereadOrDefault_iff d.budget).mp hbudget
    refine ⟨atMost_append.mpr ⟨hint, ?_⟩, hvalid⟩
    refine (map_eq_self_iff (fun n => toNat_kept_ofNat_eq_iff (F := F)) _).mp ?_
    simp only [List.map_cons, List.map_nil, Option.map_some, UInt64.ofNat_toNat]
    exact hown
  · rintro ⟨hint, hvalid⟩
    rw [DomainState.reread_eq hint hvalid]

end

/-- **Lossless or refused, exactly when.** What is read of a written observation has all
its integers if each of them is at most `2 ^ 53` or one is above `2 ^ 53 + 1`, and only
then. What is read of a domain in a written snapshot has all its integers if ids repeat, or
each of them is at most `2 ^ 53` and its budget passes the check, and only then. The reader
of a domain refuses nothing for its numbers: a number it does not take is 0. -/
theorem lossless_or_refused_iff [RoundsToEven F] (o : DomainObservation F) (s : Snapshot F)
    (i : Nat) (d : DomainState F) (hd : s.domains[i]? = some d) :
    ((∀ o', observationFromJson (observationToJson o) = some o' →
        o'.integers = o.integers ∧ o'.allocationFailures = o.allocationFailures) ↔
      AtMost (2 ^ 53) o.integers ∨ ¬ AtMost (2 ^ 53 + 1) o.integers) ∧
    ((∀ s', snapshotFromJson (snapshotToJson s) = some s' →
        ∃ d', s'.domains[i]? = some d' ∧ d'.integers = d.integers) ↔
      ¬ s.ids.Nodup ∨ (AtMost (2 ^ 53) d.integers ∧ validateBudget d.budget = none)) := by
  refine ⟨observation_lossless_iff o, ?_⟩
  rw [← DomainState.integers_reread_iff, snapshotFromJson_snapshotToJson]
  have hread : s.reread.domains[i]? = some d.reread := by
    show (s.domains.map DomainState.reread)[i]? = _
    rw [List.getElem?_map, hd, Option.map_some]
  constructor
  · intro h
    by_cases hids : s.ids.Nodup
    · obtain ⟨d', hd', hsame⟩ := h s.reread (if_pos hids)
      obtain rfl : d.reread = d' := Option.some.inj (hread.symm.trans hd')
      exact Or.inr hsame
    · exact Or.inl hids
  · intro h s' hs'
    split_ifs at hs' with hids
    obtain rfl := Option.some.inj hs'
    exact ⟨d.reread, hread, h.resolve_left (not_not.mpr hids)⟩

/-- An observation of a device of `n` bytes. -/
def observationOf (n : UInt64) : DomainObservation Rounded :=
  { id := { high := 0, low := 1 }, totalCapacity := n, reserved := some 7 }

/-- A domain state of a device of `n` bytes. -/
def domainOf (n : UInt64) : DomainState Rounded :=
  { id := { high := 0, low := 1 }, totalCapacity := n, budget := { hardCapacity := n } }

/-- A snapshot of nothing but a device of `n` bytes. -/
def snapshotOf (n : UInt64) : Snapshot Rounded := { domains := [domainOf n] }

/-- At `2 ^ 53` both are lossless. -/
theorem lossless_at_bound :
    (∀ o', observationFromJson (observationToJson (observationOf 9007199254740992)) = some o' →
        o'.integers = (observationOf 9007199254740992).integers ∧
          o'.allocationFailures = (observationOf 9007199254740992).allocationFailures) ∧
      ∀ s', snapshotFromJson (snapshotToJson (snapshotOf 9007199254740992)) = some s' →
        ∃ d', s'.domains[0]? = some d' ∧ d'.integers = (domainOf 9007199254740992).integers := by
  obtain ⟨hobservation, hdomain⟩ := lossless_or_refused_iff (observationOf 9007199254740992)
    (snapshotOf 9007199254740992) 0 (domainOf 9007199254740992) rfl
  exact ⟨hobservation.mpr (by decide), hdomain.mpr (by decide)⟩

/-- At `2 ^ 53 + 1` an observation is read with a byte less than it had; from
`2 ^ 53 + 2` on a domain is read with no capacity and no budget. -/
theorem capacity_changed :
    (∃ o', observationFromJson (observationToJson (observationOf 9007199254740993)) = some o' ∧
        o'.totalCapacity = 9007199254740992) ∧
      ∃ s' d', snapshotFromJson (snapshotToJson (snapshotOf 9007199254740994)) = some s' ∧
        s'.domains[0]? = some d' ∧ d'.totalCapacity = 0 ∧ d'.budget.hardCapacity = 0 := by
  refine ⟨⟨_, observationFromJson_eq_some_iff.mpr ⟨by decide, rfl⟩, by decide⟩, ?_⟩
  refine ⟨(snapshotOf 9007199254740994).reread, (domainOf 9007199254740994).reread, ?_, rfl, ?_⟩
  · rw [snapshotFromJson_snapshotToJson, if_pos (by decide)]
  · have hrefused : stored Rounded 9007199254740994 = none := by
      cases h : stored Rounded 9007199254740994 with
      | none => rfl
      | some m => exact absurd (stored_eq_some_iff.mp h).1 (by decide)
    constructor
    · show (stored Rounded 9007199254740994).getD 0 = 0
      rw [hrefused, Option.getD_none]
    · show (Budget.rereadOrDefault Rounded _).hardCapacity = 0
      rw [Budget.rereadOrDefault, budgetFromJson_budgetToJson]
      show Budget.hardCapacity (((stored Rounded 9007199254740994).bind _).getD {}) = 0
      rw [hrefused]
      rfl

end MemoryPressure
