import MemoryPressure.Foundation.LastRow
import MemoryPressure.Hysteresis

/-!
# Debounce over runs (`core.cpp`, `hysteresis.h`)

What the machine's counter and window say about the updates it was given. With
the level unchanged, the pending transition is the last row of equal raw levels:

- `OnRow`: the window opened with the first update of the row and the counter
  has its length, as far as the cap and 32 bits go (`confirmations`).
- `OnRow.confirms_iff`: whether an update commits can be read off the row.
- `debounce_progress_iff`: when a row of one raw level long enough in number and
  in time has become the level.
- `delays_honoured_iff`: when a committed change has waited as long as it should,
  whatever the clock does.

**Proof structure.** `OnRow.update` is one update, with one case for each branch of the
source (`OnRow.window` is the branch that counts), and `OnRow.feed` every machine in every
reachable state. The rows are those of `Foundation/LastRow.lean`, with the raw level as key.
What is left for the two main results is arithmetic on the row: its length against the dwell
and the cap, and the time since it began.

**Times and numbers.** Elapsed time is a difference of unsigned 64-bit times, converted to
`double` and compared with the delays of the policy. Progress needs that the conversion
keeps order and sign (`OrderedTimes`). That delays are honoured is a comparison between a
number and an integer, which conversion may round: `ComparesIntegers` says what `double`
promises there, and `RoundsUpTo` is the one way in which it can go wrong, besides a clock
that goes back.
-/

namespace MemoryPressure

variable {F : Type} [Double F]

open LastRow (lastRow lastRow_concat extend_of_key extend_of_ne exists_split_cons)

/-! ## Runs -/

/-- One call of `update`: the raw level and the time. -/
abbrev Update := PressureLevel × UInt64

namespace HysteresisState

/-- The machine after a list of updates. -/
def feed (h : HysteresisState F) (updates : List Update) : HysteresisState F :=
  updates.foldl (fun h u => h.update u.1 u.2) h

@[simp] theorem feed_nil (h : HysteresisState F) : h.feed [] = h := rfl

@[simp] theorem feed_cons (h : HysteresisState F) (u : Update) (updates : List Update) :
    h.feed (u :: updates) = (h.update u.1 u.2).feed updates := rfl

theorem feed_append (h : HysteresisState F) (before after : List Update) :
    h.feed (before ++ after) = (h.feed before).feed after := List.foldl_append

theorem feed_concat (h : HysteresisState F) (updates : List Update) (u : Update) :
    h.feed (updates ++ [u]) = (h.feed updates).update u.1 u.2 := List.foldl_concat ..

@[simp] theorem feed_cfg (h : HysteresisState F) (updates : List Update) :
    (h.feed updates).cfg = h.cfg := by
  induction updates generalizing h with
  | nil => rfl
  | cons u updates ih => rw [feed_cons, ih, update_cfg]

/-- The delay a change to `raw` waits (core.cpp:312). -/
def wait (h : HysteresisState F) (raw : PressureLevel) : F :=
  if h.escalating raw then h.cfg.escalationDelayMs else h.cfg.recoveryDelayMs

/-- What a change to `raw` waits for depends on the configuration and the level. -/
theorem wait_congr {a b : HysteresisState F} (hcfg : a.cfg = b.cfg) (hlevel : a.level = b.level)
    (raw : PressureLevel) : a.wait raw = b.wait raw := by
  have hesc : a.escalating raw ↔ b.escalating raw := by rw [escalating, escalating, hlevel]
  by_cases h : a.escalating raw
  · rw [wait, wait, if_pos h, if_pos (hesc.mp h), hcfg]
  · rw [wait, wait, if_neg h, if_neg (mt hesc.mpr h), hcfg]

theorem emergency_congr {a b : HysteresisState F} (hcfg : a.cfg = b.cfg)
    (hlevel : a.level = b.level) (raw : PressureLevel) : a.emergency raw ↔ b.emergency raw := by
  rw [emergency, emergency, escalating, escalating, hcfg, hlevel]

end HysteresisState

/-! ## The row a window follows -/

/-- The confirmations counted for a row of `n` updates: no more than the cap, and
modulo `2 ^ 32` under the largest cap, which never bites. -/
def confirmations (cap : UInt32) (n : Nat) : Nat :=
  if cap.toNat + 1 = 2 ^ 32 then n % 2 ^ 32 else min n cap.toNat

/-- One more confirmation (core.cpp:306). -/
theorem confirmations_succ {cap obs : UInt32} {n : Nat} (h : obs.toNat = confirmations cap n) :
    (if obs + 1 > cap then cap else obs + 1).toNat = confirmations cap (n + 1) := by
  have hcap := cap.toNat_lt
  have hone : (1 : UInt32).toNat = 1 := rfl
  unfold confirmations at h ⊢
  -- under the largest cap `obs + 1` may wrap, and is never above it
  by_cases hmax : cap.toNat + 1 = 2 ^ 32
  · rw [if_pos hmax] at h ⊢
    have hle : ¬ obs + 1 > cap := by
      rw [gt_iff_lt, UInt32.lt_iff_toNat_lt]
      have := (obs + 1).toNat_lt
      omega
    rw [if_neg hle, UInt32.toNat_add, hone, h]
    omega
  · rw [if_neg hmax] at h ⊢
    have hsum : (obs + 1).toNat = obs.toNat + 1 := by
      rw [UInt32.toNat_add, hone]
      omega
    split_ifs with hgt
    · rw [gt_iff_lt, UInt32.lt_iff_toNat_lt] at hgt
      omega
    · rw [gt_iff_lt, UInt32.lt_iff_toNat_lt] at hgt
      omega

theorem confirmations_le (cap : UInt32) (n : Nat) : confirmations cap n ≤ cap.toNat := by
  unfold confirmations
  split_ifs <;> omega

/-- The row of equal raw levels a run ends with. -/
abbrev rowOf (updates : List Update) : List Update := lastRow Prod.fst updates

/-- What a machine has in view of the updates it was given. -/
structure OnRow (updates : List Update) (h : HysteresisState F) : Prop where
  /-- A pending level is that of the last row, whose first update opened the window. -/
  opened : h.pending ≠ .unknown → (rowOf updates).head? = some (h.pending, h.pendingSinceMs)
  counted : h.pending ≠ .unknown →
    h.pendingObs.toNat = confirmations h.cfg.maxDebounceObservations (rowOf updates).length
  /-- The last row is of the pending level or of the current one. -/
  accounted : ∀ u ∈ rowOf updates, u.1 = h.pending ∨ u.1 = h.level

namespace OnRow

open HysteresisState

variable {updates : List Update} {h : HysteresisState F} {raw : PressureLevel}

theorem new (cfg : HysteresisConfig F) : OnRow [] (HysteresisState.new cfg) where
  opened := fun hp => absurd rfl hp
  counted := fun hp => absurd rfl hp
  accounted := fun u hu => by cases hu

/-- A raw level that is neither current nor pending starts a row. -/
theorem extend_of_not_pending (hf : OnRow updates h) (hne : raw ≠ h.level)
    (hp : h.pending ≠ raw) {nowMs : UInt64} :
    LastRow.extend Prod.fst (rowOf updates) (raw, nowMs) = [(raw, nowMs)] := by
  refine extend_of_ne ?_
  intro u hu heq
  rcases hf.accounted u hu with hpend | hlev
  · exact hp (hpend.symm.trans heq)
  · exact hne (heq.symm.trans hlev)

/-- **The window after one more update** is that of the row it ends. -/
theorem window (hf : OnRow updates h) (hraw : raw ≠ .unknown) (hne : raw ≠ h.level)
    (nowMs : UInt64) :
    (rowOf (updates ++ [(raw, nowMs)])).head? = some (raw, (h.window raw nowMs).pendingSinceMs) ∧
      (h.window raw nowMs).pendingObs.toNat = confirmations h.cfg.maxDebounceObservations
        (rowOf (updates ++ [(raw, nowMs)])).length := by
  rw [rowOf, lastRow_concat]
  by_cases hp : h.pending = raw
  · -- the row goes on
    have hopen := hf.opened (hp ▸ hraw)
    have hcount := confirmations_succ (hf.counted (hp ▸ hraw))
    rw [hp] at hopen
    have hrow : LastRow.extend Prod.fst (rowOf updates) (raw, nowMs)
        = rowOf updates ++ [(raw, nowMs)] :=
      extend_of_key fun u hu =>
        have hkey : u.1 = raw := LastRow.key_eq_of_mem hu (List.mem_of_head? hopen)
        hkey
    rw [hrow, List.head?_append, hopen, List.length_append, List.length_singleton, ← hcount]
    unfold HysteresisState.window
    simp only [hp, ne_eq, not_true_eq_false, if_false]
    split_ifs <;> exact ⟨rfl, rfl⟩
  · -- a new row opens
    have hzero : (0 : UInt32).toNat = confirmations h.cfg.maxDebounceObservations 0 := by
      unfold confirmations
      split_ifs <;> simp
    have hcount := confirmations_succ hzero
    have hone : (0 : UInt32) + 1 = 1 := rfl
    rw [hone] at hcount
    rw [hf.extend_of_not_pending hne hp, List.length_singleton, ← hcount]
    unfold HysteresisState.window
    simp only [hp, ne_eq, not_false_eq_true, if_true]
    split_ifs <;> exact ⟨rfl, rfl⟩

/-- **One update** keeps the machine on the last row. -/
theorem update (hf : OnRow updates h) (raw : PressureLevel) (nowMs : UInt64) :
    OnRow (updates ++ [(raw, nowMs)]) (h.update raw nowMs) := by
  have hlast : ∀ {h' : HysteresisState F}, h'.pending = raw ∨ h'.level = raw →
      ∀ u ∈ rowOf (updates ++ [(raw, nowMs)]), u.1 = h'.pending ∨ u.1 = h'.level := by
    intro h' hor u hu
    have hkey : u.1 = raw := LastRow.key_of_mem_concat hu
    rw [hkey]
    exact hor.imp Eq.symm Eq.symm
  have hclosed : ∀ {h' : HysteresisState F}, h'.pending = .unknown → h'.level = raw →
      OnRow (updates ++ [(raw, nowMs)]) h' := fun hp hl =>
    ⟨fun hopen => absurd hp hopen, fun hopen => absurd hp hopen, hlast (Or.inr hl)⟩
  unfold HysteresisState.update
  split_ifs with hcur hem
  · exact hclosed rfl hcur.symm
  · exact hclosed rfl rfl
  · show OnRow _ (if (h.window raw nowMs).due raw nowMs then _ else _)
    split_ifs with hdue
    · exact hclosed rfl rfl
    · have hpend := window_pending h raw nowMs
      refine ⟨fun hopen => ?_, fun hopen => ?_, hlast (Or.inl hpend)⟩
      · rw [hpend] at hopen ⊢
        exact (hf.window hopen hcur nowMs).1
      · rw [hpend] at hopen
        rw [window_cfg]
        exact (hf.window hopen hcur nowMs).2

/-- **Every machine follows its updates.** -/
theorem feed (cfg : HysteresisConfig F) (updates : List Update) :
    OnRow updates ((HysteresisState.new cfg).feed updates) := by
  induction updates using List.reverseRecOn with
  | nil => exact .new cfg
  | append_singleton updates u ih =>
    rw [feed_concat]
    exact ih.update u.1 u.2

end OnRow

/-- The row has as many confirmations as a change needs, and began as long ago
as the change waits. -/
def RowDue (cfg : HysteresisConfig F) (wait : F) (row : List Update) (nowMs : UInt64) : Prop :=
  cfg.minDwellObservations.toNat ≤ confirmations cfg.maxDebounceObservations row.length ∧
    ∀ first ∈ row.head?, cfg.minDwellDurationMs ≤ Double.ofUInt64 (nowMs - first.2) ∧
      wait ≤ Double.ofUInt64 (nowMs - first.2)

/-- **An update commits** exactly when the row it ends is due. -/
theorem OnRow.confirms_iff {updates : List Update} {h : HysteresisState F}
    (hf : OnRow updates h) {raw : PressureLevel} (hraw : raw ≠ .unknown) (hne : raw ≠ h.level)
    (nowMs : UInt64) :
    h.confirms raw nowMs
      ↔ RowDue h.cfg (h.wait raw) (rowOf (updates ++ [(raw, nowMs)])) nowMs := by
  obtain ⟨hopen, hcount⟩ := hf.window hraw hne nowMs
  have hesc : (h.window raw nowMs).escalating raw ↔ h.escalating raw := by
    unfold HysteresisState.escalating
    rw [HysteresisState.window_level]
  rw [HysteresisState.confirms, HysteresisState.due, HysteresisState.window_cfg, RowDue, ← hcount,
    hopen, HysteresisState.wait]
  simp only [hesc, Option.mem_some_iff, forall_eq', ge_iff_le, UInt32.le_iff_toNat_le]

/-! ## A row of one raw level -/

/-- Updates with the current level keep it. -/
theorem feed_level_of_current {raw : PressureLevel} {updates : List Update}
    (hupdates : ∀ u ∈ updates, u.1 = raw) {h : HysteresisState F} (hcur : h.level = raw) :
    (h.feed updates).level = raw := by
  induction updates generalizing h with
  | nil => exact hcur
  | cons u updates ih =>
    refine ih (fun v hv => hupdates v (List.mem_cons_of_mem u hv)) ?_
    have hu : u.1 = h.level := (hupdates u List.mem_cons_self).trans hcur.symm
    rw [HysteresisState.update_level, if_pos (Or.inl hu), hu, hcur]

/-- Updates with one raw level either make it current or change nothing. -/
theorem feed_level_of_ne {raw : PressureLevel} {updates : List Update}
    (hupdates : ∀ u ∈ updates, u.1 = raw) {h : HysteresisState F}
    (hne : (h.feed updates).level ≠ raw) : h.level = (h.feed updates).level := by
  induction updates generalizing h with
  | nil => rfl
  | cons u updates ih =>
    have hrest : ∀ v ∈ updates, v.1 = raw := fun v hv => hupdates v (List.mem_cons_of_mem u hv)
    have hsame := ih hrest hne
    rw [HysteresisState.feed_cons, ← hsame, HysteresisState.update_level, if_neg]
    intro hadopt
    have hlevel : (h.update u.1 u.2).level = raw := by
      rw [HysteresisState.update_level, if_pos hadopt]
      exact hupdates u List.mem_cons_self
    exact hne (feed_level_of_current hrest hlevel)

/-- The updates with one raw level at these times. -/
theorem fst_of_mem_map {raw : PressureLevel} {times : List UInt64} :
    ∀ u ∈ times.map fun t => (raw, t), u.1 = raw := by
  intro u hu
  obtain ⟨t, -, rfl⟩ := List.mem_map.mp hu
  rfl

/-- Without an emergency, updates with one raw level other than the current one
make it current exactly when one of them ends a row that is due. -/
theorem feed_level_iff {raw : PressureLevel} (hraw : raw ≠ .unknown) {times : List UInt64}
    {updates : List Update} {h : HysteresisState F} (hf : OnRow updates h)
    (hne : raw ≠ h.level) (hem : ¬ h.emergency raw) :
    (h.feed (times.map fun t => (raw, t))).level = raw ↔
      ∃ before t after, times = before ++ t :: after ∧
        RowDue h.cfg (h.wait raw)
          (rowOf (updates ++ (before ++ [t]).map fun t => (raw, t))) t := by
  induction times generalizing updates h with
  | nil =>
    refine iff_of_false (fun heq => hne heq.symm) ?_
    rintro ⟨before, t, after, heq, -⟩
    simp at heq
  | cons t times ih =>
    have hconfirms := hf.confirms_iff hraw hne t
    show ((h.update raw t).feed _).level = raw ↔ _
    by_cases hdue : h.confirms raw t
    · -- due at once, and the level stays
      refine iff_of_true (feed_level_of_current fst_of_mem_map ?_)
        ⟨[], t, times, rfl, hconfirms.mp hdue⟩
      rw [HysteresisState.update_level, if_pos (Or.inr (Or.inr hdue))]
    · have hlevel : (h.update raw t).level = h.level := by
        rw [HysteresisState.update_level, if_neg]
        rintro (hcur | hnow | hnow)
        · exact hne hcur
        · exact hem hnow
        · exact hdue hnow
      have hcfg := HysteresisState.update_cfg h raw t
      have hrest := ih (hf.update raw t) (by rwa [hlevel])
        (mt (HysteresisState.emergency_congr hcfg hlevel raw).mp hem)
      rw [hcfg, HysteresisState.wait_congr hcfg hlevel] at hrest
      -- this update ends no row that is due, so a later one does
      have hnot : ¬ RowDue h.cfg (h.wait raw)
          (rowOf (updates ++ ([] ++ [t]).map fun t => (raw, t))) t := mt hconfirms.mpr hdue
      rw [hrest, exists_split_cons, or_iff_right hnot]
      simp only [List.append_assoc, List.cons_append, List.nil_append, List.map_cons]

/-- What `double` promises of times: the order is transitive, and conversion from
integers keeps it and the sign. -/
class OrderedTimes (F : Type) [Double F] : Prop where
  le_trans : ∀ a b c : F, a ≤ b → b ≤ c → a ≤ c
  ofInt_le : ∀ m n : Int, m ≤ n → (Double.ofInt m : F) ≤ Double.ofInt n
  zero_le : (0.0 : F) ≤ Double.ofInt 0

instance : OrderedTimes ℚ where
  le_trans := fun _ _ _ => Rat.le_trans
  ofInt_le := fun _ _ h => Rat.intCast_le_intCast.mpr h
  zero_le := by decide +kernel

/-- The counter does not wrap over the row, and the row did not begin at a later
time than the one given. -/
def InTimeOrder (cfg : HysteresisConfig F) (row : List Update) (since : UInt64) : Prop :=
  (cfg.maxDebounceObservations.toNat + 1 < 2 ^ 32 ∨ row.length < 2 ^ 32) ∧
    ∀ opener ∈ row.head?, opener.2 ≤ since

instance (cfg : HysteresisConfig F) (row : List Update) (since : UInt64) :
    Decidable (InTimeOrder cfg row since) :=
  haveI : Decidable (∀ opener ∈ row.head?, opener.2 ≤ since) :=
    decidable_of_iff (row.head?.all (·.2 ≤ since)) (by cases row.head? <;> simp)
  inferInstanceAs (Decidable ((_ ∨ _) ∧ _))

/-- Time only adds to what has elapsed since an earlier time. -/
theorem elapsed_le [OrderedTimes F] {opener first last : UInt64} (hopener : opener ≤ first)
    (hlast : first ≤ last) :
    (Double.ofUInt64 (last - first) : F) ≤ Double.ofUInt64 (last - opener) := by
  refine OrderedTimes.ofInt_le _ _ ?_
  rw [UInt64.toNat_sub_of_le _ _ hlast, UInt64.toNat_sub_of_le _ _ (UInt64.le_trans hopener hlast)]
  rw [UInt64.le_iff_toNat_le] at hopener hlast
  omega

/-- A row in time order, long enough in number and in time, is due under a cap
that lets it be. -/
theorem InTimeOrder.rowDue [OrderedTimes F] {cfg : HysteresisConfig F} {row : List Update}
    {wait : F} {first last : UInt64} (h : InTimeOrder cfg row first)
    (hcap : cfg.minDwellObservations ≤ cfg.maxDebounceObservations)
    (hmany : cfg.minDwellObservations.toNat ≤ row.length) (hlast : first ≤ last)
    (hdwell : cfg.minDwellDurationMs ≤ Double.ofUInt64 (last - first))
    (hwait : wait ≤ Double.ofUInt64 (last - first)) : RowDue cfg wait row last := by
  obtain ⟨hwrap, hopener⟩ := h
  refine ⟨?_, fun opener ho => ?_⟩
  · rw [UInt32.le_iff_toNat_le] at hcap
    unfold confirmations
    split_ifs with hmax
    · rw [Nat.mod_eq_of_lt (hwrap.resolve_left (by omega))]
      exact hmany
    · exact Nat.le_min.mpr ⟨hmany, hcap⟩
  · have hle := elapsed_le (F := F) (hopener opener ho) hlast
    exact ⟨OrderedTimes.le_trans _ _ _ hdwell hle, OrderedTimes.le_trans _ _ _ hwait hle⟩

/-- The dwell is at least one observation (core.cpp:129). -/
theorem minDwell_pos {p : PressurePolicy F} (hp : validatePolicy p = none) :
    0 < p.hysteresis.minDwellObservations.toNat := by
  unfold validatePolicy at hp
  split_ifs at hp with _ _ _ _ hdwell
  exact Nat.pos_of_ne_zero fun hzero => hdwell (UInt32.toNat_inj.mp hzero)

/-- **Debounce progress, exactly when**: of a machine in any reachable state, let
a row of updates with one raw level, other than the current one, be as many as
the dwell and last as long as the dwell and the delay. Then that level is current
afterwards if and only if it is an emergency, or the cap lets the counter reach
the dwell and

- the row is in time order, or
- nevertheless one of the updates comes when the row is due. -/
theorem debounce_progress_iff [OrderedTimes F] {p : PressurePolicy F}
    (hp : validatePolicy p = none) (updates : List Update) {raw : PressureLevel}
    (hraw : raw ≠ .unknown) (hne : raw ≠ ((HysteresisState.new p.hysteresis).feed updates).current)
    {times : List UInt64} (hsorted : times.Pairwise (· ≤ ·))
    (hmany : p.hysteresis.minDwellObservations.toNat ≤ times.length)
    (hlong : ∀ first ∈ times.head?, ∀ last ∈ times.getLast?,
      p.hysteresis.minDwellDurationMs ≤ Double.ofUInt64 (last - first) ∧
        ((HysteresisState.new p.hysteresis).feed updates).wait raw
          ≤ Double.ofUInt64 (last - first)) :
    (((HysteresisState.new p.hysteresis).feed updates).feed
        (times.map fun t => (raw, t))).current = raw ↔
      ((HysteresisState.new p.hysteresis).feed updates).emergency raw ∨
        (p.hysteresis.minDwellObservations ≤ p.hysteresis.maxDebounceObservations ∧
          ((∀ first ∈ times.head?, InTimeOrder p.hysteresis
              (rowOf (updates ++ times.map fun t => (raw, t))) first) ∨
            ∃ before t after, times = before ++ t :: after ∧
              RowDue p.hysteresis (((HysteresisState.new p.hysteresis).feed updates).wait raw)
                (rowOf (updates ++ (before ++ [t]).map fun t => (raw, t))) t)) := by
  have hf := OnRow.feed p.hysteresis updates
  have hcfg : ((HysteresisState.new p.hysteresis).feed updates).cfg = p.hysteresis :=
    HysteresisState.feed_cfg ..
  generalize (HysteresisState.new p.hysteresis).feed updates = h at hne hlong hf hcfg ⊢
  obtain ⟨first, rest, rfl⟩ : ∃ first rest, times = first :: rest :=
    List.exists_cons_of_length_pos (Nat.lt_of_lt_of_le (minDwell_pos hp) hmany)
  by_cases hem : h.emergency raw
  · have hfirst : (h.update raw first).level = raw := by
      rw [HysteresisState.update_level, if_pos (Or.inr (Or.inl hem))]
    refine iff_of_true ?_ (Or.inl hem)
    show ((h.update raw first).feed (rest.map fun t => (raw, t))).level = raw
    exact feed_level_of_current fst_of_mem_map hfirst
  show (h.feed _).level = raw ↔ _
  rw [feed_level_iff hraw hf hne hem, hcfg]
  constructor
  -- a row that is due has as many confirmations as the dwell, which the cap allows
  · rintro ⟨before, t, after, heq, hdue⟩
    refine Or.inr ⟨?_, Or.inr ⟨before, t, after, heq, hdue⟩⟩
    exact UInt32.le_iff_toNat_le.mpr (Nat.le_trans hdue.1 (confirmations_le _ _))
  · rintro (hnow | ⟨hcap, horder | hdue⟩)
    · exact absurd hnow hem
    · -- the last of the updates ends a row that is due
      obtain ⟨before, last, heq⟩ : ∃ before last, first :: rest = before ++ [last] := by
        rcases List.eq_nil_or_concat (first :: rest) with hnil | ⟨before, last, heq⟩
        · cases hnil
        · exact ⟨before, last, heq.trans (List.concat_eq_append ..)⟩
      have hgetLast : last ∈ (first :: rest).getLast? := by
        rw [heq, List.getLast?_concat]
        exact rfl
      have hlast : first ≤ last := by
        rcases List.mem_cons.mp (List.mem_of_getLast? hgetLast) with rfl | hin
        · exact UInt64.le_refl _
        · exact List.rel_of_pairwise_cons hsorted hin
      obtain ⟨hdwell, hwait⟩ := hlong first rfl last hgetLast
      refine ⟨before, last, [], heq, ?_⟩
      rw [← heq]
      refine (horder first rfl).rowDue hcap (Nat.le_trans hmany ?_) hlast hdwell hwait
      have hrow : ((first :: rest).map fun t => (raw, t))
          <:+ rowOf (updates ++ (first :: rest).map fun t => (raw, t)) :=
        LastRow.suffix_lastRow fst_of_mem_map
      have hlen := hrow.length_le
      rwa [List.length_map] at hlen
    · exact hdue

/-- The default policy with the cap set below the dwell. -/
def cappedPolicy : PressurePolicy ℚ :=
  { defaultPolicy with hysteresis := { maxDebounceObservations := 1 } }

/-- Under the default policy three updates make `High` current. -/
theorem debounce_progress_default :
    (((HysteresisState.new (defaultPolicy : PressurePolicy ℚ).hysteresis).feed []).feed
      ([0, 1000, 2000].map fun t => (.high, t))).current = .high := by
  refine (debounce_progress_iff validatePolicy_defaultPolicy [] (by decide) (by decide)
    (by decide) (by decide) ?_).mpr (Or.inr ⟨by decide, Or.inl ?_⟩)
  · intro first hfirst last hlast
    cases hfirst
    cases hlast
    constructor <;> decide +kernel
  · intro first hfirst
    cases hfirst
    decide +kernel

/-- **Not always**: with the cap below the dwell, which is accepted, no row of
`High` is ever confirmed. -/
theorem debounce_capped :
    validatePolicy cappedPolicy = none ∧
      ([0, 1000, 2000] : List UInt64).Pairwise (· ≤ ·) ∧
      cappedPolicy.hysteresis.minDwellObservations.toNat ≤ ([0, 1000, 2000] : List UInt64).length ∧
      cappedPolicy.hysteresis.minDwellDurationMs ≤ Double.ofUInt64 (2000 - 0) ∧
      (HysteresisState.new cappedPolicy.hysteresis).wait .high ≤ Double.ofUInt64 (2000 - 0) ∧
      ((HysteresisState.new cappedPolicy.hysteresis).feed
        ([0, 1000, 2000].map fun t => (.high, t))).current ≠ .high := by
  decide +kernel

/-! ## Delays -/

/-- When the raw level of an update was first seen: at the start of the row of
updates with that level that it ends. -/
def firstSeen (updates : List Update) (raw : PressureLevel) (nowMs : UInt64) : UInt64 :=
  ((rowOf (updates ++ [(raw, nowMs)])).headD (raw, nowMs)).2

/-- What `double` promises of comparisons with integers: `atMost x n` is the
exact comparison of a number with an integer, `rounded n` the integer that the
conversion of `n` yields. The conversion compares as that integer does, and no
number lies between an integer and what it is rounded to. -/
class ComparesIntegers (F : Type) [Double F] where
  atMost : F → Int → Prop
  rounded : Int → Int
  atMost_mono : ∀ x m n, m ≤ n → atMost x m → atMost x n
  le_ofInt_iff : ∀ x n, x ≤ Double.ofInt n ↔ atMost x (rounded n)
  ofInt_le_iff : ∀ x n, atMost x (rounded n) → n < rounded n → (Double.ofInt n ≤ x ↔ ¬ atMost x n)

instance : ComparesIntegers ℚ where
  atMost := fun x n => x ≤ n
  rounded := id
  atMost_mono := fun _ _ _ hle h => Rat.le_trans h (Rat.intCast_le_intCast.mpr hle)
  le_ofInt_iff := fun _ _ => Iff.rfl
  ofInt_le_iff := fun _ n _ hlt => absurd hlt (lt_irrefl n)

open ComparesIntegers (atMost rounded)

/-- The elapsed time is rounded up to the delay, which it does not reach. -/
def RoundsUpTo [ComparesIntegers F] (elapsed : Int) (delay : F) : Prop :=
  elapsed < rounded F elapsed ∧ Double.ofInt elapsed ≤ delay

/-- A delay that the converted time has reached was reached unless the time was
rounded up to it. -/
theorem atMost_iff [ComparesIntegers F] {elapsed : Int} {delay : F}
    (h : delay ≤ Double.ofInt elapsed) : atMost delay elapsed ↔ ¬ RoundsUpTo elapsed delay := by
  have hround := (ComparesIntegers.le_ofInt_iff delay elapsed).mp h
  unfold RoundsUpTo
  by_cases hup : elapsed < rounded F elapsed
  · rw [ComparesIntegers.ofInt_le_iff delay elapsed hround hup]
    simp [hup]
  · refine iff_of_true ?_ fun hboth => hup hboth.1
    exact ComparesIntegers.atMost_mono _ _ _ (not_lt.mp hup) hround

/-- **Delays are honoured, exactly when**: let an update commit a change that is
no emergency. Its raw level was first seen as long ago as the dwell and the delay
ask for if and only if

- the clock is not behind that time, and what has elapsed since is not rounded
  up to the dwell or the delay, or
- the clock is behind that time by no more than both are negative. -/
theorem delays_honoured_iff [ComparesIntegers F] (cfg : HysteresisConfig F)
    (updates : List Update) (raw : PressureLevel) (nowMs : UInt64) (hraw : raw ≠ .unknown)
    (hne : raw ≠ ((HysteresisState.new cfg).feed updates).current)
    (hem : ¬ ((HysteresisState.new cfg).feed updates).emergency raw)
    (hcommit : (((HysteresisState.new cfg).feed updates).update raw nowMs).current = raw) :
    (atMost cfg.minDwellDurationMs
        ((nowMs.toNat : Int) - (firstSeen updates raw nowMs).toNat) ∧
      atMost (((HysteresisState.new cfg).feed updates).wait raw)
        ((nowMs.toNat : Int) - (firstSeen updates raw nowMs).toNat)) ↔
    (firstSeen updates raw nowMs ≤ nowMs ∧
        ¬ RoundsUpTo ((nowMs.toNat : Int) - (firstSeen updates raw nowMs).toNat)
          cfg.minDwellDurationMs ∧
        ¬ RoundsUpTo ((nowMs.toNat : Int) - (firstSeen updates raw nowMs).toNat)
          (((HysteresisState.new cfg).feed updates).wait raw)) ∨
      (nowMs < firstSeen updates raw nowMs ∧
        atMost cfg.minDwellDurationMs
          (-((firstSeen updates raw nowMs).toNat - nowMs.toNat : Int)) ∧
        atMost (((HysteresisState.new cfg).feed updates).wait raw)
          (-((firstSeen updates raw nowMs).toNat - nowMs.toNat : Int))) := by
  have hf := OnRow.feed cfg updates
  have hcfg : ((HysteresisState.new cfg).feed updates).cfg = cfg :=
    HysteresisState.feed_cfg ..
  generalize (HysteresisState.new cfg).feed updates = h at hne hem hcommit hf hcfg ⊢
  -- neither current nor an emergency, the change was confirmed by this update
  have hconfirms : h.confirms raw nowMs := by
    by_contra hnot
    have hlevel := HysteresisState.update_level h raw nowMs
    rw [if_neg] at hlevel
    · exact hne (hcommit.symm.trans hlevel)
    · rintro (hcur | hnow | hdue)
      · exact hne hcur
      · exact hem hnow
      · exact hnot hdue
  obtain ⟨-, hdue⟩ := (hf.confirms_iff hraw hne nowMs).mp hconfirms
  rw [hcfg] at hdue
  obtain ⟨opener, hopener⟩ : ∃ opener, (rowOf (updates ++ [(raw, nowMs)])).head? = some opener :=
    ⟨_, (hf.window hraw hne nowMs).1⟩
  obtain ⟨hdwell, hwait⟩ := hdue opener hopener
  have hseen : firstSeen updates raw nowMs = opener.2 := by
    rw [firstSeen, List.headD_eq_head?_getD, hopener]
    rfl
  rw [hseen]
  by_cases hback : opener.2 ≤ nowMs
  · -- the difference does not wrap
    have helapsed : (Double.ofUInt64 (nowMs - opener.2) : F)
        = Double.ofInt ((nowMs.toNat : Int) - opener.2.toNat) := by
      rw [Double.ofUInt64, UInt64.toNat_sub_of_le _ _ hback,
        Int.ofNat_sub (UInt64.le_iff_toNat_le.mp hback)]
    rw [helapsed] at hdwell hwait
    rw [atMost_iff hdwell, atMost_iff hwait]
    simp only [hback, true_and, UInt64.not_lt.mpr hback, false_and, or_false]
  -- the clock is behind: nothing is promised but what the difference itself gives
  · have hlt : nowMs < opener.2 := UInt64.not_le.mp hback
    rw [Int.neg_sub]
    simp only [hback, false_and, hlt, true_and, false_or]

/-- The default debounce with a dwell of one second. -/
def dwellingPolicy : PressurePolicy ℚ :=
  { defaultPolicy with hysteresis := { minDwellDurationMs := 1000 } }

/-- One second after it is first seen, a level is committed. -/
theorem delays_honoured_second :
    ((HysteresisState.new dwellingPolicy.hysteresis).feed [(.high, 1000), (.high, 2000)]).current
        = .high ∧
      atMost dwellingPolicy.hysteresis.minDwellDurationMs
        (((2000 : UInt64).toNat : Int) - (firstSeen [(.high, 1000)] .high 2000).toNat) := by
  refine ⟨by decide +kernel, ?_⟩
  have hboth := (delays_honoured_iff dwellingPolicy.hysteresis [(.high, 1000)] .high 2000
    (by decide) (by decide +kernel) (by decide +kernel) (by decide +kernel)).mpr
    (Or.inl ⟨by decide +kernel, fun h => lt_irrefl _ h.1, fun h => lt_irrefl _ h.1⟩)
  exact hboth.1

/-- **Not always**: first seen at 5000 and seen again after the clock was set back
to 0, a level is committed at once. -/
theorem delay_underflows :
    validatePolicy dwellingPolicy = none ∧
      ((HysteresisState.new dwellingPolicy.hysteresis).feed [(.high, 5000)]).current = .normal ∧
      ¬ ((HysteresisState.new dwellingPolicy.hysteresis).feed [(.high, 5000)]).emergency .high ∧
      ((HysteresisState.new dwellingPolicy.hysteresis).feed [(.high, 5000), (.high, 0)]).current
        = .high ∧
      firstSeen [(.high, 5000)] .high 0 = 5000 ∧
      ¬ atMost dwellingPolicy.hysteresis.minDwellDurationMs
        (((0 : UInt64).toNat : Int) - (firstSeen [(.high, 5000)] .high 0).toNat) := by
  refine ⟨by decide +kernel, by decide +kernel, by decide +kernel, by decide +kernel,
    by decide +kernel, ?_⟩
  show ¬ (1000 : ℚ) ≤ (((0 : Int) - 5000 : Int) : ℚ)
  decide +kernel

end MemoryPressure
