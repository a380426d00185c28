import MemoryPressure.Foundation.Keyed
import Mathlib.Algebra.BigOperators.Group.Finset.Basic
import Mathlib.Algebra.Order.BigOperators.Group.Finset
import Mathlib.Algebra.GroupWithZero.Nat

/-!
# Potentials of machines kept in a finite map

The potential method for `Keyed.feed`: every state of the map weighs something,
and an item pays for what it makes its machine put out, up to what the machine
has saved. A machine that comes into being brings its first weight along, and has to be
paid for once.

- `total`: what the states of a map weigh together. `total_insert` exchanges the weight
  of one state, `total_mono` and `total_le` compare maps.
- `births`: the keys items bring that the map does not have, each once.
- `feed_amortized`: what a feed gains is covered by what the items cost, what the
  map weighed, and what the machines they start weigh at first.

The rule asks for one inequality of one step of one machine and gives one for the whole
feed, with the total weight of the map on either side. Chained over the feeds of a run
it bounds how often the outputs can change against how much was fed, with no reference
to how the items of different keys interleave.
-/

namespace Keyed

universe u v w x

variable {κ : Type u} {σ : Type v} {ι : Type w} {ο : Type x} [DecidableEq κ]

/-! ## Weights -/

/-- What a map's state of one key weighs: nothing, if there is none. -/
def weight (w : σ → Nat) (m : Finmap fun _ : κ => σ) (k : κ) : Nat := (m.lookup k).elim 0 w

/-- What the states of a map weigh together. -/
def total (w : σ → Nat) (m : Finmap fun _ : κ => σ) : Nat := ∑ k ∈ m.keys, weight w m k

variable {w : σ → Nat} {m : Finmap fun _ : κ => σ}

theorem weight_of_notMem {k : κ} (h : k ∉ m) : weight w m k = 0 := by
  rw [weight, Finmap.lookup_eq_none.mpr h]
  rfl

/-- The total can be taken over any keys that include those of the map. -/
theorem total_eq_sum {s : Finset κ} (h : m.keys ⊆ s) : total w m = ∑ k ∈ s, weight w m k :=
  Finset.sum_subset h fun _ _ hk => weight_of_notMem (mt Finmap.mem_keys.mpr hk)

@[simp] theorem total_empty : total w (∅ : Finmap fun _ : κ => σ) = 0 := rfl

/-- **Replacing a state** replaces what it weighs. -/
theorem total_insert (m : Finmap fun _ : κ => σ) (k : κ) (s : σ) :
    total w (m.insert k s) + weight w m k = total w m + w s := by
  have hold : m.keys ⊆ insert k m.keys := Finset.subset_insert ..
  have hnew : (m.insert k s).keys ⊆ insert k m.keys := by
    intro k' hk'
    rw [Finmap.mem_keys, Finmap.mem_insert] at hk'
    rw [Finset.mem_insert, Finmap.mem_keys]
    exact hk'
  rw [total_eq_sum hnew, total_eq_sum hold]
  have hk : k ∈ insert k m.keys := Finset.mem_insert_self ..
  rw [← Finset.add_sum_erase _ (weight w (m.insert k s)) hk,
    ← Finset.add_sum_erase _ (weight w m) hk]
  have hrest : ∑ k' ∈ (insert k m.keys).erase k, weight w (m.insert k s) k'
      = ∑ k' ∈ (insert k m.keys).erase k, weight w m k' := by
    refine Finset.sum_congr rfl fun k' hk' => ?_
    rw [weight, weight, Finmap.lookup_insert_of_ne _ (Finset.ne_of_mem_erase hk')]
  have hself : weight w (m.insert k s) k = w s := by
    rw [weight, Finmap.lookup_insert]
    rfl
  rw [hrest, hself]
  omega

/-- A map with fewer states weighs no more. -/
theorem total_mono {m' : Finmap fun _ : κ => σ}
    (h : ∀ k s, m'.lookup k = some s → m.lookup k = some s) : total w m' ≤ total w m := by
  have hsub : m'.keys ⊆ m.keys := by
    intro k hk
    rw [Finmap.mem_keys, Finmap.mem_iff] at hk ⊢
    obtain ⟨s, hs⟩ := hk
    exact ⟨s, h k s hs⟩
  rw [total_eq_sum hsub]
  refine Finset.sum_le_sum fun k _ => ?_
  cases hs : m'.lookup k with
  | none => simp [weight, hs]
  | some s => simp [weight, hs, h k s hs]

/-- A map whose states weigh at most `n` weighs at most `n` for each. -/
theorem total_le {n : Nat} (h : ∀ k s, m.lookup k = some s → w s ≤ n) :
    total w m ≤ n * m.keys.card := by
  refine (Finset.sum_le_card_nsmul _ _ n fun k _ => ?_).trans (le_of_eq (Nat.mul_comm ..))
  cases hs : m.lookup k with
  | none => simp [weight, hs]
  | some s => simpa [weight, hs] using h k s hs

/-! ## Feeds -/

/-- The keys that items bring and the map does not have. -/
def births (key : ι → κ) (m : Finmap fun _ : κ => σ) (is : List ι) : Nat :=
  ((is.map key).toFinset \ m.keys).card

/-- An item whose key is there brings none, and one whose key is not brings one. -/
theorem births_cons (key : ι → κ) (m : Finmap fun _ : κ => σ) (i : ι) (is : List ι) (s : σ) :
    births key m (i :: is)
      = births key (m.insert (key i) s) is + if key i ∈ m then 0 else 1 := by
  have hkeys : (m.insert (key i) s).keys = insert (key i) m.keys := by
    ext k
    rw [Finmap.mem_keys, Finmap.mem_insert, Finset.mem_insert, Finmap.mem_keys]
  unfold births
  rw [hkeys, List.map_cons, List.toFinset_cons]
  by_cases hk : key i ∈ m
  · have hmem : key i ∈ m.keys := Finmap.mem_keys.mpr hk
    rw [if_pos hk, Finset.insert_sdiff_of_mem _ hmem, Finset.insert_eq_of_mem hmem, Nat.add_zero]
  · have hmem : key i ∉ m.keys := mt Finmap.mem_keys.mp hk
    rw [if_neg hk, ← Finset.card_insert_of_notMem
      (s := (is.map key).toFinset \ insert (key i) m.keys)
      (a := key i) (by simp)]
    congr 1
    ext k
    simp only [Finset.mem_sdiff, Finset.mem_insert]
    by_cases hki : k = key i
    · simp [hki, hmem]
    · simp [hki]

variable (start : σ) (key : ι → κ) (step : σ → ι → σ × ο)

/-- **The potential method for a feed.** Where every step's gain and what its machine
weighs after it are paid by what it weighed before and the cost of the item, the gain
of a feed and what the map weighs after it are paid by what the map weighed before,
the cost of the items, and the first weight of every machine they start. -/
theorem feed_amortized (cost : ι → Nat) (gain : ο → Nat) {P : σ → Prop} (hstart : P start)
    (hstep : ∀ s i, P s → P (step s i).1 ∧ w (step s i).1 + gain (step s i).2 ≤ w s + cost i)
    (is : List ι) (hm : ∀ k s, m.lookup k = some s → P s) :
    total w (feed start key step m is).1 + ((feed start key step m is).2.map gain).sum
      ≤ total w m + (is.map cost).sum + w start * births key m is := by
  induction is generalizing m with
  | nil => simp [feed, births]
  | cons i is ih =>
    simp only [feed, List.map_cons, List.sum_cons]
    -- the machine of the item, and what it weighs in the map
    have hcur : P ((m.lookup (key i)).getD start) := by
      cases hl : m.lookup (key i) with
      | none => exact hstart
      | some s => exact hm _ _ hl
    obtain ⟨hP, hpay⟩ := hstep _ i hcur
    have hrest := ih (m := m.insert (key i) (step ((m.lookup (key i)).getD start) i).1)
      fun k s hs => by
        by_cases hk : k = key i
        · rw [hk, Finmap.lookup_insert] at hs
          exact Option.some.inj hs ▸ hP
        · rw [Finmap.lookup_insert_of_ne _ hk] at hs
          exact hm k s hs
    have hinsert := total_insert (w := w) m (key i) (step ((m.lookup (key i)).getD start) i).1
    rw [births_cons key m i is (step ((m.lookup (key i)).getD start) i).1, Nat.mul_add]
    by_cases hk : key i ∈ m
    · obtain ⟨s, hs⟩ := Finmap.mem_iff.mp hk
      have hweight : weight w m (key i) = w s := by
        rw [weight, hs]
        rfl
      rw [if_pos hk, Nat.mul_zero]
      rw [hs, Option.getD_some] at hrest hinsert hpay ⊢
      omega
    · have hnone := Finmap.lookup_eq_none.mpr hk
      have hweight := weight_of_notMem (w := w) hk
      rw [if_neg hk, Nat.mul_one]
      rw [hnone, Option.getD_none] at hrest hinsert hpay ⊢
      omega

end Keyed
