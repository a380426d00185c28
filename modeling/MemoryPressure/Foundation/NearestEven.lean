import Mathlib.Algebra.Order.Ring.Int

/-!
# Rounding integers to a number of significant bits

`roundNat p n` is `n` to the nearest number of `p` significant bits, and at a tie
to the one whose last bit is even; `roundInt` is the same of an integer, by its
magnitude. With `p = 53` this is what the conversion of a 64-bit integer to a double
does, as long as no exponent overflows.

- `roundNat_of_le`: numbers up to `2 ^ p` stay as they are.
- `roundNat_mono`, `roundInt_mono`: rounding keeps the order.

For the order, numbers of one length are rounded to multiples of one power of two, where
the quotient decides, and among equal quotients the remainder (`roundShift_mono`).
Numbers of different lengths have a power of two between them, which stays as it is
(`two_pow_log2_le_roundNat`, `roundNat_le_two_pow`), and rounding does not cross it.

Nothing here speaks of floating-point formats: exponents, subnormal numbers and
infinities are for the user of the module to exclude.
-/

namespace NearestEven

/-- `n` to the nearest multiple of `2 ^ e`, at a tie to the even one. -/
def roundShift (e n : Nat) : Nat :=
  if 2 ^ e < 2 * (n % 2 ^ e) ∨ (2 * (n % 2 ^ e) = 2 ^ e ∧ n / 2 ^ e % 2 = 1) then
    (n / 2 ^ e + 1) * 2 ^ e
  else n / 2 ^ e * 2 ^ e

/-- `n` to `p` significant bits. -/
def roundNat (p n : Nat) : Nat := roundShift (n.log2 + 1 - p) n

/-- An integer to `p` significant bits. -/
def roundInt (p : Nat) : Int → Int
  | .ofNat n => roundNat p n
  | .negSucc n => -roundNat p (n + 1)

example : [9, 10, 11, 12, 13, 14, 15].map (roundNat 3) = [8, 10, 12, 12, 12, 14, 16] := by decide

/-! ## Multiples of a power of two -/

theorem roundShift_mul (e k : Nat) : roundShift e (k * 2 ^ e) = k * 2 ^ e := by
  have hpos : 0 < 2 ^ e := Nat.two_pow_pos e
  rw [roundShift, Nat.mul_mod_left, Nat.mul_div_cancel _ hpos, if_neg (by omega)]

theorem roundShift_zero (n : Nat) : roundShift 0 n = n := by
  have h := roundShift_mul 0 n
  rwa [Nat.pow_zero, Nat.mul_one] at h

theorem div_mul_le_roundShift (e n : Nat) : n / 2 ^ e * 2 ^ e ≤ roundShift e n := by
  rw [roundShift]
  split_ifs
  · exact Nat.mul_le_mul_right _ (Nat.le_succ _)
  · exact le_rfl

theorem roundShift_le_succ_mul (e n : Nat) : roundShift e n ≤ (n / 2 ^ e + 1) * 2 ^ e := by
  rw [roundShift]
  split_ifs
  · exact le_rfl
  · exact Nat.mul_le_mul_right _ (Nat.le_succ _)

/-- Among numbers rounded to the same multiples, rounding keeps the order. -/
theorem roundShift_mono (e : Nat) {m n : Nat} (h : m ≤ n) : roundShift e m ≤ roundShift e n := by
  have hdiv : m / 2 ^ e ≤ n / 2 ^ e := Nat.div_le_div_right h
  rcases Nat.lt_or_eq_of_le hdiv with hlt | heq
  · calc roundShift e m ≤ (m / 2 ^ e + 1) * 2 ^ e := roundShift_le_succ_mul e m
      _ ≤ n / 2 ^ e * 2 ^ e := Nat.mul_le_mul_right _ hlt
      _ ≤ roundShift e n := div_mul_le_roundShift e n
  · -- the same quotient, so the remainders are in order
    have hm := Nat.div_add_mod m (2 ^ e)
    have hn := Nat.div_add_mod n (2 ^ e)
    rw [heq] at hm
    have hrem : m % 2 ^ e ≤ n % 2 ^ e := by omega
    rw [roundShift, roundShift, heq]
    split_ifs with hup hup'
    · exact le_rfl
    · omega
    · exact Nat.mul_le_mul_right _ (Nat.le_succ _)
    · exact le_rfl

/-! ## Significant bits -/

/-- **Numbers up to `2 ^ p` stay as they are.** -/
theorem roundNat_of_le {p n : Nat} (hp : 0 < p) (h : n ≤ 2 ^ p) : roundNat p n = n := by
  rcases Nat.lt_or_eq_of_le h with hlt | rfl
  · have hlog : n.log2 + 1 - p = 0 := by
      rcases Nat.eq_zero_or_pos n with rfl | hn
      · rw [Nat.log2_zero]
        omega
      · have := (Nat.log2_lt (by omega)).mpr hlt
        omega
    rw [roundNat, hlog, roundShift_zero]
  · obtain ⟨k, rfl⟩ : ∃ k, p = k + 1 := ⟨p - 1, by omega⟩
    have hlog : (2 ^ (k + 1)).log2 + 1 - (k + 1) = 1 := by
      rw [Nat.log2_two_pow]
      omega
    rw [roundNat, hlog, Nat.pow_succ]
    exact roundShift_mul 1 (2 ^ k)

/-- A number rounds to no less than its leading bit. -/
theorem two_pow_log2_le_roundNat {p n : Nat} (hp : 0 < p) (hn : n ≠ 0) :
    2 ^ n.log2 ≤ roundNat p n := by
  have hexp : 2 ^ n.log2 = 2 ^ (n.log2 - (n.log2 + 1 - p)) * 2 ^ (n.log2 + 1 - p) := by
    rw [← Nat.pow_add]
    congr 1
    omega
  calc 2 ^ n.log2 = roundShift (n.log2 + 1 - p) (2 ^ n.log2) := by
        rw [hexp, roundShift_mul]
    _ ≤ roundNat p n := roundShift_mono _ (Nat.log2_self_le hn)

/-- A number rounds to no more than the next power of two. -/
theorem roundNat_le_two_pow (p n : Nat) : roundNat p n ≤ 2 ^ (n.log2 + 1) := by
  have hexp : 2 ^ (n.log2 + 1) = 2 ^ (n.log2 + 1 - (n.log2 + 1 - p)) * 2 ^ (n.log2 + 1 - p) := by
    rw [← Nat.pow_add]
    congr 1
    omega
  calc roundNat p n ≤ roundShift (n.log2 + 1 - p) (2 ^ (n.log2 + 1)) :=
        roundShift_mono _ (Nat.le_of_lt Nat.lt_log2_self)
    _ = 2 ^ (n.log2 + 1) := by rw [hexp, roundShift_mul]

/-- **Rounding keeps the order.** -/
theorem roundNat_mono {p m n : Nat} (hp : 0 < p) (h : m ≤ n) : roundNat p m ≤ roundNat p n := by
  rcases Nat.eq_zero_or_pos m with rfl | hm
  · rw [roundNat_of_le hp (Nat.zero_le _)]
    exact Nat.zero_le _
  have hn : n ≠ 0 := by omega
  have hlog : m.log2 ≤ n.log2 :=
    (Nat.le_log2 hn).mpr ((Nat.log2_self_le (by omega)).trans h)
  rcases Nat.lt_or_eq_of_le hlog with hlt | heq
  · calc roundNat p m ≤ 2 ^ (m.log2 + 1) := roundNat_le_two_pow p m
      _ ≤ 2 ^ n.log2 := Nat.pow_le_pow_right (by omega) hlt
      _ ≤ roundNat p n := two_pow_log2_le_roundNat hp hn
  · rw [roundNat, roundNat, heq]
    exact roundShift_mono _ h

theorem roundInt_of_natAbs_le {p : Nat} {n : Int} (hp : 0 < p) (h : n.natAbs ≤ 2 ^ p) :
    roundInt p n = n := by
  cases n with
  | ofNat n => exact congrArg Int.ofNat (roundNat_of_le hp h)
  | negSucc n =>
    have hround : roundNat p (n + 1) = n + 1 := roundNat_of_le hp h
    show -(roundNat p (n + 1) : Int) = Int.negSucc n
    rw [hround]
    rfl

theorem roundInt_of_nonneg {p : Nat} {n : Int} (h : 0 ≤ n) : 0 ≤ roundInt p n := by
  obtain ⟨k, rfl⟩ := Int.eq_ofNat_of_zero_le h
  exact Int.natCast_nonneg _

theorem roundInt_neg_of_neg {p : Nat} {n : Int} (hp : 0 < p) (h : n < 0) : roundInt p n < 0 := by
  obtain ⟨k, rfl⟩ := Int.eq_negSucc_of_lt_zero h
  have hpos := Nat.two_pow_pos (k + 1).log2
  have hle : 2 ^ (k + 1).log2 ≤ roundNat p (k + 1) :=
    two_pow_log2_le_roundNat hp (Nat.succ_ne_zero k)
  show -(roundNat p (k + 1) : Int) < 0
  omega

theorem roundInt_mono {p : Nat} {m n : Int} (hp : 0 < p) (h : m ≤ n) :
    roundInt p m ≤ roundInt p n := by
  cases m with
  | ofNat m =>
    obtain ⟨n, rfl⟩ := Int.eq_ofNat_of_zero_le (le_trans (Int.natCast_nonneg m) h)
    exact Int.ofNat_le.mpr (roundNat_mono hp (Int.ofNat_le.mp h))
  | negSucc m =>
    cases n with
    | ofNat n =>
      have hneg := roundInt_neg_of_neg hp (Int.negSucc_lt_zero m)
      exact le_trans hneg.le (roundInt_of_nonneg (Int.natCast_nonneg n))
    | negSucc n =>
      have hle : n + 1 ≤ m + 1 := by omega
      exact Int.neg_le_neg (Int.ofNat_le.mpr (roundNat_mono hp hle))

end NearestEven
