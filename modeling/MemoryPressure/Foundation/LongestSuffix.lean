import Mathlib.Data.List.Infix

/-!
# Longest suffixes

A window over a growing list keeps the longest suffix of it that has a property: so many
elements at most, none older than a bound, and so on. `LongestSuffix P xs ys` says that
`ys` is the longest suffix of `xs` with `P`, which determines `ys`. These are the rules
for keeping such a window incrementally, without going back to the whole list.

- `LongestSuffix.concat`: when an element comes in, the window and the new element
  contain the new window, if what has the property with the new element had it before.
- `LongestSuffix.narrow`: a suffix that is the longest with one property contains the
  longest with a further one, so several bounds can be applied one after the other.
- `LongestSuffix.congr`: a property may be exchanged for an equivalent one.
- `longestSuffix_dropWhile`, `longestSuffix_drop`: what the two usual ways of dropping
  from the front leave, while the front is too old and while there are too many.

A window that appends and then drops, for age and for number, is thus an instance of
`concat` followed by two `narrow`s, whatever the properties are.
-/

variable {α : Type*} {P Q : List α → Prop}

/-- `ys` is the longest suffix of `xs` with `P`. -/
structure LongestSuffix (P : List α → Prop) (xs ys : List α) : Prop where
  suffix : ys <:+ xs
  holds : P ys
  longest : ∀ zs, zs <:+ xs → P zs → zs <:+ ys

namespace LongestSuffix

variable {xs ys ws : List α}

/-- A list with the property is its own longest suffix. -/
theorem self (h : P xs) : LongestSuffix P xs xs := ⟨List.suffix_rfl, h, fun _ hzs _ => hzs⟩

/-- **One property after another**, if suffixes keep the first. -/
theorem narrow (h : LongestSuffix P xs ys) (hP : ∀ zs, zs <:+ ys → P zs)
    (h' : LongestSuffix Q ys ws) : LongestSuffix (fun zs => P zs ∧ Q zs) xs ws := by
  refine ⟨h'.suffix.trans h.suffix, ⟨hP ws h'.suffix, h'.holds⟩, ?_⟩
  rintro zs hzs ⟨hzsP, hzsQ⟩
  exact h'.longest zs (h.longest zs hzs hzsP) hzsQ

/-- **One more element**: what has the new property with it had the old one before. -/
theorem concat {x : α} (h : LongestSuffix P xs ys) (hback : ∀ zs, Q (zs ++ [x]) → P zs)
    (h' : LongestSuffix Q (ys ++ [x]) ws) : LongestSuffix Q (xs ++ [x]) ws := by
  refine ⟨h'.suffix.trans (List.suffix_append_self_iff.mpr h.suffix), h'.holds, ?_⟩
  intro zs hzs hQ
  rcases List.suffix_concat_iff.mp hzs with rfl | ⟨us, rfl, hus⟩
  · exact List.nil_suffix
  · exact h'.longest _ (List.suffix_append_self_iff.mpr (h.longest us hus (hback us hQ))) hQ

/-- A property may be exchanged for an equivalent one. -/
theorem congr (h : LongestSuffix P xs ys) (hiff : ∀ zs, P zs ↔ Q zs) : LongestSuffix Q xs ys :=
  ⟨h.suffix, (hiff ys).mp h.holds, fun zs hzs hQ => h.longest zs hzs ((hiff zs).mpr hQ)⟩

end LongestSuffix

/-- **Dropping while `old`** leaves the longest suffix without an old element, if none
that is not old comes before one that is. -/
theorem longestSuffix_dropWhile {old : α → Bool} {xs : List α}
    (hsorted : xs.Pairwise fun a b => old b = true → old a = true) :
    LongestSuffix (fun ys => ∀ y ∈ ys, old y = false) xs (xs.dropWhile old) := by
  induction xs with
  | nil => exact .self nofun
  | cons x xs ih =>
    obtain ⟨hx, hxs⟩ := List.pairwise_cons.mp hsorted
    by_cases hold : old x = true
    · rw [List.dropWhile_cons_of_pos hold]
      have h := ih hxs
      refine ⟨h.suffix.trans (List.suffix_cons x xs), h.holds, ?_⟩
      intro zs hzs hnew
      rcases List.suffix_cons_iff.mp hzs with rfl | hzs
      · rw [hnew x List.mem_cons_self] at hold
        cases hold
      · exact h.longest zs hzs hnew
    · rw [List.dropWhile_cons_of_neg hold]
      refine .self ?_
      rintro y hy
      rcases List.mem_cons.mp hy with rfl | hy
      · exact Bool.eq_false_iff.mpr hold
      · exact Bool.eq_false_iff.mpr fun hyold => hold (hx y hy hyold)

/-- **Dropping what is too many** leaves the longest suffix that is short enough. -/
theorem longestSuffix_drop (n : Nat) (xs : List α) :
    LongestSuffix (fun ys => ys.length ≤ n) xs (xs.drop (xs.length - n)) := by
  refine ⟨List.drop_suffix _ _, ?_, ?_⟩
  · rw [List.length_drop]
    omega
  · intro zs hzs hlen
    refine List.suffix_of_suffix_length_le hzs (List.drop_suffix _ _) ?_
    have hle := hzs.length_le
    rw [List.length_drop]
    omega
