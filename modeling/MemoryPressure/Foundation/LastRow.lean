import Mathlib.Data.List.Infix

/-!
# The last row of a list

The longest stretch of items with one key that ends a list: what a counter of
repetitions has in view. A machine that counts equal readings in a row, and forgets them
as soon as another one comes, holds at any time the length of this row; so its counter
is characterized by the list of what it was given, without a word about its state.

- `lastRow_concat`: the row grows by an item with its key and starts anew with any other,
  which is how such a machine computes it;
- `lastRow_suffix`, `key_eq_of_mem`: it is a suffix of the list, of one key throughout;
- `suffix_lastRow`: and the longest such. These three say what it is.
- `length_extend_le`: one more item makes it longer by one at most.

`exists_split_cons` is the induction step for statements about where a list is
split: a split of a list is at its first item or a split of the rest.
-/

namespace LastRow

variable {α κ : Type*} [DecidableEq κ] (key : α → κ)

/-- A row after one more item. -/
def extend (row : List α) (x : α) : List α :=
  match row with
  | [] => [x]
  | y :: row => if key y = key x then y :: row ++ [x] else [x]

/-- The longest stretch of items with one key at the end of a list. -/
def lastRow (xs : List α) : List α := xs.foldl (extend key) []

variable {key}

theorem lastRow_concat (xs : List α) (x : α) :
    lastRow key (xs ++ [x]) = extend key (lastRow key xs) x := List.foldl_concat ..

/-- A row of the item's key goes on. -/
theorem extend_of_key {row : List α} {x : α} (h : ∀ y ∈ row, key y = key x) :
    extend key row x = row ++ [x] := by
  cases row with
  | nil => rfl
  | cons y row => exact if_pos (h y List.mem_cons_self)

/-- A row with another key ends, and the new element starts a row of its own. -/
theorem extend_of_ne {row : List α} {x : α} (h : ∀ y ∈ row, key y ≠ key x) :
    extend key row x = [x] := by
  cases row with
  | nil => rfl
  | cons y row => exact if_neg (h y List.mem_cons_self)

/-- The item just seen is the last of its row. -/
theorem extend_eq_concat (key : α → κ) (row : List α) (x : α) :
    ∃ front, extend key row x = front ++ [x] := by
  cases row with
  | nil => exact ⟨[], rfl⟩
  | cons y row =>
    rw [extend]
    split_ifs
    · exact ⟨y :: row, rfl⟩
    · exact ⟨[], rfl⟩

theorem length_extend_le (row : List α) (x : α) : (extend key row x).length ≤ row.length + 1 := by
  cases row with
  | nil => exact Nat.le_refl 1
  | cons y row =>
    rw [extend]
    split_ifs
    · rw [List.length_append]
      exact Nat.le_refl _
    · exact Nat.le_add_left ..

theorem lastRow_suffix (xs : List α) : lastRow key xs <:+ xs := by
  induction xs using List.reverseRecOn with
  | nil => exact List.suffix_rfl
  | append_singleton xs x ih =>
    obtain ⟨front, hfront⟩ := ih
    rw [lastRow_concat]
    cases hrow : lastRow key xs with
    | nil => exact ⟨xs, rfl⟩
    | cons y row =>
      rw [extend]
      split_ifs
      · refine ⟨front, ?_⟩
        rw [← List.append_assoc, ← hrow, hfront]
      · exact ⟨xs, rfl⟩

/-- **A row has one key.** -/
theorem key_eq_of_mem {xs : List α} {x y : α} (hx : x ∈ lastRow key xs)
    (hy : y ∈ lastRow key xs) : key x = key y := by
  induction xs using List.reverseRecOn generalizing x y with
  | nil => cases hx
  | append_singleton xs z ih =>
    rw [lastRow_concat] at hx hy
    cases hrow : lastRow key xs with
    | nil =>
      rw [hrow] at hx hy
      rw [List.mem_singleton.mp hx, List.mem_singleton.mp hy]
    | cons w row =>
      rw [hrow, extend] at hx hy
      split_ifs at hx hy with hkey
      · have hall : ∀ v ∈ w :: row ++ [z], key v = key z := by
          intro v hv
          rcases List.mem_append.mp hv with hold | hnew
          · rw [← hkey]
            exact ih (hrow ▸ hold) (hrow ▸ List.mem_cons_self)
          · rw [List.mem_singleton.mp hnew]
        rw [hall x hx, hall y hy]
      · rw [List.mem_singleton.mp hx, List.mem_singleton.mp hy]

/-- The row has the key of the item just seen. -/
theorem key_of_mem_concat {xs : List α} {x y : α} (hy : y ∈ lastRow key (xs ++ [x])) :
    key y = key x := by
  refine key_eq_of_mem hy ?_
  obtain ⟨front, hfront⟩ := extend_eq_concat key (lastRow key xs) x
  rw [lastRow_concat, hfront]
  exact List.mem_append_right _ (List.mem_singleton_self x)

/-- Items of one key at the end of a list are in its last row. -/
theorem suffix_lastRow {xs ys : List α} {k : κ} (hys : ∀ y ∈ ys, key y = k) :
    ys <:+ lastRow key (xs ++ ys) := by
  induction ys using List.reverseRecOn with
  | nil => exact List.nil_suffix
  | append_singleton ys y ih =>
    have hys' : ∀ z ∈ ys, key z = k := fun z hz => hys z (List.mem_append_left _ hz)
    have hy : key y = k := hys y (List.mem_append_right _ (List.mem_singleton_self y))
    obtain ⟨front, hfront⟩ := ih hys'
    rw [← List.append_assoc, lastRow_concat, ← hfront]
    rcases List.eq_nil_or_concat ys with rfl | ⟨ys, z, rfl⟩
    · obtain ⟨rest, hrest⟩ := extend_eq_concat key (front ++ []) y
      exact ⟨rest, by rw [hrest]; rfl⟩
    · rw [List.concat_eq_append] at hfront hys' ⊢
      rw [extend_of_key]
      · exact ⟨front, (List.append_assoc ..).symm⟩
      · -- all of the row has the key of its last item
        intro w hw
        rw [hfront] at hw
        have hz : z ∈ lastRow key (xs ++ (ys ++ [z])) :=
          hfront ▸ List.mem_append_right _ (List.mem_append_right _ (List.mem_singleton_self z))
        rw [key_eq_of_mem hw hz, hy]
        exact hys' z (List.mem_append_right _ (List.mem_singleton_self z))

/-- A split of a list is at its first item or a split of the rest. -/
theorem exists_split_cons {P : List α → α → Prop} {x : α} {xs : List α} :
    (∃ before y after, x :: xs = before ++ y :: after ∧ P before y) ↔
      P [] x ∨ ∃ before y after, xs = before ++ y :: after ∧ P (x :: before) y := by
  constructor
  · rintro ⟨before, y, after, heq, h⟩
    cases before with
    | nil =>
      obtain ⟨rfl, -⟩ := List.cons.inj heq
      exact Or.inl h
    | cons z before =>
      obtain ⟨rfl, hrest⟩ := List.cons.inj heq
      exact Or.inr ⟨before, y, after, hrest, h⟩
  · rintro (h | ⟨before, y, after, rfl, h⟩)
    · exact ⟨[], x, xs, rfl, h⟩
    · exact ⟨x :: before, y, after, rfl, h⟩

end LastRow
