import Mathlib.Data.Finmap
import Mathlib.Data.List.Sort
import Mathlib.Order.Defs.LinearOrder

/-!
# Ordered maps as sorted lists

`std::map` as what it iterates over: a list of entries with ascending keys
(`Ascending`). The module relates three ways to look at such a map: by key, as the list
it iterates over, and as what it was built from, one insertion after the other.

- `insert`, `lookup`: `m[k] = a` and `find`; `lookup_insert`, `ascending_insert`.
- `ofEntries`: entries inserted one after the other, so that the last of equal
  keys wins; `lookup_ofEntries`, `lookup_ofEntries_of_nodup`.
- `ofEntries_of_ascending`, `ofEntries_of_perm`: inserting what a map iterates over
  gives the map back, in any order. So a map is determined by its entries.
- `entriesOf`: a finite map laid out in key order, for maps whose order is not part of
  the program's state.
- `lookup_foldl_ofEntries`: what a map becomes that is written entry by entry and read
  back entry by entry, key by key.
- `readEntries`: a map read under other keys, where entries that do not parse are passed
  over and the last of several that are read alike wins.

The lists are not bundled with their invariant: `Ascending` is a hypothesis where it is
needed and `ascending_ofEntries` gives it for everything that is built by insertion.
-/

namespace SortedMap

universe u v

variable {κ : Type u} {α : Type v} [LinearOrder κ]

/-- The invariant of a map: its keys ascend. -/
def Ascending (m : List (κ × α)) : Prop := (m.map Prod.fst).Pairwise (· < ·)

/-- `m[k] = a`. -/
def insert (k : κ) (a : α) : List (κ × α) → List (κ × α)
  | [] => [(k, a)]
  | e :: m =>
    if k < e.1 then (k, a) :: e :: m
    else if k = e.1 then (k, a) :: m
    else e :: insert k a m

/-- `m.find(k)`. -/
def lookup (k : κ) : List (κ × α) → Option α
  | [] => none
  | e :: m => if k = e.1 then some e.2 else lookup k m

@[simp] theorem lookup_nil (k : κ) : lookup k ([] : List (κ × α)) = none := rfl

theorem lookup_cons (k : κ) (e : κ × α) (m : List (κ × α)) :
    lookup k (e :: m) = if k = e.1 then some e.2 else lookup k m := rfl

theorem lookup_insert (k k' : κ) (a : α) (m : List (κ × α)) :
    lookup k' (insert k a m) = if k' = k then some a else lookup k' m := by
  induction m with
  | nil => rfl
  | cons e m ih =>
    by_cases hlt : k < e.1
    · rw [insert, if_pos hlt]
      rfl
    · by_cases heq : k = e.1
      · rw [insert, if_neg hlt, if_pos heq, lookup_cons, lookup_cons, ← heq]
        split_ifs <;> rfl
      · rw [insert, if_neg hlt, if_neg heq, lookup_cons, lookup_cons, ih]
        by_cases hk : k' = e.1
        · have hne : ¬ k' = k := fun h => heq (h ▸ hk)
          rw [if_pos hk, if_pos hk, if_neg hne]
        · rw [if_neg hk, if_neg hk]

theorem mem_keys_insert {k k' : κ} {a : α} {m : List (κ × α)}
    (h : k' ∈ (insert k a m).map Prod.fst) : k' = k ∨ k' ∈ m.map Prod.fst := by
  induction m with
  | nil => exact Or.inl (List.mem_singleton.mp h)
  | cons e m ih =>
    rw [insert] at h
    split_ifs at h with hlt heq
    · exact List.mem_cons.mp h
    · rw [List.map_cons, List.mem_cons] at h ⊢
      exact h.imp_right Or.inr
    · rw [List.map_cons, List.mem_cons] at h ⊢
      rcases h with he | hm
      · exact Or.inr (Or.inl he)
      · exact (ih hm).imp_right Or.inr

theorem ascending_insert {k : κ} {a : α} {m : List (κ × α)} (h : Ascending m) :
    Ascending (insert k a m) := by
  induction m with
  | nil => exact List.pairwise_singleton ..
  | cons e m ih =>
    obtain ⟨hhead, htail⟩ := List.pairwise_cons.mp h
    rw [insert]
    split_ifs with hlt heq
    · refine List.pairwise_cons.mpr ⟨?_, h⟩
      intro k' hk'
      rcases List.mem_cons.mp hk' with rfl | hk'
      · exact hlt
      · exact hlt.trans (hhead k' hk')
    · exact List.pairwise_cons.mpr ⟨heq ▸ hhead, htail⟩
    · refine List.pairwise_cons.mpr ⟨?_, ih htail⟩
      intro k' hk'
      rcases mem_keys_insert hk' with rfl | hk'
      · exact lt_of_le_of_ne (not_lt.mp hlt) (Ne.symm heq)
      · exact hhead k' hk'

/-- Inserting past the last key appends. -/
theorem insert_of_forall_lt {k : κ} {a : α} {m : List (κ × α)} (h : ∀ e ∈ m, e.1 < k) :
    insert k a m = m ++ [(k, a)] := by
  induction m with
  | nil => rfl
  | cons e m ih =>
    have he := h e (List.mem_cons_self ..)
    rw [insert, if_neg he.not_gt, if_neg he.ne', ih fun e' he' => h e' (List.mem_cons_of_mem _ he')]
    rfl

/-! ## Entries one after the other -/

/-- Entries inserted in order. -/
def ofEntries (es : List (κ × α)) : List (κ × α) :=
  es.foldl (fun m e => insert e.1 e.2 m) []

theorem ofEntries_append_singleton (es : List (κ × α)) (e : κ × α) :
    ofEntries (es ++ [e]) = insert e.1 e.2 (ofEntries es) := by
  rw [ofEntries, List.foldl_append]
  rfl

theorem ascending_ofEntries (es : List (κ × α)) : Ascending (ofEntries es) := by
  induction es using List.reverseRecOn with
  | nil => exact List.Pairwise.nil
  | append_singleton es e ih =>
    rw [ofEntries_append_singleton]
    exact ascending_insert ih

/-- The last of the entries under a key is found. -/
theorem lookup_ofEntries (k : κ) (es : List (κ × α)) :
    lookup k (ofEntries es) = lookup k es.reverse := by
  induction es using List.reverseRecOn with
  | nil => rfl
  | append_singleton es e ih =>
    rw [ofEntries_append_singleton, lookup_insert, ih, List.reverse_append]
    rfl

theorem lookup_of_mem {k : κ} {a : α} {es : List (κ × α)} (hnd : (es.map Prod.fst).Nodup)
    (h : (k, a) ∈ es) : lookup k es = some a := by
  induction es with
  | nil => cases h
  | cons e es ih =>
    obtain ⟨hout, hnd⟩ := List.nodup_cons.mp hnd
    rw [lookup_cons]
    rcases List.mem_cons.mp h with rfl | hmem
    · exact if_pos rfl
    · have hne : k ≠ e.1 := by
        rintro rfl
        exact hout (List.mem_map.mpr ⟨_, hmem, rfl⟩)
      rw [if_neg hne]
      exact ih hnd hmem

/-- Every entry is found, if their keys are distinct. -/
theorem lookup_ofEntries_of_nodup {k : κ} {a : α} {es : List (κ × α)}
    (hnd : (es.map Prod.fst).Nodup) (h : (k, a) ∈ es) : lookup k (ofEntries es) = some a := by
  rw [lookup_ofEntries]
  refine lookup_of_mem ?_ (List.mem_reverse.mpr h)
  rw [List.map_reverse]
  exact List.nodup_reverse.mpr hnd

theorem lookup_eq_none {k : κ} {es : List (κ × α)} (h : k ∉ es.map Prod.fst) :
    lookup k es = none := by
  induction es with
  | nil => rfl
  | cons e es ih =>
    rw [List.map_cons, List.mem_cons, not_or] at h
    rw [lookup_cons, if_neg h.1]
    exact ih h.2

/-- A key no entry has is not found. -/
theorem lookup_ofEntries_of_notMem {k : κ} {es : List (κ × α)} (h : k ∉ es.map Prod.fst) :
    lookup k (ofEntries es) = none := by
  rw [lookup_ofEntries]
  refine lookup_eq_none ?_
  rw [List.map_reverse, List.mem_reverse]
  exact h

/-- **What a map iterates over makes the map.** -/
theorem ofEntries_of_ascending {m : List (κ × α)} (h : Ascending m) : ofEntries m = m := by
  induction m using List.reverseRecOn with
  | nil => rfl
  | append_singleton m e ih =>
    rw [Ascending, List.map_append, List.pairwise_append] at h
    obtain ⟨hm, -, hlt⟩ := h
    rw [ofEntries_append_singleton, ih hm]
    refine insert_of_forall_lt ?_
    intro e' he'
    exact hlt e'.1 (List.mem_map_of_mem he') e.1 (List.mem_singleton_self _)

/-! ## Finite maps in key order -/

/-- Keys in ascending order. -/
def sortKeys (ks : Multiset κ) : List κ :=
  Quot.liftOn ks (List.insertionSort (· ≤ ·)) fun l l' h =>
    List.Perm.eq_of_pairwise (fun _ _ _ _ => le_antisymm)
      (List.pairwise_insertionSort (· ≤ ·) l) (List.pairwise_insertionSort (· ≤ ·) l')
      ((List.perm_insertionSort _ l).trans (h.trans (List.perm_insertionSort _ l').symm))

theorem coe_sortKeys (ks : Multiset κ) : (sortKeys ks : Multiset κ) = ks := by
  induction ks using Quot.inductionOn with
  | h l => exact Multiset.coe_eq_coe.mpr (List.perm_insertionSort _ l)

variable {β : Type v}

/-- A finite map laid out in key order. -/
def entriesOf (m : Finmap fun _ : κ => β) : List (κ × β) :=
  (sortKeys m.entries.keys).filterMap fun k => (m.lookup k).map fun b => (k, b)

theorem mem_entriesOf {m : Finmap fun _ : κ => β} {k : κ} {b : β} :
    (k, b) ∈ entriesOf m ↔ m.lookup k = some b := by
  rw [entriesOf, List.mem_filterMap]
  constructor
  · rintro ⟨k', -, h⟩
    obtain ⟨b', hb', heq⟩ := Option.map_eq_some_iff.mp h
    obtain ⟨rfl, rfl⟩ := Prod.mk.inj heq
    exact hb'
  · intro h
    refine ⟨k, ?_, by rw [h]; rfl⟩
    rw [← Multiset.mem_coe, coe_sortKeys]
    exact Finmap.mem_def.mp (Finmap.lookup_isSome.mp (by rw [h]; rfl))

theorem keys_entriesOf_nodup (m : Finmap fun _ : κ => β) :
    ((entriesOf m).map Prod.fst).Nodup := by
  have hsub : ((entriesOf m).map Prod.fst).Sublist (sortKeys m.entries.keys) := by
    unfold entriesOf
    generalize sortKeys m.entries.keys = ks
    induction ks with
    | nil => exact List.Sublist.slnil
    | cons k ks ih =>
      cases hk : m.lookup k with
      | none =>
        rw [List.filterMap_cons_none (by rw [hk]; rfl)]
        exact ih.cons k
      | some b =>
        rw [List.filterMap_cons_some (by rw [hk]; rfl)]
        exact ih.cons_cons k
  refine hsub.nodup ?_
  rw [← Multiset.coe_nodup, coe_sortKeys]
  exact Multiset.nodup_keys.mpr m.nodupKeys

theorem lookup_foldl_insert (k : κ) (es : List (κ × β)) (m : Finmap fun _ : κ => β) :
    (es.foldl (fun m e => m.insert e.1 e.2) m).lookup k
      = (lookup k es.reverse).or (m.lookup k) := by
  induction es using List.reverseRecOn with
  | nil => rfl
  | append_singleton es e ih =>
    rw [List.foldl_append, List.foldl_cons, List.foldl_nil, List.reverse_append]
    show _ = (lookup k (e :: es.reverse)).or _
    rw [lookup_cons]
    by_cases hk : k = e.1
    · rw [hk, Finmap.lookup_insert, if_pos rfl]
      rfl
    · rw [Finmap.lookup_insert_of_ne _ hk, ih, if_neg hk]

theorem lookup_map {γ : Type*} (f : β → γ) (k : κ) (es : List (κ × β)) :
    lookup k (es.map fun e => (e.1, f e.2)) = (lookup k es).map f := by
  induction es with
  | nil => rfl
  | cons e es ih =>
    rw [List.map_cons, lookup_cons, lookup_cons, ih]
    split_ifs <;> rfl

/-- With distinct keys, the order of entries does not matter. -/
theorem lookup_reverse {es : List (κ × β)} (hnd : (es.map Prod.fst).Nodup) (k : κ) :
    lookup k es.reverse = lookup k es := by
  have hrev : (es.reverse.map Prod.fst).Nodup := by
    rw [List.map_reverse]
    exact List.nodup_reverse.mpr hnd
  by_cases hk : k ∈ es.map Prod.fst
  · obtain ⟨⟨k', b⟩, hmem, rfl⟩ := List.mem_map.mp hk
    rw [lookup_of_mem hnd hmem, lookup_of_mem hrev (List.mem_reverse.mpr hmem)]
  · rw [lookup_eq_none hk, lookup_eq_none]
    rwa [List.map_reverse, List.mem_reverse]

theorem lookup_entriesOf (m : Finmap fun _ : κ => β) (k : κ) :
    lookup k (entriesOf m) = m.lookup k := by
  cases hk : m.lookup k with
  | some b => exact lookup_of_mem (keys_entriesOf_nodup m) (mem_entriesOf.mpr hk)
  | none =>
    refine lookup_eq_none ?_
    intro hmem
    obtain ⟨⟨k', b⟩, hin, rfl⟩ := List.mem_map.mp hmem
    rw [mem_entriesOf.mp hin] at hk
    cases hk

/-- **A map written entry by entry and read entry by entry**: at every key, what
was there, as it is written and read. -/
theorem lookup_foldl_ofEntries {γ δ : Type v} (write : β → γ) (read : γ → δ)
    {es : List (κ × β)} (hnd : (es.map Prod.fst).Nodup) (k : κ) :
    ((ofEntries (es.map fun e => (e.1, write e.2))).foldl
        (fun m e => m.insert e.1 (read e.2)) (∅ : Finmap fun _ : κ => δ)).lookup k
      = (lookup k es).map fun b => read (write b) := by
  have hkeys : (((es.map fun e => (e.1, write e.2))).map Prod.fst).Nodup := by
    rwa [List.map_map]
  have hfold : ∀ xs : List (κ × γ),
      xs.foldl (fun m e => m.insert e.1 (read e.2)) (∅ : Finmap fun _ : κ => δ) =
        (xs.map fun e => (e.1, read e.2)).foldl (fun m e => m.insert e.1 e.2) ∅ := by
    intro xs
    rw [List.foldl_map]
  rw [hfold, lookup_foldl_insert, Finmap.lookup_empty, Option.or_none,
    ← List.map_reverse, lookup_map,
    lookup_reverse ((ascending_ofEntries _).imp ne_of_lt), lookup_ofEntries, lookup_reverse hkeys,
    lookup_map, Option.map_map]
  rfl

theorem mem_of_lookup {k : κ} {a : α} {es : List (κ × α)} (h : lookup k es = some a) :
    (k, a) ∈ es := by
  induction es with
  | nil => cases h
  | cons e es ih =>
    rw [lookup_cons] at h
    split_ifs at h with hk
    · obtain rfl := Option.some.inj h
      exact hk ▸ List.mem_cons_self
    · exact List.mem_cons_of_mem _ (ih h)

theorem mem_ofEntries {k : κ} {a : α} {es : List (κ × α)} (hnd : (es.map Prod.fst).Nodup) :
    (k, a) ∈ ofEntries es ↔ (k, a) ∈ es := by
  constructor
  · intro h
    have hlook := lookup_of_mem ((ascending_ofEntries es).imp ne_of_lt) h
    rw [lookup_ofEntries, lookup_reverse hnd] at hlook
    exact mem_of_lookup hlook
  · intro h
    exact mem_of_lookup (lookup_ofEntries_of_nodup hnd h)

/-- What a map built from entries iterates over is among them. -/
theorem mem_of_mem_ofEntries {es : List (κ × α)} {e : κ × α} (h : e ∈ ofEntries es) : e ∈ es := by
  have hlook := lookup_of_mem ((ascending_ofEntries es).imp ne_of_lt) h
  rw [lookup_ofEntries] at hlook
  exact List.mem_reverse.mp (mem_of_lookup hlook)

/-- Entries of distinct keys are only put in order. -/
theorem perm_ofEntries {es : List (κ × α)} (hnd : (es.map Prod.fst).Nodup) :
    (ofEntries es).Perm es := by
  have hsorted : ((ofEntries es).map Prod.fst).Nodup := (ascending_ofEntries es).imp ne_of_lt
  rw [List.perm_ext_iff_of_nodup hsorted.of_map hnd.of_map]
  rintro ⟨k, a⟩
  exact mem_ofEntries hnd

/-- **A map is determined by its entries**, in whatever order they are inserted. -/
theorem ofEntries_of_perm {es m : List (κ × α)} (hperm : es.Perm m) (hm : Ascending m) :
    ofEntries es = m := by
  have hnd : (es.map Prod.fst).Nodup :=
    (hperm.map Prod.fst).nodup_iff.mpr (hm.imp ne_of_lt)
  have hkeys : ∀ {l : List (κ × α)}, Ascending l → l.Pairwise fun e e' => e.1 < e'.1 :=
    fun hl => List.pairwise_map.mp hl
  refine ((perm_ofEntries hnd).trans hperm).eq_of_pairwise ?_ (hkeys (ascending_ofEntries es))
    (hkeys hm)
  intro e e' _ _ hlt hgt
  exact absurd hlt (lt_asymm hgt)

/-! ## Maps under other keys -/

section

variable {ε ι δ : Type*} [DecidableEq ι] {read : ε → Option (ι × δ)}

/-- A map read entry by entry, what is no entry passed over. -/
def readEntries (read : ε → Option (ι × δ)) (es : List ε) (m : Finmap fun _ : ι => δ) :
    Finmap fun _ : ι => δ :=
  es.foldl (fun m e => match read e with | none => m | some (i, d) => m.insert i d) m

theorem readEntries_cons (e : ε) (es : List ε) (m : Finmap fun _ : ι => δ) :
    readEntries read (e :: es) m =
      readEntries read es (match read e with | none => m | some (i, d) => m.insert i d) := rfl

/-- What no entry is read as stays as it was. -/
theorem lookup_readEntries_of_notMem {es : List ε} {i : ι}
    (h : ∀ e ∈ es, ∀ d, read e ≠ some (i, d)) (m : Finmap fun _ : ι => δ) :
    (readEntries read es m).lookup i = m.lookup i := by
  induction es generalizing m with
  | nil => rfl
  | cons e es ih =>
    rw [readEntries_cons, ih fun e' he' => h e' (List.mem_cons_of_mem _ he')]
    cases he : read e with
    | none => rfl
    | some x =>
      have hne : i ≠ x.1 := by
        rintro rfl
        exact h e List.mem_cons_self x.2 he
      exact Finmap.lookup_insert_of_ne _ hne

/-- What an entry is read as is found, if every entry under the key is read alike. -/
theorem lookup_readEntries_of_mem {es : List ε} {i : ι} {d : δ}
    (hmem : ∃ e ∈ es, read e = some (i, d))
    (hsame : ∀ e ∈ es, ∀ d', read e = some (i, d') → d' = d) (m : Finmap fun _ : ι => δ) :
    (readEntries read es m).lookup i = some d := by
  induction es generalizing m with
  | nil =>
    obtain ⟨e, he, -⟩ := hmem
    cases he
  | cons e es ih =>
    rw [readEntries_cons]
    have hsame' : ∀ e' ∈ es, ∀ d', read e' = some (i, d') → d' = d :=
      fun e' he' => hsame e' (List.mem_cons_of_mem _ he')
    by_cases htail : ∃ e' ∈ es, read e' = some (i, d)
    · exact ih htail hsame' _
    · -- the head is the last of the entries under the key
      obtain ⟨e', he', hread⟩ := hmem
      rcases List.mem_cons.mp he' with rfl | he'
      · rw [lookup_readEntries_of_notMem, hread]
        · exact Finmap.lookup_insert m
        · intro e'' he'' d'' hread''
          exact htail ⟨e'', he'', hsame' e'' he'' d'' hread'' ▸ hread''⟩
      · exact absurd ⟨e', he', hread⟩ htail

end

end SortedMap
