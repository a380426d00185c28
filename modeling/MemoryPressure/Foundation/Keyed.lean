import Mathlib.Data.Finmap

/-!
# Machines kept in a finite map

A recurring shape of stateful services: a finite map from keys to per-key
state, fed with a list of items, each of which names one key. An item reads and
writes the state of its own key only (a missing key starts from a default
state) and produces one output. `feed` is that loop.

The point of the module is **locality**: whatever is interleaved with them, the items
of one key do to that key, and put out, what they do on their own (`solo`). So a
statement about one key of a feed is proved on `solo`, by induction over the items of
that key alone, and carried to the feed by one of two rules.

- `feed_lookup`: after a feed, a key holds what its own items made of what it held.
- `feed_outputs_filter`: the outputs of one key are those of its own items.
- `feed_outputs_map`, `feed_output_at`: outputs come in item order, each under what its
  item says of it, its key for one; and the output in one place is one step's.
- `feed_invariant`, `feed_forall_outputs`: what every step keeps of single states, and
  what every step puts out, holds all over.
- `solo_rel`: two families of machines in a relation, fed related items, stay in it.
- `mapVal`, `eraseAll`: update all values, or drop a list of keys.

The second half is about lists without any machine: selecting by key commutes with
producing from each element things under its key (`filter_flatMap_key`,
`filter_filterMap_key`), and lists that agree key by key differ only in how their keys
interleave (`perm_of_filter_key`). Together they turn a statement about an order in which
services answer into one about each key.
-/

namespace Keyed

universe u v w x

variable {κ : Type u} {σ : Type v} {ι : Type w} {ο : Type x} [DecidableEq κ]

/-! ## Whole-map updates -/

/-- Apply `f` to every value of a finite map. -/
def mapVal (f : σ → σ) (m : Finmap fun _ : κ => σ) : Finmap fun _ : κ => σ where
  entries := m.entries.map fun e => ⟨e.1, f e.2⟩
  nodupKeys := by
    rw [← Multiset.nodup_keys]
    have hkeys : (m.entries.map fun e => (⟨e.1, f e.2⟩ : Sigma fun _ : κ => σ)).keys
        = m.entries.keys := by
      simp only [Multiset.keys, Multiset.map_map]
      rfl
    rw [hkeys]
    exact Multiset.nodup_keys.mpr m.nodupKeys

@[simp] theorem lookup_mapVal (f : σ → σ) (m : Finmap fun _ : κ => σ) (k : κ) :
    (mapVal f m).lookup k = (m.lookup k).map f := by
  refine Option.ext ?_
  intro b
  rw [Finmap.lookup_eq_some_iff, Option.map_eq_some_iff]
  simp only [mapVal, Multiset.mem_map]
  constructor
  · rintro ⟨⟨k', a⟩, hmem, heq⟩
    obtain ⟨rfl, hb⟩ := Sigma.mk.inj heq
    exact ⟨a, Finmap.lookup_eq_some_iff.mpr hmem, eq_of_heq hb⟩
  · rintro ⟨a, ha, rfl⟩
    exact ⟨⟨k, a⟩, Finmap.lookup_eq_some_iff.mp ha, rfl⟩

/-- Drop a list of keys from a finite map. -/
def eraseAll (m : Finmap fun _ : κ => σ) (ks : List κ) : Finmap fun _ : κ => σ :=
  ks.foldl (fun acc k => acc.erase k) m

@[simp] theorem eraseAll_nil (m : Finmap fun _ : κ => σ) : eraseAll m [] = m := rfl

@[simp] theorem eraseAll_cons (m : Finmap fun _ : κ => σ) (k : κ) (ks : List κ) :
    eraseAll m (k :: ks) = eraseAll (m.erase k) ks := rfl

theorem lookup_eraseAll (ks : List κ) (m : Finmap fun _ : κ => σ) (k : κ) :
    (eraseAll m ks).lookup k = if k ∈ ks then none else m.lookup k := by
  induction ks generalizing m with
  | nil => simp
  | cons k' ks ih =>
    rw [eraseAll_cons, ih]
    by_cases hk : k = k'
    · subst hk
      simp
    · rw [Finmap.lookup_erase_ne hk]
      simp [hk]

/-! ## Selecting by key -/

section

variable {α : Type v} {β : Type w} {akey : α → κ} {bkey : β → κ}

/-- Producing under one's own key, then selecting a key, is selecting first. -/
theorem filter_flatMap_key {f : α → List β} (h : ∀ a, ∀ b ∈ f a, bkey b = akey a)
    (l : List α) (k : κ) :
    (l.flatMap f).filter (fun b => bkey b = k)
      = (l.filter fun a => akey a = k).flatMap f := by
  induction l with
  | nil => rfl
  | cons a l ih =>
    rw [List.flatMap_cons, List.filter_append, ih]
    by_cases hk : akey a = k
    · rw [List.filter_cons_of_pos (by simpa using hk), List.flatMap_cons,
        List.filter_eq_self.mpr fun b hb => by simpa [h a b hb] using hk]
    · rw [List.filter_cons_of_neg (by simpa using hk),
        List.filter_eq_nil_iff.mpr fun b hb => by simpa [h a b hb] using hk]
      rfl

theorem filter_filterMap_key {f : α → Option β} (h : ∀ a b, f a = some b → bkey b = akey a)
    (l : List α) (k : κ) :
    (l.filterMap f).filter (fun b => bkey b = k)
      = (l.filter fun a => akey a = k).filterMap f := by
  rw [List.filterMap_eq_flatMap_toList, List.filterMap_eq_flatMap_toList]
  exact filter_flatMap_key (fun a b hb => h a b (by simpa using hb)) l k

variable (akey) in
/-- Lists whose elements under each key agree are permutations of each other. -/
theorem perm_of_filter_key {l l' : List α}
    (h : ∀ k, (l.filter fun a => akey a = k) = l'.filter fun a => akey a = k) : l.Perm l' := by
  classical
  rw [List.perm_iff_count]
  intro a
  have ha := congrArg (List.count a) (h (akey a))
  rwa [List.count_filter (by simp), List.count_filter (by simp)] at ha

end

/-! ## Feeding items to the machines -/

variable (start : σ) (key : ι → κ) (step : σ → ι → σ × ο)

/-- Feed items in order: each item steps the machine of its key, which starts
from `start` when the map has none. -/
def feed (m : Finmap fun _ : κ => σ) : List ι → (Finmap fun _ : κ => σ) × List ο
  | [] => (m, [])
  | i :: is =>
    let r := step ((m.lookup (key i)).getD start) i
    let rest := feed (m.insert (key i) r.1) is
    (rest.1, r.2 :: rest.2)

/-- One key's machine on its own: no map, no other keys. -/
def solo : Option σ → List ι → Option σ × List ο
  | s, [] => (s, [])
  | s, i :: is =>
    let r := step (s.getD start) i
    let rest := solo (some r.1) is
    (rest.1, r.2 :: rest.2)

/-- **Locality, states**: after a feed, a key holds what its own items made of
what it held before. -/
theorem feed_lookup (is : List ι) (m : Finmap fun _ : κ => σ) (k : κ) :
    (feed start key step m is).1.lookup k
      = (solo start step (m.lookup k) (is.filter fun i => key i = k)).1 := by
  induction is generalizing m with
  | nil => rfl
  | cons i is ih =>
    rw [feed, ih]
    by_cases hk : key i = k
    · subst hk
      simp [solo]
    · rw [Finmap.lookup_insert_of_ne _ (Ne.symm hk)]
      simp [hk]

/-- Related machines fed related items stay related and put out related
outputs. -/
theorem solo_rel (start' : σ) (step' : σ → ι → σ × ο) {R : σ → σ → Prop} {Q : ι → ι → Prop}
    {T : ο → ο → Prop} (hstart : R start start')
    (hstep : ∀ s s' i i', R s s' → Q i i' →
      R (step s i).1 (step' s' i').1 ∧ T (step s i).2 (step' s' i').2)
    {s s' : Option σ} (hs : Option.Rel R s s') {is is' : List ι} (his : List.Forall₂ Q is is') :
    Option.Rel R (solo start step s is).1 (solo start' step' s' is').1 ∧
      List.Forall₂ T (solo start step s is).2 (solo start' step' s' is').2 := by
  induction his generalizing s s' with
  | nil => exact ⟨hs, .nil⟩
  | cons hi _ ih =>
    have hcur : R (s.getD start) (s'.getD start') := by
      cases hs with
      | some hr => exact hr
      | none => exact hstart
    obtain ⟨hR, hT⟩ := hstep _ _ _ _ hcur hi
    obtain ⟨hR', hT'⟩ := ih (.some hR)
    exact ⟨hR', .cons hT hT'⟩

/-- Outputs come in item order, and what an item settles of its output (its key,
for one) can be read off the items. -/
theorem feed_outputs_map {τ : Type*} {out : ο → τ} {inp : ι → τ}
    (hout : ∀ s i, out (step s i).2 = inp i) (is : List ι) (m : Finmap fun _ : κ => σ) :
    (feed start key step m is).2.map out = is.map inp := by
  induction is generalizing m with
  | nil => rfl
  | cons i is ih =>
    simp only [feed, List.map_cons, hout, ih]

/-- The output in the place of an item is what the step makes of that item, from some
state. -/
theorem feed_output_at {is : List ι} {n : Nat} {i : ι} (h : is[n]? = some i)
    (m : Finmap fun _ : κ => σ) : ∃ s, (feed start key step m is).2[n]? = some (step s i).2 := by
  induction is generalizing m n with
  | nil => cases h
  | cons i' is ih =>
    cases n with
    | zero =>
      obtain rfl := Option.some.inj h
      exact ⟨_, rfl⟩
    | succ n => exact ih h _

/-- **Locality, outputs**: the outputs of one key are those of its own items. -/
theorem feed_outputs_filter {okey : ο → κ} (hkey : ∀ s i, okey (step s i).2 = key i)
    (is : List ι) (m : Finmap fun _ : κ => σ) (k : κ) :
    (feed start key step m is).2.filter (fun o => okey o = k)
      = (solo start step (m.lookup k) (is.filter fun i => key i = k)).2 := by
  induction is generalizing m with
  | nil => rfl
  | cons i is ih =>
    simp only [feed]
    by_cases hk : key i = k
    · subst hk
      rw [List.filter_cons_of_pos (by simp [hkey]), ih]
      simp [solo]
    · rw [List.filter_cons_of_neg (by simpa [hkey] using hk), ih,
        Finmap.lookup_insert_of_ne _ (Ne.symm hk)]
      simp [hk]

/-- A property of single states that every step keeps holds of every state
after a feed; what such steps put out holds of every output. -/
theorem feed_invariant {P : σ → Prop} {Q : ο → Prop} (hstart : P start)
    (hstep : ∀ s i, P s → P (step s i).1 ∧ Q (step s i).2)
    (is : List ι) (m : Finmap fun _ : κ => σ) (hm : ∀ k s, m.lookup k = some s → P s) :
    (∀ k s, (feed start key step m is).1.lookup k = some s → P s) ∧
      ∀ o ∈ (feed start key step m is).2, Q o := by
  induction is generalizing m with
  | nil => exact ⟨hm, fun o ho => by cases ho⟩
  | cons i is ih =>
    simp only [feed]
    have hcur : P ((m.lookup (key i)).getD start) := by
      cases hl : m.lookup (key i) with
      | none => exact hstart
      | some s' => exact hm _ _ hl
    obtain ⟨hP, hQ⟩ := hstep _ i hcur
    obtain ⟨hstates, houts⟩ := ih (m.insert (key i) _) fun k s hk => by
      by_cases he : k = key i
      · subst he
        rw [Finmap.lookup_insert] at hk
        obtain rfl := Option.some.inj hk
        exact hP
      · rw [Finmap.lookup_insert_of_ne _ he] at hk
        exact hm k s hk
    refine ⟨hstates, ?_⟩
    intro o ho
    rcases List.mem_cons.mp ho with rfl | hrest
    · exact hQ
    · exact houts o hrest

/-- What every step puts out, whatever its state, every output of a feed is. -/
theorem feed_forall_outputs {Q : ο → Prop} (hstep : ∀ s i, Q (step s i).2) (is : List ι)
    (m : Finmap fun _ : κ => σ) : ∀ o ∈ (feed start key step m is).2, Q o :=
  (feed_invariant (P := fun _ => True) start key step trivial (fun s i _ => ⟨trivial, hstep s i⟩)
    is m fun _ _ _ => trivial).2

end Keyed
