import MemoryPressure.Json.Grammar

/-!
# Levels of derived texts

`nestingFrom` counts brackets and braces over any bytes. `levelsFrom` counts a string
as some levels of its own as well, none of them being `nestingFrom` again
(`levelsFrom_zero`).

- `Opens n t`: whatever follows `t` is `n` levels deeper than `t` itself.
- `StringToken.opens`, `opens_neutral`: tokens are passed by.
- `Denotes.opens`, `Elements.opens`, `Members.opens`: a value closes what it opens, so
  the levels of a text are those of its parts.

One family of counts, with the levels of a string as a parameter, serves both users of this
module. With 0 it is the nesting of containers, by which the parser is shown to be complete.
With 1 it is what the parser's depth limit counts (`DepthLimit.lean`). `levelsFrom_bounds`
relates the two: they differ by at most the levels of one string, since strings do not nest.

The counts go over bytes from left to right with the depth so far, while derivations are
trees. `Opens` is the interface between the two: it says of a part of a text what it adds to
the depth behind it and what its own deepest level is, and parts put together open what
they open together.
-/

namespace MemoryPressure

namespace JsonText

mutual

/-- The deepest level of the rest of a text, `depth` of them being open, where a
string counts as `string` levels. -/
def levelsFrom (string depth : Nat) : Bytes → Nat
  | [] => depth
  | c :: s =>
    if c = quote then max (depth + string) (levelsInString string depth s)
    else if c = openBracket ∨ c = openBrace then levelsFrom string (depth + 1) s
    else if c = closeBracket ∨ c = closeBrace then max depth (levelsFrom string (depth - 1) s)
    else levelsFrom string depth s

/-- The deepest level of the rest of a text from inside a string. -/
def levelsInString (string depth : Nat) : Bytes → Nat
  | [] => depth
  | c :: s =>
    if c = quote then levelsFrom string depth s
    else if c = backslash then levelsEscaped string depth s
    else levelsInString string depth s

/-- The deepest level of the rest of a text after a backslash in a string. -/
def levelsEscaped (string depth : Nat) : Bytes → Nat
  | [] => depth
  | _ :: s => levelsInString string depth s

end

/-- How deep a text nests when every string in it is a level like a container. -/
def levelNesting (text : Bytes) : Nat := levelsFrom 1 0 text

mutual

/-- **What strings add**: the levels are at least the containers, and no more than these
and the levels of one string. -/
theorem levelsFrom_bounds (k depth : Nat) : ∀ s, depth ≤ nestingFrom depth s ∧
    nestingFrom depth s ≤ levelsFrom k depth s ∧ levelsFrom k depth s ≤ nestingFrom depth s + k
  | [] => ⟨le_refl _, le_refl _, Nat.le_add_right _ _⟩
  | c :: s => by
    rw [levelsFrom, nestingFrom]
    have hstring := levelsInString_bounds k depth s
    have hopen := levelsFrom_bounds k (depth + 1) s
    have hclose := levelsFrom_bounds k (depth - 1) s
    have hother := levelsFrom_bounds k depth s
    split_ifs <;> omega

theorem levelsInString_bounds (k depth : Nat) : ∀ s, depth ≤ nestingInString depth s ∧
    nestingInString depth s ≤ levelsInString k depth s ∧
      levelsInString k depth s ≤ nestingInString depth s + k
  | [] => ⟨le_refl _, le_refl _, Nat.le_add_right _ _⟩
  | c :: s => by
    rw [levelsInString, nestingInString]
    split_ifs
    · exact levelsFrom_bounds k depth s
    · exact levelsEscaped_bounds k depth s
    · exact levelsInString_bounds k depth s

theorem levelsEscaped_bounds (k depth : Nat) : ∀ s, depth ≤ nestingEscaped depth s ∧
    nestingEscaped depth s ≤ levelsEscaped k depth s ∧
      levelsEscaped k depth s ≤ nestingEscaped depth s + k
  | [] => ⟨le_refl _, le_refl _, Nat.le_add_right _ _⟩
  | _ :: s => levelsInString_bounds k depth s

end

theorem le_nestingFrom (depth : Nat) (s : Bytes) : depth ≤ nestingFrom depth s :=
  (levelsFrom_bounds 0 depth s).1

theorem le_levelsFrom (k depth : Nat) (s : Bytes) : depth ≤ levelsFrom k depth s :=
  (le_nestingFrom depth s).trans (levelsFrom_bounds k depth s).2.1

/-- Strings add a level at most. -/
theorem levelNesting_le (text : Bytes) : levelNesting text ≤ containerNesting text + 1 :=
  (levelsFrom_bounds 1 0 text).2.2

theorem containerNesting_le (text : Bytes) : containerNesting text ≤ levelNesting text :=
  (levelsFrom_bounds 1 0 text).2.1

/-- Without strings the levels are the containers. -/
theorem levelsFrom_zero (depth : Nat) (s : Bytes) : levelsFrom 0 depth s = nestingFrom depth s :=
  le_antisymm (levelsFrom_bounds 0 depth s).2.2 (levelsFrom_bounds 0 depth s).2.1

/-! ## What a part of a text opens -/

/-- What follows `t` is `n` levels deeper than `t`, and the deepest level is that of the
one or the other. -/
def Opens (n : Nat) (t : Bytes) : Prop :=
  ∀ k depth s, levelsFrom k depth (t ++ s)
    = max (levelsFrom k depth t) (levelsFrom k (depth + n) s)

theorem Opens.append {n m : Nat} {t u : Bytes} (ht : Opens n t) (hu : Opens m u) :
    Opens (n + m) (t ++ u) := by
  intro k depth s
  rw [List.append_assoc, ht, hu, ht k depth u, max_assoc, Nat.add_assoc]

/-- A bound on a text is one on its parts. -/
theorem Opens.levels_le_iff {n k depth limit : Nat} {t s : Bytes} (ht : Opens n t) :
    levelsFrom k depth (t ++ s) ≤ limit ↔
      levelsFrom k depth t ≤ limit ∧ levelsFrom k (depth + n) s ≤ limit := by
  rw [ht, max_le_iff]

/-- An opening bracket or brace. -/
theorem levelsFrom_open {c : UInt8} (hc : c = openBracket ∨ c = openBrace) (k depth : Nat)
    (s : Bytes) : levelsFrom k depth (c :: s) = levelsFrom k (depth + 1) s := by
  rcases hc with rfl | rfl
  · rw [levelsFrom, if_neg (by decide), if_pos (by decide)]
  · rw [levelsFrom, if_neg (by decide), if_pos (by decide)]

theorem lt_of_levelsFrom_open {c : UInt8} (hc : c = openBracket ∨ c = openBrace)
    {k depth limit : Nat} {s : Bytes} (h : levelsFrom k depth (c :: s) ≤ limit) :
    depth < limit := by
  rw [levelsFrom_open hc] at h
  exact (le_levelsFrom k (depth + 1) s).trans h

/-- A closing bracket or brace. -/
theorem levelsFrom_close {c : UInt8} (hc : c = closeBracket ∨ c = closeBrace) (k depth : Nat)
    (s : Bytes) : levelsFrom k (depth + 1) (c :: s) = max (depth + 1) (levelsFrom k depth s) := by
  rcases hc with rfl | rfl
  · rw [levelsFrom, if_neg (by decide), if_neg (by decide), if_pos (by decide)]
    rfl
  · rw [levelsFrom, if_neg (by decide), if_neg (by decide), if_pos (by decide)]
    rfl

/-- What stands between brackets or braces is a level deeper. -/
theorem levelsFrom_enclose {o c : UInt8} (ho : o = openBracket ∨ o = openBrace)
    (hc : c = closeBracket ∨ c = closeBrace) {t : Bytes} (ht : Opens 0 t) (k depth : Nat)
    (s : Bytes) : levelsFrom k depth (o :: (t ++ c :: s))
      = max (levelsFrom k (depth + 1) t) (levelsFrom k depth s) := by
  have hle := le_levelsFrom k (depth + 1) t
  rw [levelsFrom_open ho, ht, Nat.add_zero, levelsFrom_close hc, ← max_assoc, max_eq_left hle]

theorem Opens.enclose {o c : UInt8} (ho : o = openBracket ∨ o = openBrace)
    (hc : c = closeBracket ∨ c = closeBrace) {t : Bytes} (ht : Opens 0 t) :
    Opens 0 (o :: (t ++ [c])) := by
  intro k depth s
  rw [List.cons_append, List.append_assoc, List.singleton_append, levelsFrom_enclose ho hc ht,
    levelsFrom_enclose ho hc ht, levelsFrom, max_assoc]
  exact congrArg _ (max_eq_right (le_levelsFrom k depth s)).symm

/-! ## Tokens -/

/-- A byte that neither opens nor closes anything. -/
def Neutral (c : UInt8) : Prop :=
  c ≠ quote ∧ c ≠ openBracket ∧ c ≠ openBrace ∧ c ≠ closeBracket ∧ c ≠ closeBrace

instance (c : UInt8) : Decidable (Neutral c) := inferInstanceAs (Decidable (_ ∧ _))

theorem levelsFrom_cons {c : UInt8} (hc : Neutral c) (k depth : Nat) (s : Bytes) :
    levelsFrom k depth (c :: s) = levelsFrom k depth s := by
  obtain ⟨h1, h2, h3, h4, h5⟩ := hc
  rw [levelsFrom, if_neg h1, if_neg (not_or.mpr ⟨h2, h3⟩), if_neg (not_or.mpr ⟨h4, h5⟩)]

theorem levelsFrom_neutral {t : Bytes} (ht : ∀ c ∈ t, Neutral c) (k depth : Nat) (s : Bytes) :
    levelsFrom k depth (t ++ s) = levelsFrom k depth s := by
  induction t with
  | nil => rfl
  | cons c t ih =>
    rw [List.cons_append, levelsFrom_cons (ht c List.mem_cons_self),
      ih fun c hc => ht c (List.mem_cons_of_mem _ hc)]

theorem levelsFrom_of_neutral {t : Bytes} (ht : ∀ c ∈ t, Neutral c) (k depth : Nat) :
    levelsFrom k depth t = depth := by
  have h := levelsFrom_neutral ht k depth []
  rwa [List.append_nil] at h

theorem opens_neutral {t : Bytes} (ht : ∀ c ∈ t, Neutral c) : Opens 0 t := by
  intro k depth s
  rw [levelsFrom_neutral ht, levelsFrom_of_neutral ht]
  exact (max_eq_right (le_levelsFrom k depth s)).symm

theorem neutral_of_isWs {c : UInt8} (hc : isWs c = true) : Neutral c := by
  refine ⟨?_, ?_, ?_, ?_, ?_⟩
  all_goals
    rintro rfl
    exact absurd hc (by decide)

theorem neutral_of_isDigit {c : UInt8} (hc : isDigit c = true) : Neutral c := by
  refine ⟨?_, ?_, ?_, ?_, ?_⟩
  all_goals
    rintro rfl
    exact absurd hc (by decide)

theorem Ws.neutral {w : Bytes} (hw : Ws w) : ∀ c ∈ w, Neutral c := fun c hc =>
  neutral_of_isWs (hw c hc)

/-- The bytes of a number token are digits, signs, a point and the letter of an
exponent. -/
theorem Decimal.WellFormed.forall_mem_text {d : Decimal} (hd : d.WellFormed) {p : UInt8 → Prop}
    (hdigit : ∀ c, isDigit c = true → p c) (hother : ∀ c ∈ [minus, plus, dot, 0x65, 0x45], p c) :
    ∀ c ∈ d.text, p c := by
  obtain ⟨hint, -, hfrac, hexp⟩ := hd
  intro c hc
  rw [Decimal.text, List.mem_append, List.mem_append, List.mem_append] at hc
  rcases hc with ((hc | hc) | hc) | hc
  · split_ifs at hc with hneg
    · rw [List.mem_singleton.mp hc]
      exact hother _ (by decide +kernel)
    · cases hc
  · exact hdigit c (hint.2 c hc)
  · cases hf : d.frac with
    | none =>
      rw [hf] at hc
      cases hc
    | some ds =>
      rw [hf] at hc
      rcases List.mem_cons.mp hc with rfl | hc
      · exact hother _ (by decide +kernel)
      · exact hdigit c ((hfrac ds hf).2 c hc)
  · cases he : d.exp with
    | none =>
      rw [he] at hc
      cases hc
    | some e =>
      rw [he] at hc
      obtain ⟨hletter, hsign, hdigits⟩ := hexp e he
      rcases List.mem_cons.mp hc with rfl | hc
      · rcases hletter with h | h
        · rw [h]
          exact hother _ (by decide +kernel)
        · rw [h]
          exact hother _ (by decide +kernel)
      · rcases List.mem_append.mp hc with hc | hc
        · rcases hsign c (Option.mem_toList.mp hc) with rfl | rfl
          · exact hother _ (by decide +kernel)
          · exact hother _ (by decide +kernel)
        · exact hdigit c (hdigits.2 c hc)

/-- No byte of a number token opens or closes anything. -/
theorem Decimal.WellFormed.neutral {d : Decimal} (hd : d.WellFormed) :
    ∀ c ∈ d.text, Neutral c :=
  hd.forall_mem_text (fun _ hc => neutral_of_isDigit hc) (by decide +kernel)

theorem HexDigit.levelsInString_cons {c : UInt8} {v : Nat} (h : HexDigit c v) (k depth : Nat)
    (s : Bytes) : levelsInString k depth (c :: s) = levelsInString k depth s := by
  have hc : c ≠ quote ∧ c ≠ backslash := by
    constructor
    · rintro rfl
      rcases h with ⟨hlow, -⟩ | ⟨hlow, -⟩ | ⟨hlow, -⟩ <;> exact absurd hlow (by decide)
    · rintro rfl
      rcases h with ⟨-, hhigh⟩ | ⟨hlow, -⟩ | ⟨-, hhigh⟩
      · exact absurd hhigh (by decide)
      · exact absurd hlow (by decide)
      · exact absurd hhigh (by decide)
  rw [levelsInString, if_neg hc.1, if_neg hc.2]

theorem HexQuad.levelsInString_append {h : Bytes} {cp : Nat} (hq : HexQuad h cp) (k depth : Nat)
    (s : Bytes) : levelsInString k depth (h ++ s) = levelsInString k depth s := by
  obtain ⟨ha, hb, hc, hd⟩ := hq
  rw [List.cons_append, ha.levelsInString_cons, List.cons_append, hb.levelsInString_cons,
    List.cons_append, hc.levelsInString_cons, List.cons_append, hd.levelsInString_cons,
    List.nil_append]

theorem Escape.levelsEscaped_append {e b : Bytes} (he : Escape e b) (k depth : Nat) (s : Bytes) :
    levelsEscaped k depth (e ++ s) = levelsInString k depth s := by
  cases he with
  | simple => rfl
  | scalar hq => exact hq.levelsInString_append k depth s
  | pair hq hq' =>
    rw [List.cons_append, levelsEscaped, List.append_assoc, hq.levelsInString_append,
      List.cons_append, List.cons_append, levelsInString, if_neg (by decide), if_pos rfl,
      levelsEscaped, hq'.levelsInString_append]

theorem StringBody.levelsInString_append {t b : Bytes} (ht : StringBody t b) (k depth : Nat)
    (s : Bytes) : levelsInString k depth (t ++ s) = levelsInString k depth s := by
  induction ht with
  | nil => rfl
  | raw _ hq hb _ ih => rw [List.cons_append, levelsInString, if_neg hq, if_neg hb, ih]
  | escape he _ ih =>
    rw [List.cons_append, List.append_assoc, levelsInString, if_neg (by decide), if_pos rfl,
      he.levelsEscaped_append, ih]

/-- **A string token is passed by**, and counts. -/
theorem StringToken.levelsFrom_append {m : Nat} {t b : Bytes} (ht : StringToken m t b)
    (k depth : Nat) (s : Bytes) :
    levelsFrom k depth (t ++ s) = max (depth + k) (levelsFrom k depth s) := by
  obtain ⟨hbody, -⟩ := ht
  rw [List.cons_append, List.append_assoc, levelsFrom, if_pos rfl, hbody.levelsInString_append,
    List.singleton_append, levelsInString, if_pos rfl]

theorem StringToken.levelsFrom_eq {m : Nat} {t b : Bytes} (ht : StringToken m t b)
    (k depth : Nat) : levelsFrom k depth t = depth + k := by
  have h := ht.levelsFrom_append k depth []
  rw [List.append_nil] at h
  rw [h]
  exact max_eq_left (Nat.le_add_right _ _)

theorem StringToken.opens {m : Nat} {t b : Bytes} (ht : StringToken m t b) : Opens 0 t := by
  intro k depth s
  rw [ht.levelsFrom_append, ht.levelsFrom_eq, Nat.add_zero]

/-! ## Values -/

variable {N : Type} [DecimalDouble N] {m : Nat}

theorem opens_colon : Opens 0 [colon] := opens_neutral (List.forall_mem_singleton.mpr (by decide))

theorem opens_comma : Opens 0 [comma] := opens_neutral (List.forall_mem_singleton.mpr (by decide))

theorem neutral_litTrue : ∀ c ∈ litTrue, Neutral c := by decide +kernel

theorem neutral_litFalse : ∀ c ∈ litFalse, Neutral c := by decide +kernel

theorem neutral_litNull : ∀ c ∈ litNull, Neutral c := by decide +kernel

mutual

/-- **A value closes what it opens.** -/
theorem Denotes.opens : ∀ {t : Bytes} {v : Json Bytes N}, Denotes m t v → Opens 0 t
  | _, _, .nullValue => opens_neutral neutral_litNull
  | _, _, .trueValue => opens_neutral neutral_litTrue
  | _, _, .falseValue => opens_neutral neutral_litFalse
  | _, _, .number hd _ => opens_neutral hd.neutral
  | _, _, .string ht => ht.opens
  | _, _, .emptyArray hw => (opens_neutral hw.neutral).enclose (.inl rfl) (.inl rfl)
  | _, _, .array ht => (Elements.opens ht).enclose (.inl rfl) (.inl rfl)
  | _, _, .emptyObject hw => (opens_neutral hw.neutral).enclose (.inr rfl) (.inr rfl)
  | _, _, .object ht => (Members.opens ht).enclose (.inr rfl) (.inr rfl)

theorem Elements.opens : ∀ {t : Bytes} {vs : List (Json Bytes N)}, Elements m t vs → Opens 0 t
  | _, _, .one hw ht hw' =>
    (opens_neutral hw.neutral).append ((Denotes.opens ht).append (opens_neutral hw'.neutral))
  | _, _, .cons hw ht hw' hts =>
    (opens_neutral hw.neutral).append ((Denotes.opens ht).append
      ((opens_neutral hw'.neutral).append (opens_comma.append (Elements.opens hts))))

theorem Members.opens : ∀ {t : Bytes} {kvs : List (Bytes × Json Bytes N)},
    Members m t kvs → Opens 0 t
  | _, _, .one hw hk hw₁ hw₂ ht hw' =>
    (opens_neutral hw.neutral).append (hk.opens.append ((opens_neutral hw₁.neutral).append
      (opens_colon.append ((opens_neutral hw₂.neutral).append ((Denotes.opens ht).append
        (opens_neutral hw'.neutral))))))
  | _, _, .cons hw hk hw₁ hw₂ ht hw' hts =>
    (opens_neutral hw.neutral).append (hk.opens.append ((opens_neutral hw₁.neutral).append
      (opens_colon.append ((opens_neutral hw₂.neutral).append ((Denotes.opens ht).append
        ((opens_neutral hw'.neutral).append (opens_comma.append (Members.opens hts))))))))

end

/-! ## Containers alone -/

theorem nestingFrom_cons {c : UInt8} (hc : Neutral c) (depth : Nat) (s : Bytes) :
    nestingFrom depth (c :: s) = nestingFrom depth s := by
  rw [← levelsFrom_zero, levelsFrom_cons hc, levelsFrom_zero]

theorem nestingFrom_neutral {t : Bytes} (ht : ∀ c ∈ t, Neutral c) (depth : Nat) (s : Bytes) :
    nestingFrom depth (t ++ s) = nestingFrom depth s := by
  rw [← levelsFrom_zero, levelsFrom_neutral ht, levelsFrom_zero]

theorem StringToken.nestingFrom_append {t b : Bytes} (ht : StringToken m t b) (depth : Nat)
    (s : Bytes) : nestingFrom depth (t ++ s) = nestingFrom depth s := by
  rw [← levelsFrom_zero, ht.levelsFrom_append, levelsFrom_zero]
  exact max_eq_right (le_nestingFrom depth s)

theorem nestingFrom_open {c : UInt8} (hc : c = openBracket ∨ c = openBrace) (depth : Nat)
    (s : Bytes) : nestingFrom depth (c :: s) = nestingFrom (depth + 1) s := by
  rw [← levelsFrom_zero, levelsFrom_open hc, levelsFrom_zero]

theorem nestingFrom_close {c : UInt8} (hc : c = closeBracket ∨ c = closeBrace) (depth : Nat)
    (s : Bytes) : nestingFrom (depth + 1) (c :: s) = max (depth + 1) (nestingFrom depth s) := by
  rw [← levelsFrom_zero, levelsFrom_close hc, levelsFrom_zero]

end JsonText

end MemoryPressure
