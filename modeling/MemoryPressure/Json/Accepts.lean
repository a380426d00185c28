import MemoryPressure.Json.Nesting
import MemoryPressure.Json.Tokens

/-!
# The parser accepts its grammar

- `elementsLoop_eq_done`, `membersLoop_eq_done`, `parseValue_eq_done`: what a method that
  succeeds has done.
- `of_parseValue`: a value that is read is one the grammar derives, and denotes
  what the grammar says it denotes; by induction on the bound of the recursion,
  given the loops over any sound value parser.
- `Denotes.parse`: a value of the grammar is read to its end, whatever follows it
  in a text, if the depth allows it; by induction on the derivation.
- `parseDocument_ne_exhausted`: the bounds on turns and recursion are never met.
- `json_parse_accepts`: together, for whole texts.

What the number functions promise is `ReadsDecimals`.

**Three results, three inductions.** Soundness follows the parser: each inversion lemma
takes one success apart, and a value of recursion bound `fuel + 1` is read from values of
bound `fuel`. The loops are shown sound for every value parser that is (`ReadsValues`,
`ReadsKeys`), so that they do not know how values recurse. Completeness follows the
grammar, by mutual induction over values, elements and members; what a text may be
followed by matters only for numbers, whose end is found by looking ahead
(`endsNumber_ws`). Termination follows the bytes: every turn of a loop and every step down
consumes one at least, so that a bound of the text's length is enough.

The depth is in the second alone. The parser refuses what nests too deep, and a string is
counted at the depth it stands at; `DepthLimit.lean` says exactly what is counted, and here
it is enough that containers nest less deep than the limit.
-/

namespace MemoryPressure

open JsonText

/-- What `from_chars` promises of number tokens: a token is read to its end as
the double it denotes, or not at all if it is out of range. -/
class ReadsDecimals (N : Type) [DecimalDouble N] : Prop where
  fromChars_text : ∀ d : Decimal, d.WellFormed → JsonDouble.fromChars d.text =
    (DecimalDouble.ofDecimal d.neg d.magnitude : Option N).map fun n => (n, [])
  isFinite_ofDecimal : ∀ (neg : Bool) (q : ℚ) (n : N),
    DecimalDouble.ofDecimal neg q = some n → Double.isFinite n = true

/-- Exact numbers: a token denotes its number, and none is out of range. -/
instance : DecimalDouble ℚ where
  floor q := q.floor
  toInt64 q := Int64.ofInt (q.num.tdiv q.den)
  toUInt64 q := UInt64.ofNat (q.num.tdiv q.den).toNat
  toChars q := (Rat.toText q).toUTF8.toList
  fromChars s :=
    (scanDecimal s).map fun (d, rest) => (if d.neg then -d.magnitude else d.magnitude, rest)
  ofDecimal neg q := some (if neg then -q else q)

namespace JsonText

variable {N : Type} [DecimalDouble N] {limits : JsonParseLimits}

/-! ## White space around elements and members -/

theorem Ws.append {w w' : Bytes} (hw : Ws w) (hw' : Ws w') : Ws (w ++ w') := by
  intro c hc
  rcases List.mem_append.mp hc with h | h
  · exact hw c h
  · exact hw' c h

theorem Elements.ws_append {m : Nat} {w t : Bytes} {vs : List (Json Bytes N)} (hw : Ws w)
    (h : Elements m t vs) : Elements m (w ++ t) vs := by
  cases h with
  | one hw₀ ht hw' =>
    rw [← List.append_assoc]
    exact .one (hw.append hw₀) ht hw'
  | cons hw₀ ht hw' hts =>
    rw [← List.append_assoc]
    exact .cons (hw.append hw₀) ht hw' hts

theorem Members.ws_append {m : Nat} {w t : Bytes} {kvs : List (Bytes × Json Bytes N)} (hw : Ws w)
    (h : Members m t kvs) : Members m (w ++ t) kvs := by
  cases h with
  | one hw₀ hk hw₁ hw₂ ht hw' =>
    rw [← List.append_assoc]
    exact .one (hw.append hw₀) hk hw₁ hw₂ ht hw'
  | cons hw₀ hk hw₁ hw₂ ht hw' hts =>
    rw [← List.append_assoc]
    exact .cons (hw.append hw₀) hk hw₁ hw₂ ht hw' hts

/-! ## What is read is derived

White space belongs to no token of the grammar, and the parser skips it before a value and
after: what a loop has read is a sequence of values with the white space on either
side. -/

/-- A value parser reads white space and a value of the grammar. -/
def ReadsValues (m : Nat) (parse : Bytes → Outcome (Json Bytes N)) : Prop :=
  ∀ s v rest, parse s = .done v rest → ∃ w t, Ws w ∧ Denotes m t v ∧ s = w ++ (t ++ rest)

/-- A key parser reads a string token but for its opening quote. -/
def ReadsKeys (m : Nat) (parse : Bytes → Outcome Bytes) : Prop :=
  ∀ s k rest, parse s = .done k rest → ∃ t, StringToken m (quote :: t) k ∧ s = t ++ rest

/-! ### What a success says -/

section

variable {M : Type} {parse : Bytes → Outcome (Json Bytes M)} {n depth : Nat} {s rest : Bytes}
  {v : Json Bytes M}

/-- **Inversion of a turn of the array loop**: a value, and then a bracket or a comma. -/
theorem elementsLoop_eq_done {arr : List (Json Bytes M)}
    (h : elementsLoop parse (n + 1) arr s = .done v rest) :
    ∃ val s₁, parse s = .done val s₁ ∧
      (skipWs s₁ = closeBracket :: rest ∧ v = .array (arr ++ [val]) ∨
        ∃ s₂, skipWs s₁ = comma :: s₂ ∧
          elementsLoop parse n (arr ++ [val]) s₂ = .done v rest) := by
  rw [elementsLoop, Outcome.andThen_eq_done] at h
  obtain ⟨val, s₁, hval, h⟩ := h
  refine ⟨val, s₁, hval, ?_⟩
  split at h
  · cases h
  · rename_i e s₂ hs₂
    split_ifs at h with hclose hcomma
    · obtain ⟨rfl, rfl⟩ := Outcome.done.inj h
      exact .inl ⟨by rw [hs₂, hclose], rfl⟩
    · exact .inr ⟨s₂, by rw [hs₂, hcomma], h⟩

/-- An array that is read has room in the depth; it is empty, or read by the loop. -/
theorem parseArray_eq_done (h : parseArray limits parse depth s = .done v rest) :
    depth < limits.maxDepth ∧ (skipWs s = closeBracket :: rest ∧ v = .array [] ∨
      elementsLoop parse (s.length + 1) [] (skipWs s) = .done v rest) := by
  rw [parseArray] at h
  split_ifs at h with hdepth hclose
  · obtain ⟨rfl, rfl⟩ := Outcome.done.inj h
    obtain ⟨s₁, hs₁⟩ := List.head?_eq_some_iff.mp hclose
    exact ⟨Nat.lt_of_not_ge hdepth, .inl ⟨by rw [hs₁]; rfl, rfl⟩⟩
  · exact ⟨Nat.lt_of_not_ge hdepth, .inr h⟩

/-- **Inversion of a turn of the object loop**: a key, a colon, a value, and then a brace
or a comma. -/
theorem membersLoop_eq_done {key : Bytes → Outcome Bytes} {obj : List (Bytes × Json Bytes M)}
    (h : membersLoop key parse (n + 1) obj s = .done v rest) :
    ∃ s₁ k s₂ s₃ val s₄, skipWs s = quote :: s₁ ∧ key s₁ = .done k s₂ ∧
      skipWs s₂ = colon :: s₃ ∧ parse s₃ = .done val s₄ ∧
      (skipWs s₄ = closeBrace :: rest ∧ v = .object (SortedMap.insert k val obj) ∨
        ∃ s₅, skipWs s₄ = comma :: s₅ ∧
          membersLoop key parse n (SortedMap.insert k val obj) s₅ = .done v rest) := by
  rw [membersLoop] at h
  split at h
  · cases h
  · rename_i q s₁ hs₁
    split_ifs at h with hquote
    rw [Outcome.andThen_eq_done] at h
    obtain ⟨k, s₂, hkey, h⟩ := h
    split at h
    · cases h
    · rename_i c s₃ hs₃
      split_ifs at h with hcolon
      rw [Outcome.andThen_eq_done] at h
      obtain ⟨val, s₄, hval, h⟩ := h
      refine ⟨s₁, k, s₂, s₃, val, s₄, by rw [hs₁, hquote], hkey, by rw [hs₃, hcolon], hval, ?_⟩
      split at h
      · cases h
      · rename_i e s₅ hs₅
        split_ifs at h with hclose hcomma
        · obtain ⟨rfl, rfl⟩ := Outcome.done.inj h
          exact .inl ⟨by rw [hs₅, hclose], rfl⟩
        · exact .inr ⟨s₅, by rw [hs₅, hcomma], h⟩

/-- An object that is read has room in the depth; it is empty, or read by the loop, its keys
a level down. -/
theorem parseObject_eq_done (h : parseObject limits parse depth s = .done v rest) :
    depth < limits.maxDepth ∧ (skipWs s = closeBrace :: rest ∧ v = .object [] ∨
      membersLoop (parseString limits (depth + 1)) parse (s.length + 1) [] (skipWs s)
        = .done v rest) := by
  rw [parseObject] at h
  split_ifs at h with hdepth hclose
  · obtain ⟨rfl, rfl⟩ := Outcome.done.inj h
    obtain ⟨s₁, hs₁⟩ := List.head?_eq_some_iff.mp hclose
    exact ⟨Nat.lt_of_not_ge hdepth, .inl ⟨by rw [hs₁]; rfl, rfl⟩⟩
  · exact ⟨Nat.lt_of_not_ge hdepth, .inr h⟩

end

theorem of_parseLiteral {M : Type} {lit : Bytes} {v v' : Json Bytes M} {s rest : Bytes}
    (h : parseLiteral lit v s = .done v' rest) : s = lit ++ rest ∧ v' = v := by
  rw [parseLiteral] at h
  split_ifs at h with hlit
  obtain ⟨rfl, rfl⟩ := Outcome.done.inj h
  refine ⟨?_, rfl⟩
  conv_lhs => rw [← List.take_append_drop lit.length s, hlit]

/-- **Inversion of a value**, by its first byte. -/
theorem parseValue_eq_done {fuel depth : Nat} {s rest : Bytes} {v : Json Bytes N}
    (h : parseValue limits (fuel + 1) depth s = .done v rest) :
    ∃ c s₁, skipWs s = c :: s₁ ∧
      (c = openBrace ∧
          parseObject limits (parseValue limits fuel (depth + 1)) depth s₁ = .done v rest ∨
        c = openBracket ∧
          parseArray limits (parseValue limits fuel (depth + 1)) depth s₁ = .done v rest ∨
        (c = quote ∧ ∃ str, parseString limits depth s₁ = .done str rest ∧ v = .string str) ∨
        (c :: s₁ = litTrue ++ rest ∧ v = .bool true) ∨
        (c :: s₁ = litFalse ++ rest ∧ v = .bool false) ∨
        (c :: s₁ = litNull ++ rest ∧ v = .null) ∨
        parseNumber limits (c :: s₁) = .done v rest) := by
  rw [parseValue] at h
  split at h
  · cases h
  · rename_i c s₁ hs₁
    refine ⟨c, s₁, hs₁, ?_⟩
    split_ifs at h with hobj harr hstr htrue hfalse hnull hnum
    · exact .inl ⟨hobj, h⟩
    · exact .inr (.inl ⟨harr, h⟩)
    · rw [Outcome.andThen_eq_done] at h
      obtain ⟨str, s₂, hread, h⟩ := h
      obtain ⟨rfl, rfl⟩ := Outcome.done.inj h
      exact .inr (.inr (.inl ⟨hstr, str, hread, rfl⟩))
    · exact .inr (.inr (.inr (.inl (of_parseLiteral h))))
    · exact .inr (.inr (.inr (.inr (.inl (of_parseLiteral h)))))
    · exact .inr (.inr (.inr (.inr (.inr (.inl (of_parseLiteral h))))))
    · exact .inr (.inr (.inr (.inr (.inr (.inr h)))))

/-! ### The grammar -/

/-- **What the array loop reads are elements and a bracket.** -/
theorem of_elementsLoop {m n : Nat} {parse : Bytes → Outcome (Json Bytes N)}
    (hp : ReadsValues m parse) {arr : List (Json Bytes N)} {s rest : Bytes} {v : Json Bytes N}
    (h : elementsLoop parse n arr s = .done v rest) :
    ∃ t vs, Elements m t vs ∧ s = t ++ closeBracket :: rest ∧ v = .array (arr ++ vs) := by
  induction n generalizing arr s with
  | zero => cases h
  | succ n ih =>
    obtain ⟨val, s₁, hval, hnext⟩ := elementsLoop_eq_done h
    obtain ⟨w, t, hw, ht, rfl⟩ := hp _ _ _ hval
    obtain ⟨w', hw', hs₁⟩ := exists_ws s₁
    rcases hnext with ⟨hclose, rfl⟩ | ⟨s₂, hcomma, hloop⟩
    · rw [hclose] at hs₁
      exact ⟨_, [val], .one hw ht hw', by rw [hs₁]; simp, rfl⟩
    · obtain ⟨ts, vs, hts, rfl, rfl⟩ := ih hloop
      rw [hcomma] at hs₁
      exact ⟨_, val :: vs, .cons hw ht hw' hts, by rw [hs₁]; simp, by simp⟩

theorem of_parseArray {m depth : Nat} {parse : Bytes → Outcome (Json Bytes N)}
    (hp : ReadsValues m parse) {s rest : Bytes} {v : Json Bytes N}
    (h : parseArray limits parse depth s = .done v rest) :
    ∃ t, Denotes m (openBracket :: t) v ∧ s = t ++ rest := by
  obtain ⟨w, hw, hs⟩ := exists_ws s
  obtain ⟨-, ⟨hclose, rfl⟩ | h⟩ := parseArray_eq_done h
  · rw [hclose] at hs
    exact ⟨w ++ [closeBracket], .emptyArray hw, by rw [hs]; simp⟩
  · obtain ⟨t, vs, ht, hs', rfl⟩ := of_elementsLoop hp h
    rw [hs'] at hs
    exact ⟨w ++ t ++ [closeBracket], .array (ht.ws_append hw), by rw [hs]; simp⟩

/-- **What the object loop reads are members and a brace.** -/
theorem of_membersLoop {m n : Nat} {key : Bytes → Outcome Bytes}
    {parse : Bytes → Outcome (Json Bytes N)} (hk : ReadsKeys m key) (hp : ReadsValues m parse)
    {obj : List (Bytes × Json Bytes N)} {s rest : Bytes} {v : Json Bytes N}
    (h : membersLoop key parse n obj s = .done v rest) :
    ∃ t kvs, Members m t kvs ∧ s = t ++ closeBrace :: rest ∧
      v = .object (kvs.foldl (fun o kv => SortedMap.insert kv.1 kv.2 o) obj) := by
  induction n generalizing obj s with
  | zero => cases h
  | succ n ih =>
    obtain ⟨s₁, k, s₂, s₃, val, s₄, hquote, hkey, hcolon, hval, hnext⟩ := membersLoop_eq_done h
    obtain ⟨w, hw, hs⟩ := exists_ws s
    obtain ⟨kt, hkt, rfl⟩ := hk _ _ _ hkey
    obtain ⟨w₁, hw₁, hs₂⟩ := exists_ws s₂
    obtain ⟨w₂, t, hw₂, ht, rfl⟩ := hp _ _ _ hval
    obtain ⟨w', hw', hs₄⟩ := exists_ws s₄
    rw [hquote] at hs
    rw [hcolon] at hs₂
    rcases hnext with ⟨hclose, rfl⟩ | ⟨s₅, hcomma, hloop⟩
    · rw [hclose] at hs₄
      refine ⟨_, [(k, val)], .one hw hkt hw₁ hw₂ ht hw', ?_, rfl⟩
      rw [hs, hs₂, hs₄]
      simp
    · obtain ⟨ts, kvs, hts, rfl, rfl⟩ := ih hloop
      rw [hcomma] at hs₄
      refine ⟨_, (k, val) :: kvs, .cons hw hkt hw₁ hw₂ ht hw' hts, ?_, rfl⟩
      rw [hs, hs₂, hs₄]
      simp

theorem of_parseObject {depth : Nat} {parse : Bytes → Outcome (Json Bytes N)}
    (hp : ReadsValues limits.maxString parse) {s rest : Bytes} {v : Json Bytes N}
    (h : parseObject limits parse depth s = .done v rest) :
    ∃ t, Denotes limits.maxString (openBrace :: t) v ∧ s = t ++ rest := by
  obtain ⟨w, hw, hs⟩ := exists_ws s
  obtain ⟨-, ⟨hclose, rfl⟩ | h⟩ := parseObject_eq_done h
  · rw [hclose] at hs
    exact ⟨w ++ [closeBrace], .emptyObject hw, by rw [hs]; simp⟩
  · obtain ⟨t, kvs, ht, hs', rfl⟩ := of_membersLoop (fun _ _ _ => of_parseString) hp h
    rw [hs'] at hs
    exact ⟨w ++ t ++ [closeBrace], .object (ht.ws_append hw), by rw [hs]; simp⟩

theorem of_parseNumber [ReadsDecimals N] {m : Nat} {s rest : Bytes} {v : Json Bytes N}
    (h : parseNumber limits s = .done v rest) : ∃ t, Denotes m t v ∧ s = t ++ rest := by
  rw [parseNumber] at h
  split at h
  · cases h
  · rename_i d s₁ hscan
    obtain ⟨hd, rfl⟩ := of_scanDecimal hscan
    split at h
    · rename_i value hvalue
      split_ifs at h
      obtain ⟨rfl, rfl⟩ := Outcome.done.inj h
      rw [ReadsDecimals.fromChars_text d hd, Option.map_eq_some_iff] at hvalue
      obtain ⟨n, hn, heq⟩ := hvalue
      obtain ⟨rfl, -⟩ := Prod.mk.inj heq
      exact ⟨d.text, .number hd hn, rfl⟩
    · cases h

/-- **What is read is white space and a value of the grammar.** -/
theorem of_parseValue [ReadsDecimals N] (fuel depth : Nat) :
    ReadsValues (N := N) limits.maxString (parseValue limits fuel depth) := by
  induction fuel generalizing depth with
  | zero => exact fun s v rest h => by cases h
  | succ fuel ih =>
    intro s v rest h
    obtain ⟨c, s₁, hs₁, hcases⟩ := parseValue_eq_done h
    obtain ⟨w, hw, hs⟩ := exists_ws s
    rw [hs₁] at hs
    suffices hval : ∃ t, Denotes limits.maxString t v ∧ c :: s₁ = t ++ rest by
      obtain ⟨t, ht, heq⟩ := hval
      exact ⟨w, t, hw, ht, by rw [hs, heq]⟩
    rcases hcases with ⟨rfl, hobj⟩ | ⟨rfl, harr⟩ | ⟨rfl, str, hstr, rfl⟩ | ⟨htrue, rfl⟩ |
      ⟨hfalse, rfl⟩ | ⟨hnull, rfl⟩ | hnum
    · obtain ⟨t, ht, rfl⟩ := of_parseObject (ih _) hobj
      exact ⟨_, ht, rfl⟩
    · obtain ⟨t, ht, rfl⟩ := of_parseArray (ih _) harr
      exact ⟨_, ht, rfl⟩
    · obtain ⟨t, ht, rfl⟩ := of_parseString hstr
      exact ⟨_, .string ht, rfl⟩
    · exact ⟨_, .trueValue, htrue⟩
    · exact ⟨_, .falseValue, hfalse⟩
    · exact ⟨_, .nullValue, hnull⟩
    · exact of_parseNumber hnum

/-! ## What is derived is read

A token is read back in front of anything that may follow it, so the lemmas carry the rest
of the text along. Loops are given as many turns as there are bytes, and the recursion as
deep a bound; both only have to be enough, which is said of any bound that is. -/

theorem skipWs_skipWs (s : Bytes) : skipWs (skipWs s) = skipWs s := by
  obtain ⟨w, hw, hs⟩ := exists_ws s
  conv_rhs => rw [hs, skipWs_append hw]

theorem parseValue_skipWs (fuel depth : Nat) (s : Bytes) :
    (parseValue limits fuel depth (skipWs s) : Outcome (Json Bytes N)) =
      parseValue limits fuel depth s := by
  cases fuel with
  | zero => rfl
  | succ fuel => rw [parseValue, parseValue, skipWs_skipWs]

theorem elementsLoop_skipWs (fuel depth n : Nat) (arr : List (Json Bytes N)) (s : Bytes) :
    elementsLoop (parseValue limits fuel depth) n arr (skipWs s) =
      elementsLoop (parseValue limits fuel depth) n arr s := by
  cases n with
  | zero => rfl
  | succ n => rw [elementsLoop, elementsLoop, parseValue_skipWs]

theorem membersLoop_skipWs {M : Type} {key : Bytes → Outcome Bytes}
    {parse : Bytes → Outcome (Json Bytes M)} (n : Nat) (obj : List (Bytes × Json Bytes M))
    (s : Bytes) : membersLoop key parse n obj (skipWs s) = membersLoop key parse n obj s := by
  cases n with
  | zero => rfl
  | succ n => rw [membersLoop, membersLoop, skipWs_skipWs]

/-- White space and a separator end a number. -/
theorem endsNumber_ws {w s : Bytes} {c : UInt8} (hw : Ws w)
    (hc : isDigit c = false ∧ c ≠ dot ∧ c ≠ 0x65 ∧ c ≠ 0x45) : EndsNumber (w ++ c :: s) := by
  cases w with
  | nil =>
    rintro _ ⟨⟩
    exact hc
  | cons b w =>
    rintro _ ⟨⟩
    have hb := hw b List.mem_cons_self
    simp only [isWs, Bool.or_eq_true, decide_eq_true_eq] at hb
    rcases hb with ((rfl | rfl) | rfl) | rfl <;> decide

theorem Ws.nil : Ws [] := nofun

theorem Ws.endsNumber {w : Bytes} (hw : Ws w) : EndsNumber w := by
  cases w with
  | nil => exact nofun
  | cons b w => exact endsNumber_ws Ws.nil (endsNumber_ws (s := []) hw (c := comma)
      (by decide) b rfl)

theorem isWs_of_isDigit {c : UInt8} (hc : isDigit c = true) : isWs c = false := by
  by_contra h
  simp only [Bool.not_eq_false, isWs, Bool.or_eq_true, decide_eq_true_eq] at h
  rcases h with ((rfl | rfl) | rfl) | rfl <;> exact absurd hc (by decide)

/-- A number token starts with a minus or a digit. -/
theorem Decimal.WellFormed.exists_cons {d : Decimal} (hd : d.WellFormed) :
    ∃ c t, d.text = c :: t ∧ (c = minus ∨ isDigit c = true) := by
  obtain ⟨neg, int, frac, e⟩ := d
  cases neg with
  | true => exact ⟨minus, _, rfl, .inl rfl⟩
  | false =>
    obtain ⟨c, t, hint, hc⟩ := hd.int.exists_cons
    dsimp only at hint
    subst hint
    exact ⟨c, _, rfl, .inr hc⟩

/-- A value starts with a byte that is neither white space nor a closing bracket. -/
theorem Denotes.exists_cons {m : Nat} {t : Bytes} {v : Json Bytes N} (h : Denotes m t v) :
    ∃ c t', t = c :: t' ∧ isWs c = false ∧ c ≠ closeBracket := by
  cases h with
  | number hd =>
    obtain ⟨c, t', ht, rfl | hc⟩ := hd.exists_cons
    · exact ⟨_, _, ht, rfl, by decide⟩
    · exact ⟨c, t', ht, isWs_of_isDigit hc, (neutral_of_isDigit hc).2.2.2.1⟩
  | string ht =>
    obtain ⟨ht, -⟩ := ht
    exact ⟨_, _, rfl, rfl, by decide⟩
  | _ => exact ⟨_, _, rfl, rfl, by decide⟩

theorem parseValue_object {w : Bytes} (hw : Ws w) (fuel depth : Nat) (s : Bytes) :
    (parseValue limits (fuel + 1) depth (w ++ openBrace :: s) : Outcome (Json Bytes N)) =
      parseObject limits (parseValue limits fuel (depth + 1)) depth s := by
  rw [parseValue, skipWs_append hw, skipWs_cons rfl]
  exact if_pos rfl

theorem parseValue_array {w : Bytes} (hw : Ws w) (fuel depth : Nat) (s : Bytes) :
    (parseValue limits (fuel + 1) depth (w ++ openBracket :: s) : Outcome (Json Bytes N)) =
      parseArray limits (parseValue limits fuel (depth + 1)) depth s := by
  rw [parseValue, skipWs_append hw, skipWs_cons rfl]
  show (if _ then _ else _) = _
  rw [if_neg (by decide), if_pos rfl]

theorem parseValue_string {w : Bytes} (hw : Ws w) (fuel depth : Nat) (s : Bytes) :
    (parseValue limits (fuel + 1) depth (w ++ quote :: s) : Outcome (Json Bytes N)) =
      (parseString limits depth s).andThen fun str rest => .done (.string str) rest := by
  rw [parseValue, skipWs_append hw, skipWs_cons rfl]
  show (if _ then _ else _) = _
  rw [if_neg (by decide), if_neg (by decide), if_pos rfl]

theorem parseValue_true {w : Bytes} (hw : Ws w) (fuel depth : Nat) (s : Bytes) :
    (parseValue limits (fuel + 1) depth (w ++ (litTrue ++ s)) : Outcome (Json Bytes N)) =
      .done (.bool true) s := by
  rw [parseValue, skipWs_append hw, List.cons_append, skipWs_cons rfl]
  show (if _ then _ else _) = _
  rw [if_neg (by decide), if_neg (by decide), if_neg (by decide), if_pos rfl]
  rfl

theorem parseValue_false {w : Bytes} (hw : Ws w) (fuel depth : Nat) (s : Bytes) :
    (parseValue limits (fuel + 1) depth (w ++ (litFalse ++ s)) : Outcome (Json Bytes N)) =
      .done (.bool false) s := by
  rw [parseValue, skipWs_append hw, List.cons_append, skipWs_cons rfl]
  show (if _ then _ else _) = _
  rw [if_neg (by decide), if_neg (by decide), if_neg (by decide), if_neg (by decide), if_pos rfl]
  rfl

theorem parseValue_null {w : Bytes} (hw : Ws w) (fuel depth : Nat) (s : Bytes) :
    (parseValue limits (fuel + 1) depth (w ++ (litNull ++ s)) : Outcome (Json Bytes N)) =
      .done .null s := by
  rw [parseValue, skipWs_append hw, List.cons_append, skipWs_cons rfl]
  show (if _ then _ else _) = _
  rw [if_neg (by decide), if_neg (by decide), if_neg (by decide), if_neg (by decide),
    if_neg (by decide), if_pos rfl]
  rfl

theorem parseValue_number {w : Bytes} (hw : Ws w) {c : UInt8} (hc : c = minus ∨ isDigit c = true)
    (fuel depth : Nat) (s : Bytes) :
    (parseValue limits (fuel + 1) depth (w ++ c :: s) : Outcome (Json Bytes N)) =
      parseNumber limits (c :: s) := by
  have hletters : isWs c = false ∧ Neutral c ∧ c ≠ 0x74 ∧ c ≠ 0x66 ∧ c ≠ 0x6E := by
    rcases hc with rfl | hc
    · decide
    · refine ⟨isWs_of_isDigit hc, neutral_of_isDigit hc, ?_, ?_, ?_⟩
      all_goals
        rintro rfl
        exact absurd hc (by decide)
  obtain ⟨hws, ⟨hquote, hbracket, hbrace, -⟩, ht, hf, hn⟩ := hletters
  rw [parseValue, skipWs_append hw, skipWs_cons hws]
  show (if _ then _ else _) = _
  rw [if_neg hbrace, if_neg hbracket, if_neg hquote, if_neg ht, if_neg hf, if_neg hn, if_pos hc]

theorem parseNumber_append [ReadsDecimals N] {d : Decimal} {n : N} (hd : d.WellFormed)
    (hn : DecimalDouble.ofDecimal d.neg d.magnitude = some n) {rest : Bytes}
    (hrest : EndsNumber rest) :
    parseNumber limits (d.text ++ rest) = .done (Json.number n) rest := by
  have hread : JsonDouble.fromChars d.text = some (n, []) := by
    rw [ReadsDecimals.fromChars_text d hd, hn]
    rfl
  have hfin := ReadsDecimals.isFinite_ofDecimal _ _ n hn
  rw [parseNumber, scanDecimal_append hd hrest]
  simp only [hread, hfin]
  exact if_neg (by simp)

/-- The bracket of an array is followed by no other bracket when elements follow. -/
theorem Elements.head?_ne {m : Nat} {t : Bytes} {vs : List (Json Bytes N)} (h : Elements m t vs)
    (s : Bytes) : (skipWs (t ++ s)).head? ≠ some closeBracket := by
  cases h with
  | one hw ht =>
    obtain ⟨c, t', rfl, hc, hne⟩ := ht.exists_cons
    rw [List.append_assoc, skipWs_append hw, List.cons_append, List.cons_append, skipWs_cons hc]
    exact fun h => hne (Option.some.inj h)
  | cons hw ht =>
    obtain ⟨c, t', rfl, hc, hne⟩ := ht.exists_cons
    rw [List.append_assoc, skipWs_append hw, List.cons_append, List.cons_append, skipWs_cons hc]
    exact fun h => hne (Option.some.inj h)

theorem Members.head?_ne {m : Nat} {t : Bytes} {kvs : List (Bytes × Json Bytes N)}
    (h : Members m t kvs) (s : Bytes) : (skipWs (t ++ s)).head? ≠ some closeBrace := by
  cases h with
  | one hw hk =>
    obtain ⟨hk, -⟩ := hk
    rw [List.append_assoc, skipWs_append hw, List.cons_append, List.cons_append, skipWs_cons rfl]
    exact fun h => absurd (Option.some.inj h) (by decide)
  | cons hw hk =>
    obtain ⟨hk, -⟩ := hk
    rw [List.append_assoc, skipWs_append hw, List.cons_append, List.cons_append, skipWs_cons rfl]
    exact fun h => absurd (Option.some.inj h) (by decide)

/-- An array whose loop reads its elements is read. -/
theorem parseArray_append {m fuel depth : Nat} {t rest : Bytes} {vs : List (Json Bytes N)}
    (ht : Elements m t vs) (hdepth : depth < limits.maxDepth)
    (h : elementsLoop (parseValue limits fuel (depth + 1))
      ((t ++ closeBracket :: rest).length + 1) []
      (t ++ closeBracket :: rest) = .done (.array vs) rest) :
    parseArray limits (parseValue limits fuel (depth + 1)) depth (t ++ closeBracket :: rest) =
      .done (.array vs) rest := by
  rw [parseArray, if_neg (Nat.not_le.mpr hdepth), if_neg (ht.head?_ne _), elementsLoop_skipWs, h]

/-- One turn of the object loop, given that the value of the member is read. -/
theorem membersLoop_member {M : Type} {parse : Bytes → Outcome (Json Bytes M)}
    {n depth : Nat} {obj : List (Bytes × Json Bytes M)} {w k w₁ w' tail s key : Bytes} {e : UInt8}
    {v : Json Bytes M} (hw : Ws w) (hk : StringToken limits.maxString k key) (hw₁ : Ws w₁)
    (hdepth : depth < limits.maxDepth) (hparse : parse tail = .done v (w' ++ e :: s))
    (hw' : Ws w') (he : isWs e = false) :
    membersLoop (parseString limits depth) parse (n + 1) obj
        (w ++ (k ++ (w₁ ++ colon :: tail))) =
      if e = closeBrace then .done (.object (SortedMap.insert key v obj)) s
      else if e = comma then
        membersLoop (parseString limits depth) parse n (SortedMap.insert key v obj) s
      else .failed := by
  obtain ⟨t, rfl, hread⟩ := parseString_append hk hdepth (w₁ ++ colon :: tail)
  rw [membersLoop, skipWs_append hw, List.cons_append, skipWs_cons rfl]
  show (if _ then _ else _) = _
  rw [if_pos rfl, hread, Outcome.andThen_done, skipWs_append hw₁, skipWs_cons rfl]
  show (if _ then _ else _) = _
  rw [if_pos rfl, hparse, Outcome.andThen_done, skipWs_append hw', skipWs_cons he]

mutual

/-- **A value of the grammar is read to its end.** -/
theorem Denotes.parse [ReadsDecimals N] {fuel depth : Nat} {w rest : Bytes} (hw : Ws w)
    (hrest : EndsNumber rest) :
    ∀ {t : Bytes} {v : Json Bytes N}, Denotes limits.maxString t v → t.length < fuel →
      levelsFrom 1 depth t ≤ limits.maxDepth →
      parseValue limits fuel depth (w ++ (t ++ rest)) = .done v rest
  | _, _, .nullValue, hfuel, _ => by
    obtain ⟨fuel, rfl⟩ := Nat.exists_eq_add_one_of_ne_zero (Nat.ne_zero_of_lt hfuel)
    exact parseValue_null hw fuel depth rest
  | _, _, .trueValue, hfuel, _ => by
    obtain ⟨fuel, rfl⟩ := Nat.exists_eq_add_one_of_ne_zero (Nat.ne_zero_of_lt hfuel)
    exact parseValue_true hw fuel depth rest
  | _, _, .falseValue, hfuel, _ => by
    obtain ⟨fuel, rfl⟩ := Nat.exists_eq_add_one_of_ne_zero (Nat.ne_zero_of_lt hfuel)
    exact parseValue_false hw fuel depth rest
  | _, _, .number hd hn, hfuel, _ => by
    obtain ⟨fuel, rfl⟩ := Nat.exists_eq_add_one_of_ne_zero (Nat.ne_zero_of_lt hfuel)
    obtain ⟨c, t, ht, hc⟩ := hd.exists_cons
    have hread : parseNumber limits (_ ++ rest) = _ := parseNumber_append hd hn hrest
    rw [ht] at hread ⊢
    rw [List.cons_append, parseValue_number hw hc]
    exact hread
  | _, _, .string ht, hfuel, hnest => by
    obtain ⟨fuel, rfl⟩ := Nat.exists_eq_add_one_of_ne_zero (Nat.ne_zero_of_lt hfuel)
    rw [ht.levelsFrom_eq] at hnest
    obtain ⟨t, rfl, hread⟩ := parseString_append ht hnest rest
    rw [List.cons_append, parseValue_string hw, hread]
    rfl
  | _, _, .emptyArray hw', hfuel, hnest => by
    obtain ⟨fuel, rfl⟩ := Nat.exists_eq_add_one_of_ne_zero (Nat.ne_zero_of_lt hfuel)
    have hdepth := lt_of_levelsFrom_open (.inl rfl) hnest
    rw [List.cons_append, parseValue_array hw, parseArray, if_neg (Nat.not_le.mpr hdepth),
      List.append_assoc, skipWs_append hw', List.singleton_append, skipWs_cons rfl]
    exact if_pos rfl
  | _, _, .array ht, hfuel, hnest => by
    obtain ⟨fuel, rfl⟩ := Nat.exists_eq_add_one_of_ne_zero (Nat.ne_zero_of_lt hfuel)
    have hdepth := lt_of_levelsFrom_open (.inl rfl) hnest
    rw [levelsFrom_enclose (.inl rfl) (.inl rfl) ht.opens, max_le_iff] at hnest
    rw [List.cons_append, List.append_assoc, List.singleton_append]
    simp only [List.length_cons, List.length_append, List.length_nil] at hfuel
    rw [parseValue_array hw]
    exact parseArray_append ht hdepth
      (Elements.parse ht (by rw [List.length_append]; omega) (by omega) [] hnest.1)
  | _, _, .emptyObject hw', hfuel, hnest => by
    obtain ⟨fuel, rfl⟩ := Nat.exists_eq_add_one_of_ne_zero (Nat.ne_zero_of_lt hfuel)
    have hdepth := lt_of_levelsFrom_open (.inr rfl) hnest
    rw [List.cons_append, parseValue_object hw, parseObject, if_neg (Nat.not_le.mpr hdepth),
      List.append_assoc, skipWs_append hw', List.singleton_append, skipWs_cons rfl]
    exact if_pos rfl
  | _, _, .object ht, hfuel, hnest => by
    obtain ⟨fuel, rfl⟩ := Nat.exists_eq_add_one_of_ne_zero (Nat.ne_zero_of_lt hfuel)
    have hdepth := lt_of_levelsFrom_open (.inr rfl) hnest
    rw [levelsFrom_enclose (.inr rfl) (.inr rfl) ht.opens, max_le_iff] at hnest
    rw [List.cons_append, List.append_assoc, List.singleton_append]
    simp only [List.length_cons, List.length_append, List.length_nil] at hfuel
    rw [parseValue_object hw, parseObject, if_neg (Nat.not_le.mpr hdepth),
      if_neg (ht.head?_ne _), membersLoop_skipWs]
    exact Members.parse ht (by rw [List.length_append]; omega) (by omega) [] hnest.1

/-- Elements are read to the bracket. -/
theorem Elements.parse [ReadsDecimals N] {n fuel depth : Nat} {rest : Bytes} :
    ∀ {t : Bytes} {vs : List (Json Bytes N)}, Elements limits.maxString t vs → t.length < n →
      t.length < fuel → ∀ arr : List (Json Bytes N), levelsFrom 1 depth t ≤ limits.maxDepth →
      elementsLoop (parseValue limits fuel depth) n arr (t ++ closeBracket :: rest) =
        .done (.array (arr ++ vs)) rest
  | _, _, .one hw ht hw', hn, hfuel, arr, hnest => by
    obtain ⟨n, rfl⟩ := Nat.exists_eq_add_one_of_ne_zero (Nat.ne_zero_of_lt hn)
    simp only [List.length_append] at hfuel
    rw [levelsFrom_neutral hw.neutral, ht.opens.levels_le_iff] at hnest
    simp only [List.append_assoc]
    rw [elementsLoop, Denotes.parse hw (endsNumber_ws hw' (by decide)) ht (by omega) hnest.1,
      Outcome.andThen_done, skipWs_append hw', skipWs_cons rfl]
    exact if_pos rfl
  | _, _, .cons hw ht hw' hts, hn, hfuel, arr, hnest => by
    obtain ⟨n, rfl⟩ := Nat.exists_eq_add_one_of_ne_zero (Nat.ne_zero_of_lt hn)
    simp only [List.length_append, List.length_cons] at hn hfuel
    rw [levelsFrom_neutral hw.neutral, ht.opens.levels_le_iff, Nat.add_zero,
      levelsFrom_neutral hw'.neutral, levelsFrom_cons (by decide)] at hnest
    simp only [List.append_assoc, List.cons_append]
    rw [elementsLoop, Denotes.parse hw (endsNumber_ws hw' (by decide)) ht (by omega) hnest.1,
      Outcome.andThen_done, skipWs_append hw', skipWs_cons rfl]
    show (if _ then _ else _) = _
    rw [if_neg (by decide), if_pos rfl,
      Elements.parse hts (by omega) (by omega) _ hnest.2, List.append_assoc]
    rfl

/-- Members are read to the brace. -/
theorem Members.parse [ReadsDecimals N] {n fuel depth : Nat} {rest : Bytes} :
    ∀ {t : Bytes} {kvs : List (Bytes × Json Bytes N)}, Members limits.maxString t kvs →
      t.length < n → t.length < fuel → ∀ obj : List (Bytes × Json Bytes N),
      levelsFrom 1 depth t ≤ limits.maxDepth →
      membersLoop (parseString limits depth) (parseValue limits fuel depth) n obj
        (t ++ closeBrace :: rest) =
        .done (.object (kvs.foldl (fun o kv => SortedMap.insert kv.1 kv.2 o) obj)) rest
  | _, _, .one hw hk hw₁ hw₂ ht hw', hn, hfuel, obj, hnest => by
    obtain ⟨n, rfl⟩ := Nat.exists_eq_add_one_of_ne_zero (Nat.ne_zero_of_lt hn)
    simp only [List.length_append, List.length_cons] at hfuel
    rw [levelsFrom_neutral hw.neutral, hk.levelsFrom_append, max_le_iff,
      levelsFrom_neutral hw₁.neutral, levelsFrom_cons (by decide), levelsFrom_neutral hw₂.neutral,
      ht.opens.levels_le_iff] at hnest
    obtain ⟨hdepth, hvalue, -⟩ := hnest
    simp only [List.append_assoc, List.cons_append]
    rw [membersLoop_member hw hk hw₁ hdepth
      (Denotes.parse hw₂ (endsNumber_ws hw' (by decide)) ht (by omega) hvalue) hw' rfl]
    exact if_pos rfl
  | _, _, .cons hw hk hw₁ hw₂ ht hw' hts, hn, hfuel, obj, hnest => by
    obtain ⟨n, rfl⟩ := Nat.exists_eq_add_one_of_ne_zero (Nat.ne_zero_of_lt hn)
    simp only [List.length_append, List.length_cons] at hn hfuel
    rw [levelsFrom_neutral hw.neutral, hk.levelsFrom_append, max_le_iff,
      levelsFrom_neutral hw₁.neutral, levelsFrom_cons (by decide), levelsFrom_neutral hw₂.neutral,
      ht.opens.levels_le_iff, Nat.add_zero depth, levelsFrom_neutral hw'.neutral,
      levelsFrom_cons (by decide)] at hnest
    obtain ⟨hdepth, hvalue, hrest⟩ := hnest
    simp only [List.append_assoc, List.cons_append]
    rw [membersLoop_member hw hk hw₁ hdepth
      (Denotes.parse hw₂ (endsNumber_ws hw' (by decide)) ht (by omega) hvalue) hw' rfl,
      if_neg (by decide), if_pos rfl, Members.parse hts (by omega) (by omega) _ hrest,
      List.foldl_cons]

end

/-! ## Termination -/

theorem ReadsValues.length_le {m : Nat} {parse : Bytes → Outcome (Json Bytes N)}
    (hp : ReadsValues m parse) {s rest : Bytes} {v : Json Bytes N} (h : parse s = .done v rest) :
    rest.length ≤ s.length := by
  obtain ⟨w, t, -, -, rfl⟩ := hp s v rest h
  simp only [List.length_append]
  omega

/-- The array loop has turns enough. -/
theorem elementsLoop_ne_exhausted {m b n : Nat} {parse : Bytes → Outcome (Json Bytes N)}
    (hp : ReadsValues m parse) (hne : ∀ s, s.length < b → parse s ≠ .exhausted)
    {arr : List (Json Bytes N)} {s : Bytes} (hb : s.length < b) (hn : s.length < n) :
    elementsLoop parse n arr s ≠ .exhausted := by
  induction n generalizing arr s with
  | zero => omega
  | succ n ih =>
    rw [elementsLoop]
    refine Outcome.andThen_ne_exhausted (hne s hb) ?_
    intro val s₁ hval
    have hle := hp.length_le hval
    have hskip := length_skipWs_le s₁
    split
    · exact nofun
    · rename_i e s₂ hs₂
      rw [hs₂, List.length_cons] at hskip
      split_ifs
      · exact nofun
      · exact ih (by omega) (by omega)
      · exact nofun

/-- The object loop has turns enough. -/
theorem membersLoop_ne_exhausted {m b n depth : Nat} {parse : Bytes → Outcome (Json Bytes N)}
    (hp : ReadsValues m parse) (hne : ∀ s, s.length < b → parse s ≠ .exhausted)
    {obj : List (Bytes × Json Bytes N)} {s : Bytes} (hb : s.length < b) (hn : s.length < n) :
    membersLoop (parseString limits depth) parse n obj s ≠ .exhausted := by
  induction n generalizing obj s with
  | zero => omega
  | succ n ih =>
    rw [membersLoop]
    have hskip := length_skipWs_le s
    split
    · exact nofun
    · rename_i q s₁ hs₁
      rw [hs₁, List.length_cons] at hskip
      split_ifs
      · refine Outcome.andThen_ne_exhausted parseString_ne_exhausted ?_
        intro k s₂ hkey
        obtain ⟨t, -, rfl⟩ := of_parseString hkey
        rw [List.length_append] at hskip
        have hskip₂ := length_skipWs_le s₂
        split
        · exact nofun
        · rename_i c s₃ hs₃
          rw [hs₃, List.length_cons] at hskip₂
          split_ifs
          · refine Outcome.andThen_ne_exhausted (hne s₃ (by omega)) ?_
            intro val s₄ hval
            have hle := hp.length_le hval
            have hskip₄ := length_skipWs_le s₄
            split
            · exact nofun
            · rename_i e s₅ hs₅
              rw [hs₅, List.length_cons] at hskip₄
              split_ifs
              · exact nofun
              · exact ih (by omega) (by omega)
              · exact nofun
          · exact nofun
      · exact nofun

theorem parseNumber_ne_exhausted {s : Bytes} :
    (parseNumber limits s : Outcome (Json Bytes N)) ≠ .exhausted := by
  rw [parseNumber]
  split
  · exact nofun
  · split
    · split_ifs
      · exact nofun
      · exact nofun
    · exact nofun

theorem parseLiteral_ne_exhausted {M : Type} {lit s : Bytes} {v : Json Bytes M} :
    parseLiteral lit v s ≠ .exhausted := by
  rw [parseLiteral]
  split_ifs
  · exact nofun
  · exact nofun

/-- **Every value is read, or refused, within the bound on the recursion.** -/
theorem parseValue_ne_exhausted [ReadsDecimals N] {fuel depth : Nat} {s : Bytes}
    (hfuel : s.length < fuel) :
    (parseValue limits fuel depth s : Outcome (Json Bytes N)) ≠ .exhausted := by
  induction fuel generalizing depth s with
  | zero => omega
  | succ fuel ih =>
    rw [parseValue]
    have hskip := length_skipWs_le s
    split
    · exact nofun
    · rename_i c s₁ hs₁
      rw [hs₁, List.length_cons] at hskip
      have hskip₁ := length_skipWs_le s₁
      split_ifs
      · rw [parseObject]
        split_ifs
        · exact nofun
        · exact nofun
        · exact membersLoop_ne_exhausted (of_parseValue fuel (depth + 1)) (fun s hs => ih hs)
            (by omega) (by omega)
      · rw [parseArray]
        split_ifs
        · exact nofun
        · exact nofun
        · exact elementsLoop_ne_exhausted (of_parseValue fuel (depth + 1)) (fun s hs => ih hs)
            (by omega) (by omega)
      · exact Outcome.andThen_ne_exhausted parseString_ne_exhausted fun _ _ _ => nofun
      · exact parseLiteral_ne_exhausted
      · exact parseLiteral_ne_exhausted
      · exact parseLiteral_ne_exhausted
      · exact parseNumber_ne_exhausted
      · exact nofun

end JsonText

/-- `from_chars` stops where the token does. -/
instance : ReadsDecimals ℚ where
  fromChars_text d hd := by
    have h := scanDecimal_append hd Ws.nil.endsNumber
    rw [List.append_nil] at h
    exact congrArg (Option.map _) h
  isFinite_ofDecimal _ _ _ _ := rfl

/-! ## Texts -/

variable {N : Type} [DecimalDouble N] [ReadsDecimals N]

theorem parseDocument_ne_exhausted (text : Bytes) (limits : JsonParseLimits) :
    (parseDocument text limits : Outcome (Json Bytes N)) ≠ .exhausted := by
  rw [parseDocument]
  split_ifs
  · exact nofun
  · refine Outcome.andThen_ne_exhausted (parseValue_ne_exhausted (Nat.lt_succ_self _)) ?_
    intro root s _
    split
    · exact nofun
    · exact nofun

omit [ReadsDecimals N] in
/-- **Inversion of `json_parse`**: one value is read, and white space is left. -/
theorem jsonParse_eq_some {text : Bytes} {limits : JsonParseLimits} {v : Json Bytes N}
    (h : jsonParse text limits = some v) : text.length ≤ limits.maxBytes ∧
      ∃ s, parseValue limits (text.length + 1) 0 text = .done v s ∧ skipWs s = [] := by
  rw [jsonParse, parseDocument] at h
  split_ifs at h with hlen
  · refine ⟨Nat.le_of_not_gt hlen, ?_⟩
    cases hval : (parseValue limits (text.length + 1) 0 text : Outcome (Json Bytes N)) with
    | failed =>
      rw [hval] at h
      cases h
    | exhausted =>
      rw [hval] at h
      cases h
    | done root s =>
      rw [hval, Outcome.andThen] at h
      cases hskip : skipWs s with
      | nil =>
        rw [hskip] at h
        obtain rfl := Option.some.inj h
        exact ⟨s, rfl, hskip⟩
      | cons c s' =>
        rw [hskip] at h
        cases h

/-- What is parsed is a text of the grammar within the size limit. -/
theorem of_jsonParse {text : Bytes} {limits : JsonParseLimits} {v : Json Bytes N}
    (h : jsonParse text limits = some v) :
    text.length ≤ limits.maxBytes ∧ TextDenotes limits.maxString text v := by
  obtain ⟨hlen, s, hval, hskip⟩ := jsonParse_eq_some h
  obtain ⟨w, t, hw, ht, rfl⟩ := of_parseValue _ _ _ _ _ hval
  obtain ⟨w', hw', hs⟩ := exists_ws s
  rw [hskip, List.append_nil] at hs
  rw [hs] at hlen ⊢
  exact ⟨hlen, .mk hw ht hw'⟩

/-- A text of the grammar within the limits is parsed. -/
theorem jsonParse_of_denotes {text : Bytes} {limits : JsonParseLimits} {v : Json Bytes N}
    (hlen : text.length ≤ limits.maxBytes) (h : TextDenotes limits.maxString text v)
    (hnest : levelNesting text ≤ limits.maxDepth) : jsonParse text limits = some v := by
  obtain ⟨hw, ht, hw'⟩ := h
  rw [levelNesting, levelsFrom_neutral hw.neutral, ht.opens.levels_le_iff] at hnest
  rw [jsonParse, parseDocument, if_neg (Nat.not_lt.mpr hlen),
    Denotes.parse hw hw'.endsNumber ht (by simp only [List.length_append]; omega) hnest.1,
    Outcome.andThen, skipWs_ws hw']

/-- **The parser accepts exactly its grammar and always terminates.** No bound on
its turns or its recursion is ever met; and when the containers of a text nest
less deep than the limit, it returns a value exactly for a text of the grammar
within the size limit, the value that the text denotes. -/
theorem json_parse_accepts (text : Bytes) (limits : JsonParseLimits) :
    (parseDocument text limits : Outcome (Json Bytes N)) ≠ .exhausted ∧
      (containerNesting text < limits.maxDepth → ∀ v : Json Bytes N,
        jsonParse text limits = some v ↔
          text.length ≤ limits.maxBytes ∧ TextDenotes limits.maxString text v) := by
  refine ⟨parseDocument_ne_exhausted text limits, ?_⟩
  intro hnest v
  constructor
  · exact of_jsonParse
  · rintro ⟨hlen, h⟩
    exact jsonParse_of_denotes hlen h ((levelNesting_le text).trans hnest)

/-- `{"a":[-1]}`. -/
theorem json_parse_accepts_object :
    (parseDocument [0x7B, 0x22, 0x61, 0x22, 0x3A, 0x5B, 0x2D, 0x31, 0x5D, 0x7D] {} :
        Outcome (Json Bytes ℚ)) ≠ .exhausted ∧
      (jsonParse [0x7B, 0x22, 0x61, 0x22, 0x3A, 0x5B, 0x2D, 0x31, 0x5D, 0x7D] {} =
          some (Json.object [([0x61], .array [.number (-1 : ℚ)])]) ↔
        10 ≤ 4194304 ∧ TextDenotes 1048576
          [0x7B, 0x22, 0x61, 0x22, 0x3A, 0x5B, 0x2D, 0x31, 0x5D, 0x7D]
          (Json.object [([0x61], .array [.number (-1 : ℚ)])])) := by
  obtain ⟨hterm, haccepts⟩ := json_parse_accepts (N := ℚ)
    [0x7B, 0x22, 0x61, 0x22, 0x3A, 0x5B, 0x2D, 0x31, 0x5D, 0x7D] {}
  exact ⟨hterm, haccepts (by decide) _⟩

end MemoryPressure
