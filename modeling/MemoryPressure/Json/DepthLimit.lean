import MemoryPressure.Json.Accepts

/-!
# What the depth limit counts (`json.cpp`)

`parse_object`, `parse_array` and `parse_string` each compare the depth with
`max_depth`. Only the first two raise it, and an object's keys are read after it was
raised; numbers and literals are not compared.

- `parseValue_within`: a value that is read has no level beyond the limit, a string
  being a level here; by induction on the bound of the recursion.
- `jsonParse_iff`: a text is parsed if it is one of the grammar, and its size and its
  levels are within the limits.
- `TextsDiffer`: two texts that differ in one leaf, a string and a number.
- `depth_limit_iff`: when they are parsed alike, and when containers alone decide.

So a string counts like a container and a number does not. `jsonParse_iff` says that of a
whole text, for any limits: the levels of a text are counted over its bytes
(`levelNesting`, in `Nesting.lean`), without the parser. From there on no parser is needed.
Two texts that differ in a leaf are compared by their levels alone: around the leaf the
two stand equally deep, and the string is a level more where it stands (`OneLevelMore`,
by induction on the derivation of the pair). Whether that level is the deepest of the text
decides whether the limit tells the two apart.
-/

namespace MemoryPressure

open JsonText

namespace JsonText

variable {N : Type} [DecimalDouble N] {limits : JsonParseLimits}

/-! ## What is read is within the limit -/

/-- What a parser reads at a depth has no level beyond the limit but those of what it
leaves. -/
def Within {α : Type} (limit depth : Nat) (parse : Bytes → Outcome α) : Prop :=
  ∀ s a rest, parse s = .done a rest →
    levelsFrom 1 depth s ≤ max limit (levelsFrom 1 depth rest)

theorem levelsFrom_skipWs (k depth : Nat) (s : Bytes) :
    levelsFrom k depth (skipWs s) = levelsFrom k depth s := by
  obtain ⟨w, hw, hs⟩ := exists_ws s
  conv_rhs => rw [hs, levelsFrom_neutral hw.neutral]

theorem lt_of_parseString {depth : Nat} {s b rest : Bytes}
    (h : parseString limits depth s = .done b rest) : depth < limits.maxDepth := by
  rw [parseString] at h
  split_ifs at h with hdepth
  exact Nat.lt_of_not_ge hdepth

/-- A string is a level of its own. -/
theorem parseString_within {depth : Nat} {s b rest : Bytes}
    (h : parseString limits depth s = .done b rest) :
    levelsFrom 1 depth (quote :: s) ≤ max limits.maxDepth (levelsFrom 1 depth rest) := by
  have hdepth := lt_of_parseString h
  obtain ⟨t, ht, rfl⟩ := of_parseString h
  rw [← List.cons_append, ht.levelsFrom_append]
  omega

/-- **What the array loop reads is within the limit**, up to its bracket. -/
theorem elementsLoop_within {M : Type} {limit depth n : Nat}
    {parse : Bytes → Outcome (Json Bytes M)} (hp : Within limit (depth + 1) parse)
    (hdepth : depth < limit) {arr : List (Json Bytes M)} {s rest : Bytes} {v : Json Bytes M}
    (h : elementsLoop parse n arr s = .done v rest) :
    levelsFrom 1 (depth + 1) s ≤ max limit (levelsFrom 1 depth rest) := by
  induction n generalizing arr s with
  | zero => cases h
  | succ n ih =>
    obtain ⟨val, s₁, hval, hnext⟩ := elementsLoop_eq_done h
    have hread := hp _ _ _ hval
    rw [← levelsFrom_skipWs 1 (depth + 1) s₁] at hread
    rcases hnext with ⟨hclose, -⟩ | ⟨s₂, hcomma, hloop⟩
    · rw [hclose, levelsFrom_close (.inl rfl)] at hread
      omega
    · have hrest := ih hloop
      rw [hcomma, levelsFrom_cons (by decide)] at hread
      omega

theorem parseArray_within {M : Type} {depth : Nat} {parse : Bytes → Outcome (Json Bytes M)}
    (hp : Within limits.maxDepth (depth + 1) parse) {s rest : Bytes} {v : Json Bytes M}
    (h : parseArray limits parse depth s = .done v rest) :
    levelsFrom 1 depth (openBracket :: s) ≤ max limits.maxDepth (levelsFrom 1 depth rest) := by
  rw [levelsFrom_open (.inl rfl), ← levelsFrom_skipWs]
  obtain ⟨hdepth, ⟨hclose, -⟩ | hloop⟩ := parseArray_eq_done h
  · rw [hclose, levelsFrom_close (.inl rfl)]
    omega
  · exact elementsLoop_within hp hdepth hloop

/-- **What the object loop reads is within the limit**, up to its brace; its keys are
levels below it. -/
theorem membersLoop_within {M : Type} {depth n : Nat} {parse : Bytes → Outcome (Json Bytes M)}
    (hp : Within limits.maxDepth (depth + 1) parse) (hdepth : depth < limits.maxDepth)
    {obj : List (Bytes × Json Bytes M)} {s rest : Bytes} {v : Json Bytes M}
    (h : membersLoop (parseString limits (depth + 1)) parse n obj s = .done v rest) :
    levelsFrom 1 (depth + 1) s ≤ max limits.maxDepth (levelsFrom 1 depth rest) := by
  induction n generalizing obj s with
  | zero => cases h
  | succ n ih =>
    obtain ⟨s₁, k, s₂, s₃, val, s₄, hquote, hkey, hcolon, hval, hnext⟩ := membersLoop_eq_done h
    have hkeys := parseString_within hkey
    have hread := hp _ _ _ hval
    rw [← levelsFrom_skipWs 1 (depth + 1) s₂, hcolon,
      levelsFrom_cons (by decide : Neutral colon)] at hkeys
    rw [← levelsFrom_skipWs 1 (depth + 1) s₄] at hread
    rw [← levelsFrom_skipWs, hquote]
    rcases hnext with ⟨hclose, -⟩ | ⟨s₅, hcomma, hloop⟩
    · rw [hclose, levelsFrom_close (.inr rfl)] at hread
      omega
    · have hrest := ih hloop
      rw [hcomma, levelsFrom_cons (by decide)] at hread
      omega

theorem parseObject_within {M : Type} {depth : Nat} {parse : Bytes → Outcome (Json Bytes M)}
    (hp : Within limits.maxDepth (depth + 1) parse) {s rest : Bytes} {v : Json Bytes M}
    (h : parseObject limits parse depth s = .done v rest) :
    levelsFrom 1 depth (openBrace :: s) ≤ max limits.maxDepth (levelsFrom 1 depth rest) := by
  rw [levelsFrom_open (.inr rfl), ← levelsFrom_skipWs]
  obtain ⟨hdepth, ⟨hclose, -⟩ | hloop⟩ := parseObject_eq_done h
  · rw [hclose, levelsFrom_close (.inr rfl)]
    omega
  · exact membersLoop_within hp hdepth hloop

/-- What neither opens nor closes anything adds no level. -/
theorem neutral_within {t : Bytes} (ht : ∀ c ∈ t, Neutral c) (limit depth : Nat) (rest : Bytes) :
    levelsFrom 1 depth (t ++ rest) ≤ max limit (levelsFrom 1 depth rest) := by
  rw [levelsFrom_neutral ht]
  exact le_max_right _ _

theorem parseNumber_within {depth : Nat} :
    Within limits.maxDepth depth (parseNumber limits : Bytes → Outcome (Json Bytes N)) := by
  intro s v rest h
  rw [parseNumber] at h
  split at h
  · cases h
  · rename_i d s₁ hscan
    obtain ⟨hd, rfl⟩ := of_scanDecimal hscan
    split at h
    · split_ifs at h
      obtain ⟨rfl, rfl⟩ := Outcome.done.inj h
      exact neutral_within hd.neutral _ _ _
    · cases h

/-- **What is read is within the limit.** -/
theorem parseValue_within (fuel depth : Nat) :
    Within limits.maxDepth depth
      (parseValue limits fuel depth : Bytes → Outcome (Json Bytes N)) := by
  induction fuel generalizing depth with
  | zero => exact fun s v rest h => by cases h
  | succ fuel ih =>
    intro s v rest h
    obtain ⟨c, s₁, hs₁, hcases⟩ := parseValue_eq_done h
    rw [← levelsFrom_skipWs, hs₁]
    rcases hcases with ⟨rfl, hobj⟩ | ⟨rfl, harr⟩ | ⟨rfl, str, hstr, -⟩ | ⟨htrue, -⟩ |
      ⟨hfalse, -⟩ | ⟨hnull, -⟩ | hnum
    · exact parseObject_within (ih _) hobj
    · exact parseArray_within (ih _) harr
    · exact parseString_within hstr
    · rw [htrue]
      exact neutral_within neutral_litTrue _ _ _
    · rw [hfalse]
      exact neutral_within neutral_litFalse _ _ _
    · rw [hnull]
      exact neutral_within neutral_litNull _ _ _
    · exact parseNumber_within _ _ _ hnum

end JsonText

section

variable {N : Type} [DecimalDouble N]

theorem levelNesting_of_jsonParse {text : Bytes} {limits : JsonParseLimits} {v : Json Bytes N}
    (h : jsonParse text limits = some v) : levelNesting text ≤ limits.maxDepth := by
  obtain ⟨-, s, hval, hskip⟩ := jsonParse_eq_some h
  have hread := parseValue_within _ _ _ _ _ hval
  rw [← levelsFrom_skipWs 1 0 s, hskip, levelsFrom, max_eq_left (Nat.zero_le _)] at hread
  exact hread

variable [ReadsDecimals N]

/-- **What is parsed.** The texts of the grammar whose size is within the limit, and
whose levels are, a string being one. -/
theorem jsonParse_iff {text : Bytes} {limits : JsonParseLimits} {v : Json Bytes N} :
    jsonParse text limits = some v ↔ text.length ≤ limits.maxBytes ∧
      TextDenotes limits.maxString text v ∧ levelNesting text ≤ limits.maxDepth := by
  constructor
  · intro h
    obtain ⟨hlen, hdenotes⟩ := of_jsonParse h
    exact ⟨hlen, hdenotes, levelNesting_of_jsonParse h⟩
  · rintro ⟨hlen, hdenotes, hnest⟩
    exact jsonParse_of_denotes hlen hdenotes hnest

/-- Whether a text of the grammar and within the size limit is parsed, its levels decide. -/
theorem isSome_jsonParse_iff {text : Bytes} {limits : JsonParseLimits} {v : Json Bytes N}
    (hlen : text.length ≤ limits.maxBytes) (h : TextDenotes limits.maxString text v) :
    (jsonParse text limits : Option (Json Bytes N)).isSome ↔
      levelNesting text ≤ limits.maxDepth := by
  rw [Option.isSome_iff_exists]
  constructor
  · rintro ⟨v', hv'⟩
    exact (jsonParse_iff.mp hv').2.2
  · intro hnest
    exact ⟨v, jsonParse_iff.mpr ⟨hlen, h, hnest⟩⟩

end

namespace JsonText

variable {N : Type} [DecimalDouble N] {m : Nat}

/-! ## Two texts that differ in a leaf -/

mutual

/-- The texts of two values that differ in one leaf only, a string in the first and a
number in the second, with `k` containers around it. -/
inductive ValuesDiffer (N : Type) [DecimalDouble N] (m : Nat) : Nat → Bytes → Bytes → Prop
  | leaf {t b : Bytes} {d : Decimal} {n : N} : StringToken m t b → d.WellFormed →
      DecimalDouble.ofDecimal d.neg d.magnitude = some n → ValuesDiffer N m 0 t d.text
  | array {k : Nat} {t u : Bytes} : ElementsDiffer N m k t u →
      ValuesDiffer N m (k + 1) (openBracket :: (t ++ [closeBracket]))
        (openBracket :: (u ++ [closeBracket]))
  | object {k : Nat} {t u : Bytes} : MembersDiffer N m k t u →
      ValuesDiffer N m (k + 1) (openBrace :: (t ++ [closeBrace])) (openBrace :: (u ++ [closeBrace]))

/-- The elements of two arrays that differ in one leaf: it is in the last element, in the
first of several, or further on. -/
inductive ElementsDiffer (N : Type) [DecimalDouble N] (m : Nat) : Nat → Bytes → Bytes → Prop
  | one {k : Nat} {w t u w' : Bytes} : Ws w → ValuesDiffer N m k t u → Ws w' →
      ElementsDiffer N m k (w ++ (t ++ w')) (w ++ (u ++ w'))
  | head {k : Nat} {w t u w' ts : Bytes} {vs : List (Json Bytes N)} : Ws w →
      ValuesDiffer N m k t u → Ws w' → Elements m ts vs →
      ElementsDiffer N m k (w ++ (t ++ (w' ++ comma :: ts))) (w ++ (u ++ (w' ++ comma :: ts)))
  | tail {k : Nat} {w t w' ts us : Bytes} {v : Json Bytes N} : Ws w → Denotes m t v → Ws w' →
      ElementsDiffer N m k ts us →
      ElementsDiffer N m k (w ++ (t ++ (w' ++ comma :: ts))) (w ++ (t ++ (w' ++ comma :: us)))

/-- The members of two objects that differ in one leaf, in the value of one member. -/
inductive MembersDiffer (N : Type) [DecimalDouble N] (m : Nat) : Nat → Bytes → Bytes → Prop
  | one {k : Nat} {w s w₁ w₂ t u w' key : Bytes} : Ws w → StringToken m s key → Ws w₁ → Ws w₂ →
      ValuesDiffer N m k t u → Ws w' →
      MembersDiffer N m k (w ++ (s ++ (w₁ ++ colon :: (w₂ ++ (t ++ w')))))
        (w ++ (s ++ (w₁ ++ colon :: (w₂ ++ (u ++ w')))))
  | head {k : Nat} {w s w₁ w₂ t u w' ts key : Bytes} {kvs : List (Bytes × Json Bytes N)} : Ws w →
      StringToken m s key → Ws w₁ → Ws w₂ → ValuesDiffer N m k t u → Ws w' → Members m ts kvs →
      MembersDiffer N m k (w ++ (s ++ (w₁ ++ colon :: (w₂ ++ (t ++ (w' ++ comma :: ts))))))
        (w ++ (s ++ (w₁ ++ colon :: (w₂ ++ (u ++ (w' ++ comma :: ts))))))
  | tail {k : Nat} {w s w₁ w₂ t w' ts us key : Bytes} {v : Json Bytes N} : Ws w →
      StringToken m s key → Ws w₁ → Ws w₂ → Denotes m t v → Ws w' → MembersDiffer N m k ts us →
      MembersDiffer N m k (w ++ (s ++ (w₁ ++ colon :: (w₂ ++ (t ++ (w' ++ comma :: ts))))))
        (w ++ (s ++ (w₁ ++ colon :: (w₂ ++ (t ++ (w' ++ comma :: us))))))

end

/-- Two texts that differ in one leaf, with white space around the value. -/
inductive TextsDiffer (N : Type) [DecimalDouble N] (m k : Nat) : Bytes → Bytes → Prop
  | mk {w t u w' : Bytes} : Ws w → ValuesDiffer N m k t u → Ws w' →
      TextsDiffer N m k (w ++ (t ++ w')) (w ++ (u ++ w'))

mutual

/-- Two values that differ in one leaf are both values of the grammar. -/
theorem ValuesDiffer.denotes : ∀ {k : Nat} {t u : Bytes}, ValuesDiffer N m k t u →
    (∃ v : Json Bytes N, Denotes m t v) ∧ ∃ v : Json Bytes N, Denotes m u v
  | _, _, _, .leaf ht hd hn => ⟨⟨_, .string ht⟩, ⟨_, .number hd hn⟩⟩
  | _, _, _, .array h => by
    obtain ⟨⟨vs, ht⟩, ⟨vs', hu⟩⟩ := ElementsDiffer.denotes h
    exact ⟨⟨_, .array ht⟩, ⟨_, .array hu⟩⟩
  | _, _, _, .object h => by
    obtain ⟨⟨kvs, ht⟩, ⟨kvs', hu⟩⟩ := MembersDiffer.denotes h
    exact ⟨⟨_, .object ht⟩, ⟨_, .object hu⟩⟩

theorem ElementsDiffer.denotes : ∀ {k : Nat} {t u : Bytes}, ElementsDiffer N m k t u →
    (∃ vs : List (Json Bytes N), Elements m t vs) ∧ ∃ vs : List (Json Bytes N), Elements m u vs
  | _, _, _, .one hw h hw' => by
    obtain ⟨⟨v, ht⟩, ⟨v', hu⟩⟩ := ValuesDiffer.denotes h
    exact ⟨⟨_, .one hw ht hw'⟩, ⟨_, .one hw hu hw'⟩⟩
  | _, _, _, .head hw h hw' hts => by
    obtain ⟨⟨v, ht⟩, ⟨v', hu⟩⟩ := ValuesDiffer.denotes h
    exact ⟨⟨_, .cons hw ht hw' hts⟩, ⟨_, .cons hw hu hw' hts⟩⟩
  | _, _, _, .tail hw hv hw' h => by
    obtain ⟨⟨vs, ht⟩, ⟨vs', hu⟩⟩ := ElementsDiffer.denotes h
    exact ⟨⟨_, .cons hw hv hw' ht⟩, ⟨_, .cons hw hv hw' hu⟩⟩

theorem MembersDiffer.denotes : ∀ {k : Nat} {t u : Bytes}, MembersDiffer N m k t u →
    (∃ kvs : List (Bytes × Json Bytes N), Members m t kvs) ∧
      ∃ kvs : List (Bytes × Json Bytes N), Members m u kvs
  | _, _, _, .one hw hs hw₁ hw₂ h hw' => by
    obtain ⟨⟨v, ht⟩, ⟨v', hu⟩⟩ := ValuesDiffer.denotes h
    exact ⟨⟨_, .one hw hs hw₁ hw₂ ht hw'⟩, ⟨_, .one hw hs hw₁ hw₂ hu hw'⟩⟩
  | _, _, _, .head hw hs hw₁ hw₂ h hw' hts => by
    obtain ⟨⟨v, ht⟩, ⟨v', hu⟩⟩ := ValuesDiffer.denotes h
    exact ⟨⟨_, .cons hw hs hw₁ hw₂ ht hw' hts⟩, ⟨_, .cons hw hs hw₁ hw₂ hu hw' hts⟩⟩
  | _, _, _, .tail hw hs hw₁ hw₂ hv hw' h => by
    obtain ⟨⟨kvs, ht⟩, ⟨kvs', hu⟩⟩ := MembersDiffer.denotes h
    exact ⟨⟨_, .cons hw hs hw₁ hw₂ hv hw' ht⟩, ⟨_, .cons hw hs hw₁ hw₂ hv hw' hu⟩⟩

end

/-! ## Levels of two such texts -/

/-- The levels of `t` are those of `u` but for one, which is a string `k` containers down
in `t` and is no level in `u`. -/
def OneLevelMore (k : Nat) (t u : Bytes) : Prop :=
  ∀ depth, ∃ others, levelsFrom 1 depth t = max others (depth + k + 1) ∧
    levelsFrom 1 depth u = max others (depth + k)

theorem OneLevelMore.append_left {k : Nat} {p t u : Bytes} (hp : Opens 0 p)
    (h : OneLevelMore k t u) : OneLevelMore k (p ++ t) (p ++ u) := by
  intro depth
  obtain ⟨others, ht, hu⟩ := h depth
  refine ⟨max (levelsFrom 1 depth p) others, ?_, ?_⟩
  · rw [hp, Nat.add_zero, ht, max_assoc]
  · rw [hp, Nat.add_zero, hu, max_assoc]

theorem OneLevelMore.append_right {k : Nat} {t u s : Bytes} (ht : Opens 0 t) (hu : Opens 0 u)
    (h : OneLevelMore k t u) : OneLevelMore k (t ++ s) (u ++ s) := by
  intro depth
  obtain ⟨others, hlt, hlu⟩ := h depth
  refine ⟨max others (levelsFrom 1 depth s), ?_, ?_⟩
  · rw [ht, Nat.add_zero, hlt, max_right_comm]
  · rw [hu, Nat.add_zero, hlu, max_right_comm]

/-- Around a container the leaf is a level further down. -/
theorem OneLevelMore.enclose {o c : UInt8} (ho : o = openBracket ∨ o = openBrace)
    (hc : c = closeBracket ∨ c = closeBrace) {k : Nat} {t u : Bytes} (ht : Opens 0 t)
    (hu : Opens 0 u) (h : OneLevelMore k t u) :
    OneLevelMore (k + 1) (o :: (t ++ [c])) (o :: (u ++ [c])) := by
  intro depth
  obtain ⟨others, hlt, hlu⟩ := h (depth + 1)
  refine ⟨max others depth, ?_, ?_⟩
  · rw [levelsFrom_enclose ho hc ht, hlt, levelsFrom]
    omega
  · rw [levelsFrom_enclose ho hc hu, hlu, levelsFrom]
    omega

/-- Before the value of a member stand its key and a colon. -/
theorem OneLevelMore.member {k : Nat} {w s w₁ w₂ t u key : Bytes} (hw : Ws w)
    (hs : StringToken m s key) (hw₁ : Ws w₁) (hw₂ : Ws w₂) (h : OneLevelMore k t u) :
    OneLevelMore k (w ++ (s ++ (w₁ ++ colon :: (w₂ ++ t))))
      (w ++ (s ++ (w₁ ++ colon :: (w₂ ++ u)))) :=
  ((((h.append_left (opens_neutral hw₂.neutral)).append_left opens_colon).append_left
    (opens_neutral hw₁.neutral)).append_left hs.opens).append_left (opens_neutral hw.neutral)

/-- A string against a number. -/
theorem oneLevelMore_leaf {t b : Bytes} {d : Decimal} (ht : StringToken m t b)
    (hd : d.WellFormed) : OneLevelMore 0 t d.text := by
  intro depth
  refine ⟨0, ?_, ?_⟩
  · rw [ht.levelsFrom_eq, Nat.zero_max, Nat.add_zero]
  · rw [levelsFrom_of_neutral hd.neutral, Nat.zero_max, Nat.add_zero]

mutual

/-- **The string is one level more.** -/
theorem ValuesDiffer.oneLevelMore : ∀ {k : Nat} {t u : Bytes}, ValuesDiffer N m k t u →
    OneLevelMore k t u
  | _, _, _, .leaf ht hd _ => oneLevelMore_leaf ht hd
  | _, _, _, .array h => by
    obtain ⟨⟨_, ht⟩, ⟨_, hu⟩⟩ := h.denotes
    exact (ElementsDiffer.oneLevelMore h).enclose (.inl rfl) (.inl rfl) ht.opens hu.opens
  | _, _, _, .object h => by
    obtain ⟨⟨_, ht⟩, ⟨_, hu⟩⟩ := h.denotes
    exact (MembersDiffer.oneLevelMore h).enclose (.inr rfl) (.inr rfl) ht.opens hu.opens

theorem ElementsDiffer.oneLevelMore : ∀ {k : Nat} {t u : Bytes}, ElementsDiffer N m k t u →
    OneLevelMore k t u
  | _, _, _, .one hw h _ => by
    obtain ⟨⟨_, ht⟩, ⟨_, hu⟩⟩ := h.denotes
    exact ((ValuesDiffer.oneLevelMore h).append_right ht.opens hu.opens).append_left
      (opens_neutral hw.neutral)
  | _, _, _, .head hw h _ _ => by
    obtain ⟨⟨_, ht⟩, ⟨_, hu⟩⟩ := h.denotes
    exact ((ValuesDiffer.oneLevelMore h).append_right ht.opens hu.opens).append_left
      (opens_neutral hw.neutral)
  | _, _, _, .tail hw hv hw' h =>
    ((((ElementsDiffer.oneLevelMore h).append_left opens_comma).append_left
      (opens_neutral hw'.neutral)).append_left hv.opens).append_left (opens_neutral hw.neutral)

theorem MembersDiffer.oneLevelMore : ∀ {k : Nat} {t u : Bytes}, MembersDiffer N m k t u →
    OneLevelMore k t u
  | _, _, _, .one hw hs hw₁ hw₂ h _ => by
    obtain ⟨⟨_, ht⟩, ⟨_, hu⟩⟩ := h.denotes
    exact ((ValuesDiffer.oneLevelMore h).append_right ht.opens hu.opens).member hw hs hw₁ hw₂
  | _, _, _, .head hw hs hw₁ hw₂ h _ _ => by
    obtain ⟨⟨_, ht⟩, ⟨_, hu⟩⟩ := h.denotes
    exact ((ValuesDiffer.oneLevelMore h).append_right ht.opens hu.opens).member hw hs hw₁ hw₂
  | _, _, _, .tail hw hs hw₁ hw₂ hv hw' h =>
    ((((MembersDiffer.oneLevelMore h).append_left opens_comma).append_left
      (opens_neutral hw'.neutral)).append_left hv.opens).member hw hs hw₁ hw₂

end

/-- Two texts that differ in one leaf are both texts of the grammar, and the string is one
level more. -/
theorem TextsDiffer.levels {k : Nat} {t u : Bytes} (h : TextsDiffer N m k t u) :
    (∃ v : Json Bytes N, TextDenotes m t v) ∧ (∃ v : Json Bytes N, TextDenotes m u v) ∧
      ∃ others, levelNesting t = max others (k + 1) ∧ levelNesting u = max others k := by
  obtain ⟨hw, h, hw'⟩ := h
  obtain ⟨⟨v, ht⟩, ⟨v', hu⟩⟩ := h.denotes
  obtain ⟨others, hlt, hlu⟩ :=
    ((h.oneLevelMore.append_right ht.opens hu.opens).append_left (opens_neutral hw.neutral)) 0
  rw [Nat.zero_add] at hlt hlu
  exact ⟨⟨v, .mk hw ht hw'⟩, ⟨v', .mk hw hu hw'⟩, others, hlt, hlu⟩

end JsonText

/-! ## The depth limit -/

variable {N : Type} [DecimalDouble N] [ReadsDecimals N]

/-- **What the depth limit counts.** Of two texts that differ in one leaf, a string and a
number, both or neither are parsed, unless that leaf stands inside exactly `max_depth`
containers and nothing else of the text is too deep. And the texts whose containers nest
within `max_depth` are those that are parsed, unless just that many are around a string or
a key and none nests deeper. -/
theorem depth_limit_iff (limits : JsonParseLimits) :
    (∀ (k : Nat) (t u : Bytes), TextsDiffer N limits.maxString k t u →
      t.length ≤ limits.maxBytes → u.length ≤ limits.maxBytes →
      (((jsonParse t limits : Option (Json Bytes N)).isSome ↔
          (jsonParse u limits : Option (Json Bytes N)).isSome) ↔
        k ≠ limits.maxDepth ∨ limits.maxDepth < levelNesting u)) ∧
    ∀ (text : Bytes) (v : Json Bytes N), TextDenotes limits.maxString text v →
      text.length ≤ limits.maxBytes →
      (((jsonParse text limits : Option (Json Bytes N)).isSome ↔
          containerNesting text ≤ limits.maxDepth) ↔
        levelNesting text ≤ limits.maxDepth ∨ limits.maxDepth < containerNesting text) := by
  constructor
  · intro k t u h hlen hlen'
    obtain ⟨⟨v, ht⟩, ⟨v', hu⟩, others, hlt, hlu⟩ := h.levels
    rw [isSome_jsonParse_iff hlen ht, isSome_jsonParse_iff hlen' hu, hlt, hlu]
    omega
  · intro text v h hlen
    have hle := containerNesting_le text
    rw [isSome_jsonParse_iff hlen h]
    omega

/-- The token `1`. -/
def digitOne : Decimal := { neg := false, int := [0x31], frac := none, exp := none }

theorem wellFormed_one : digitOne.WellFormed where
  int := ⟨by decide, List.forall_mem_singleton.mpr (by decide)⟩
  noLeadingZero := by decide
  frac := nofun
  exp := nofun

/-- `["a"]` and `[1]` differ in a leaf, inside one array. -/
theorem textsDiffer_array :
    TextsDiffer ℚ 1048576 1 [0x5B, 0x22, 0x61, 0x22, 0x5D] [0x5B, 0x31, 0x5D] :=
  .mk Ws.nil (.array (.one Ws.nil (.leaf (.mk (.raw (by decide) (by decide) (by decide) .nil)
    (by decide)) wellFormed_one rfl) Ws.nil)) Ws.nil

/-- `{"a":1}`. -/
theorem textDenotes_object :
    TextDenotes 1048576 [0x7B, 0x22, 0x61, 0x22, 0x3A, 0x31, 0x7D]
      (Json.object [([0x61], .number (digitOne.magnitude : ℚ))]) :=
  .mk Ws.nil (.object (.one Ws.nil (.mk (.raw (by decide) (by decide) (by decide) .nil)
    (by decide)) Ws.nil Ws.nil (.number wellFormed_one rfl) Ws.nil)) Ws.nil

/-- Two containers are allowed, and one is there. -/
theorem depth_limit_two :
    ((jsonParse [0x5B, 0x22, 0x61, 0x22, 0x5D] { maxDepth := 2 } : Option (Json Bytes ℚ)).isSome ↔
        (jsonParse [0x5B, 0x31, 0x5D] { maxDepth := 2 } : Option (Json Bytes ℚ)).isSome) ∧
      ((jsonParse [0x7B, 0x22, 0x61, 0x22, 0x3A, 0x31, 0x7D] { maxDepth := 2 } :
          Option (Json Bytes ℚ)).isSome ↔
        containerNesting [0x7B, 0x22, 0x61, 0x22, 0x3A, 0x31, 0x7D] ≤ 2) := by
  obtain ⟨hleaf, hcontainers⟩ := depth_limit_iff (N := ℚ) { maxDepth := 2 }
  constructor
  · exact (hleaf 1 _ _ textsDiffer_array (by decide) (by decide)).mpr (.inl (by decide))
  · exact (hcontainers _ _ textDenotes_object (by decide)).mpr (.inl (by decide))

/-- One container is allowed: `[1]` is parsed, and `["a"]` is not, nor is `{"a":1}`. -/
theorem depth_limit_one :
    TextsDiffer ℚ 1048576 1 [0x5B, 0x22, 0x61, 0x22, 0x5D] [0x5B, 0x31, 0x5D] ∧
      ¬ ((jsonParse [0x5B, 0x22, 0x61, 0x22, 0x5D] { maxDepth := 1 } :
            Option (Json Bytes ℚ)).isSome ↔
          (jsonParse [0x5B, 0x31, 0x5D] { maxDepth := 1 } : Option (Json Bytes ℚ)).isSome) ∧
      ¬ ((jsonParse [0x7B, 0x22, 0x61, 0x22, 0x3A, 0x31, 0x7D] { maxDepth := 1 } :
            Option (Json Bytes ℚ)).isSome ↔
          containerNesting [0x7B, 0x22, 0x61, 0x22, 0x3A, 0x31, 0x7D] ≤ 1) := by
  refine ⟨textsDiffer_array, ?_, ?_⟩
  · decide +kernel
  · decide +kernel

end MemoryPressure
