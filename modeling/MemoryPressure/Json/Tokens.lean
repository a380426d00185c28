import Mathlib.Data.List.TakeWhile
import Mathlib.Data.Nat.Bitwise
import MemoryPressure.Json.Parser

/-!
# Tokens

The leaves of the parser against the leaves of the grammar, each from both
sides: what a method reads is a token of the grammar (`parseEscape_iff`,
`of_stringLoop`, `of_scanDecimal`), and of a token followed by anything the
grammar allows there it reads exactly the token (`stringLoop_append`,
`scanDecimal_append`).

- Escapes are compared digit by digit: the loop over four hexadecimal digits is `HexQuad`
  (`hexLoop_four`), the shifts and masks of `append_utf8` are the sums of UTF-8
  (`appendUtf8_eq`), and a surrogate is read only together with the one that follows it.
- A string ends at its first quote that is not escaped, so that the body determines its
  own end. The loop has one turn a byte, which is enough (`stringLoop_ne_exhausted`).
- A number does not end by itself: the scanner takes all digits there are. `EndsNumber`
  says what may follow a token for it to be read whole; white space, a comma, a closing
  bracket and the end of the text may.

Nothing here knows of values, depth or recursion; `Accepts.lean` builds on it.
-/

namespace MemoryPressure

namespace JsonText

/-! ## White space -/

theorem skipWs_append {w : Bytes} (hw : Ws w) (s : Bytes) : skipWs (w ++ s) = skipWs s :=
  List.dropWhile_append_of_pos hw

theorem skipWs_cons {c : UInt8} (hc : isWs c = false) (s : Bytes) : skipWs (c :: s) = c :: s := by
  rw [skipWs, List.dropWhile_cons_of_neg (by simp [hc])]

theorem skipWs_ws {w : Bytes} (hw : Ws w) : skipWs w = [] :=
  List.dropWhile_eq_nil_iff.mpr hw

/-- What is skipped is white space. -/
theorem exists_ws (s : Bytes) : ∃ w, Ws w ∧ s = w ++ skipWs s := by
  refine ⟨s.takeWhile isWs, ?_, List.takeWhile_append_dropWhile.symm⟩
  intro c hc
  exact List.mem_takeWhile_imp hc

theorem length_skipWs_le (s : Bytes) : (skipWs s).length ≤ s.length :=
  List.length_dropWhile_le isWs s

/-! ## Escapes -/

theorem hexValue_iff {c : UInt8} {v : Nat} : hexValue c = some v ↔ HexDigit c v := by
  constructor
  · intro h
    rw [hexValue] at h
    split_ifs at h with hd hl hu
    · cases h
      exact .digit hd.1 hd.2
    · cases h
      exact .lower hl.1 hl.2
    · cases h
      exact .upper hu.1 hu.2
  · rintro (⟨hlow, hhigh⟩ | ⟨hlow, hhigh⟩ | ⟨hlow, hhigh⟩)
    · rw [hexValue, if_pos ⟨hlow, hhigh⟩]
    · have hd : ¬ (0x30 ≤ c ∧ c ≤ 0x39) := by
        rintro ⟨-, h⟩
        exact absurd (hlow.trans h) (by decide)
      rw [hexValue, if_neg hd, if_pos ⟨hlow, hhigh⟩]
    · have hd : ¬ (0x30 ≤ c ∧ c ≤ 0x39) := by
        rintro ⟨-, h⟩
        exact absurd (hlow.trans h) (by decide)
      have hl : ¬ (0x61 ≤ c ∧ c ≤ 0x66) := by
        rintro ⟨h, -⟩
        exact absurd (h.trans hhigh) (by decide)
      rw [hexValue, if_neg hd, if_neg hl, if_pos ⟨hlow, hhigh⟩]

theorem HexDigit.lt {c : UInt8} {v : Nat} (h : HexDigit c v) : v < 16 := by
  rcases h with ⟨-, hhigh⟩ | ⟨-, hhigh⟩ | ⟨-, hhigh⟩
  all_goals
    have hle := UInt8.le_iff_toNat_le.mp hhigh
    simp at hle
    omega

/-- One turn of the digit loop. -/
theorem hexLoop_succ {n cp r : Nat} {s rest : Bytes} :
    hexLoop (n + 1) cp s = some (r, rest) ↔
      ∃ c v s', HexDigit c v ∧ s = c :: s' ∧ hexLoop n (cp * 16 + v) s' = some (r, rest) := by
  have hshift {v : Nat} (hv : v < 16) : (cp <<< 4) ||| v = cp * 16 + v := by
    rw [← Nat.shiftLeft_add_eq_or_of_lt hv, Nat.shiftLeft_eq]
  cases s with
  | nil => simp [hexLoop]
  | cons c s' =>
    constructor
    · intro h
      rw [hexLoop] at h
      cases hc : hexValue c with
      | none => simp [hc] at h
      | some v =>
        have hv := hexValue_iff.mp hc
        simp only [hc, hshift hv.lt] at h
        exact ⟨c, v, s', hv, rfl, h⟩
    · rintro ⟨c', v, s'', hv, hs, h⟩
      obtain ⟨rfl, rfl⟩ := List.cons.inj hs
      rw [hexLoop, hexValue_iff.mpr hv]
      simpa only [hshift hv.lt] using h

/-- **Four digits.** -/
theorem hexLoop_four {cp : Nat} {s rest : Bytes} :
    hexLoop 4 0 s = some (cp, rest) ↔ ∃ h, HexQuad h cp ∧ s = h ++ rest := by
  constructor
  · intro h
    obtain ⟨a, i, s₁, ha, rfl, h₁⟩ := hexLoop_succ.mp h
    obtain ⟨b, j, s₂, hb, rfl, h₂⟩ := hexLoop_succ.mp h₁
    obtain ⟨c, k, s₃, hc, rfl, h₃⟩ := hexLoop_succ.mp h₂
    obtain ⟨d, l, s₄, hd, rfl, h₄⟩ := hexLoop_succ.mp h₃
    simp only [hexLoop, Option.some.injEq, Prod.mk.injEq, Nat.zero_mul, Nat.zero_add] at h₄
    obtain ⟨rfl, rfl⟩ := h₄
    exact ⟨[a, b, c, d], .mk ha hb hc hd, rfl⟩
  · rintro ⟨q, ⟨ha, hb, hc, hd⟩, rfl⟩
    refine hexLoop_succ.mpr ⟨_, _, _, ha, rfl, hexLoop_succ.mpr ⟨_, _, _, hb, rfl,
      hexLoop_succ.mpr ⟨_, _, _, hc, rfl, hexLoop_succ.mpr ⟨_, _, _, hd, rfl, ?_⟩⟩⟩⟩
    simp [hexLoop]

theorem HexQuad.lt {h : Bytes} {cp : Nat} (hq : HexQuad h cp) : cp < 0x10000 := by
  obtain ⟨ha, hb, hc, hd⟩ := hq
  have := ha.lt
  have := hb.lt
  have := hc.lt
  have := hd.lt
  omega

/-- A masked byte as a sum. -/
theorem ofNat_shiftLeft_or (b i : Nat) {x : Nat} (hx : x < 2 ^ i) :
    UInt8.ofNat ((b <<< i) ||| x) = UInt8.ofNat (x + b <<< i) := by
  rw [← Nat.shiftLeft_add_eq_or_of_lt hx, Nat.add_comm]

/-- **The shifts and masks of `append_utf8` are UTF-8.** -/
theorem appendUtf8_eq {cp : Nat} (hv : cp.isValidChar) : appendUtf8 cp = utf8 cp := by
  have hval : (Char.ofNat cp).val.toNat = cp := by
    rw [Char.ofNat, dif_pos hv]
    rfl
  have htail (n : Nat) : UInt8.ofNat (0x80 ||| (n &&& 0x3F)) = UInt8.ofNat (n % 64 + 0x80) := by
    rw [show n &&& 0x3F = n % 64 from Nat.and_two_pow_sub_one_eq_mod n 6]
    exact ofNat_shiftLeft_or 2 6 (Nat.mod_lt _ (by omega))
  have hlt : cp < 0x110000 := by
    rcases hv with h | h
    · omega
    · exact h.2
  rw [utf8, String.utf8EncodeChar, hval, appendUtf8]
  simp only [htail, Nat.shiftRight_eq_div_pow, Nat.reducePow]
  -- one case for each length; the lead byte keeps what its mask leaves room for
  split_ifs with h1 h2 h3
  · rfl
  · have h : UInt8.ofNat (0xC0 ||| cp / 64) = UInt8.ofNat (cp / 64 + 0xC0) :=
      ofNat_shiftLeft_or 6 5 (by omega)
    rw [h, Nat.mod_eq_of_lt (a := cp / 64) (by omega)]
  · have h : UInt8.ofNat (0xE0 ||| cp / 4096) = UInt8.ofNat (cp / 4096 + 0xE0) :=
      ofNat_shiftLeft_or 14 4 (by omega)
    rw [h, Nat.mod_eq_of_lt (a := cp / 4096) (by omega)]
  · have h : UInt8.ofNat (0xF0 ||| cp / 262144) = UInt8.ofNat (cp / 262144 + 0xF0) :=
      ofNat_shiftLeft_or 30 3 (by omega)
    rw [h, Nat.mod_eq_of_lt (a := cp / 262144) (by omega)]

theorem isValidChar_scalar {h : Bytes} {cp : Nat} (hq : HexQuad h cp)
    (hs : ¬ (0xD800 ≤ cp ∧ cp ≤ 0xDFFF)) : cp.isValidChar := by
  have hlt := hq.lt
  rw [Nat.isValidChar]
  omega

theorem isValidChar_pair {hi lo : Nat} (h1 : 0xD800 ≤ hi) (h2 : hi ≤ 0xDBFF) (h3 : 0xDC00 ≤ lo)
    (h4 : lo ≤ 0xDFFF) : (0x10000 + (hi - 0xD800) * 0x400 + (lo - 0xDC00)).isValidChar := by
  rw [Nat.isValidChar]
  omega

/-- **Unicode escapes.** -/
theorem parseUnicodeEscape_iff {s b rest : Bytes} :
    parseUnicodeEscape s = some (b, rest) ↔ ∃ t, Escape (letterU :: t) b ∧ s = t ++ rest := by
  constructor
  · intro h
    rw [parseUnicodeEscape] at h
    split at h
    · cases h
    · rename_i cp s₁ hhi
      obtain ⟨q, hq, rfl⟩ := hexLoop_four.mp hhi
      split_ifs at h with hsurr hlow
      · split at h
        · rename_i c u s₂
          split_ifs at h with hcu
          obtain ⟨rfl, rfl⟩ := hcu
          split at h
          · cases h
          · rename_i lo s₃ hlo
            obtain ⟨q', hq', rfl⟩ := hexLoop_four.mp hlo
            split_ifs at h with hrange
            have hl : 0xDC00 ≤ lo ∧ lo ≤ 0xDFFF := by omega
            obtain ⟨rfl, rfl⟩ := Prod.mk.inj (Option.some.inj h)
            refine ⟨q ++ backslash :: letterU :: q', ?_, by simp⟩
            rw [Nat.shiftLeft_eq, appendUtf8_eq (isValidChar_pair hsurr.1 hsurr.2 hl.1 hl.2)]
            exact .pair hq hq' hsurr.1 hsurr.2 hl.1 hl.2
        · cases h
      · have hs : ¬ (0xD800 ≤ cp ∧ cp ≤ 0xDFFF) := by omega
        obtain ⟨rfl, rfl⟩ := Prod.mk.inj (Option.some.inj h)
        refine ⟨q, ?_, rfl⟩
        rw [appendUtf8_eq (isValidChar_scalar hq hs)]
        exact .scalar hq hs
  · rintro ⟨t, ht, rfl⟩
    generalize he : letterU :: t = e at ht
    cases ht with
    | simple hs =>
      obtain ⟨rfl, rfl⟩ := List.cons.inj he
      cases hs
    | @scalar q cp hq hs =>
      obtain ⟨-, rfl⟩ := List.cons.inj he
      rw [parseUnicodeEscape, hexLoop_four.mpr ⟨_, hq, rfl⟩]
      show (if _ then _ else _) = _
      rw [if_neg (by omega), if_neg (by omega), appendUtf8_eq (isValidChar_scalar hq hs)]
    | @pair q q' hi lo hq hq' h1 h2 h3 h4 =>
      obtain ⟨-, rfl⟩ := List.cons.inj he
      rw [List.append_assoc, List.cons_append, List.cons_append, parseUnicodeEscape,
        hexLoop_four.mpr ⟨_, hq, rfl⟩]
      simp only [h1, h2, and_self, if_true, hexLoop_four.mpr ⟨_, hq', rfl⟩]
      rw [if_neg (by omega), Nat.shiftLeft_eq, appendUtf8_eq (isValidChar_pair h1 h2 h3 h4)]

theorem simpleEscape_iff {e b : UInt8} : simpleEscape e = some b ↔ SimpleEscape e b := by
  constructor
  · intro h
    rw [simpleEscape] at h
    split_ifs at h <;> cases h <;> subst e <;> constructor
  · rintro (_ | _) <;> rfl

theorem SimpleEscape.ne {e b : UInt8} (h : SimpleEscape e b) : e ≠ letterU := by
  rintro rfl
  cases h

/-- **Escapes.** -/
theorem parseEscape_iff {s b rest : Bytes} :
    parseEscape s = some (b, rest) ↔ ∃ e, Escape e b ∧ s = e ++ rest := by
  constructor
  · intro h
    cases s with
    | nil => cases h
    | cons c s =>
      rw [parseEscape] at h
      split_ifs at h with hu
      · obtain ⟨t, ht, rfl⟩ := parseUnicodeEscape_iff.mp h
        subst hu
        exact ⟨_, ht, rfl⟩
      · obtain ⟨x, hx, hb⟩ := Option.map_eq_some_iff.mp h
        obtain ⟨rfl, rfl⟩ := Prod.mk.inj hb
        exact ⟨[c], .simple (simpleEscape_iff.mp hx), rfl⟩
  · rintro ⟨e, he, rfl⟩
    cases he with
    | simple hs =>
      rw [List.singleton_append, parseEscape, if_neg hs.ne, simpleEscape_iff.mpr hs]
      rfl
    | scalar hq hs =>
      rw [List.cons_append, parseEscape, if_pos rfl]
      exact parseUnicodeEscape_iff.mpr ⟨_, .scalar hq hs, rfl⟩
    | pair hq hq' h1 h2 h3 h4 =>
      rw [List.cons_append, parseEscape, if_pos rfl]
      exact parseUnicodeEscape_iff.mpr ⟨_, .pair hq hq' h1 h2 h3 h4, rfl⟩

/-! ## Strings -/

/-- **What the loop reads is a string body and its closing quote.** -/
theorem of_stringLoop {maxString n : Nat} {str s b rest : Bytes}
    (h : stringLoop maxString n str s = .done b rest) (hstr : str.length ≤ maxString) :
    ∃ t d, StringBody t d ∧ s = t ++ quote :: rest ∧ b = str ++ d ∧ b.length ≤ maxString := by
  induction n generalizing str s with
  | zero => cases h
  | succ n ih =>
    cases s with
    | nil => cases h
    | cons c s =>
      rw [stringLoop] at h
      split_ifs at h with hq hlow hb hlen
      · obtain ⟨rfl, rfl⟩ := Outcome.done.inj h
        exact ⟨[], [], .nil, by rw [hq]; rfl, (List.append_nil _).symm, hstr⟩
      · split at h
        · cases h
        · rename_i x s' hesc
          obtain ⟨e, he, rfl⟩ := parseEscape_iff.mp hesc
          split_ifs at h with hlen
          obtain ⟨t, d, ht, rfl, rfl, hle⟩ := ih h (Nat.le_of_not_gt hlen)
          refine ⟨backslash :: (e ++ t), x ++ d, .escape he ht, ?_, by simp, hle⟩
          rw [hb]
          simp
      · obtain ⟨t, d, ht, rfl, rfl, hle⟩ := ih h (Nat.le_of_not_gt hlen)
        exact ⟨c :: t, c :: d, .raw (not_lt.mp hlow) hq hb ht, rfl, by simp, hle⟩

/-- **A string body is read back to its closing quote.** -/
theorem stringLoop_append {maxString n : Nat} {t d : Bytes} (ht : StringBody t d)
    (hn : t.length < n) (str rest : Bytes) (hlen : (str ++ d).length ≤ maxString) :
    stringLoop maxString n str (t ++ quote :: rest) = .done (str ++ d) rest := by
  induction ht generalizing n str with
  | nil =>
    obtain ⟨n, rfl⟩ := Nat.exists_eq_add_one_of_ne_zero (Nat.ne_zero_of_lt hn)
    rw [List.nil_append, stringLoop, if_pos rfl, List.append_nil]
  | @raw c t d hlow hq hb _ ih =>
    obtain ⟨n, rfl⟩ := Nat.exists_eq_add_one_of_ne_zero (Nat.ne_zero_of_lt hn)
    have hlen' : ((str ++ [c]) ++ d).length ≤ maxString := by simpa using hlen
    have hle : (str ++ [c]).length ≤ maxString := by
      rw [List.length_append] at hlen'
      omega
    rw [List.cons_append, stringLoop, if_neg hq, if_neg (not_lt.mpr hlow), if_neg hb,
      if_neg (Nat.not_lt.mpr hle), ih (by simpa using hn) _ hlen', List.append_assoc]
    rfl
  | @escape e x t d he _ ih =>
    obtain ⟨n, rfl⟩ := Nat.exists_eq_add_one_of_ne_zero (Nat.ne_zero_of_lt hn)
    have hlen' : ((str ++ x) ++ d).length ≤ maxString := by simpa using hlen
    have hle : (str ++ x).length ≤ maxString := by
      rw [List.length_append] at hlen'
      omega
    have hn' : t.length < n := by
      simp only [List.length_cons, List.length_append] at hn
      omega
    have hesc : parseEscape (e ++ (t ++ quote :: rest)) = some (x, t ++ quote :: rest) :=
      parseEscape_iff.mpr ⟨e, he, rfl⟩
    rw [List.cons_append, List.append_assoc, stringLoop, if_neg (by decide), if_neg (by decide),
      if_pos rfl, hesc]
    show (if _ then _ else _) = _
    rw [if_neg (Nat.not_lt.mpr hle), ih hn' _ hlen', List.append_assoc]

/-- The loop has turns enough. -/
theorem stringLoop_ne_exhausted {maxString n : Nat} {str s : Bytes} (hn : s.length < n) :
    stringLoop maxString n str s ≠ .exhausted := by
  induction n generalizing str s with
  | zero => omega
  | succ n ih =>
    cases s with
    | nil => exact fun h => by cases h
    | cons c s =>
      rw [List.length_cons] at hn
      rw [stringLoop]
      split_ifs with hq hlow hb hlen
      · exact fun h => by cases h
      · exact fun h => by cases h
      · split
        · exact fun h => by cases h
        · rename_i x s' hesc
          obtain ⟨e, he, rfl⟩ := parseEscape_iff.mp hesc
          rw [List.length_append] at hn
          split_ifs
          · exact fun h => by cases h
          · exact ih (by omega)
      · exact fun h => by cases h
      · exact ih (by omega)

theorem of_parseString {limits : JsonParseLimits} {depth : Nat} {s b rest : Bytes}
    (h : parseString limits depth s = .done b rest) :
    ∃ t, StringToken limits.maxString (quote :: t) b ∧ s = t ++ rest := by
  rw [parseString] at h
  split_ifs at h with hdepth
  obtain ⟨t, d, ht, rfl, rfl, hlen⟩ := of_stringLoop h (Nat.zero_le _)
  exact ⟨t ++ [quote], .mk ht hlen, by simp⟩

theorem parseString_append {limits : JsonParseLimits} {depth : Nat} {k b : Bytes}
    (hk : StringToken limits.maxString k b) (hdepth : depth < limits.maxDepth) (rest : Bytes) :
    ∃ t, k = quote :: t ∧ parseString limits depth (t ++ rest) = .done b rest := by
  obtain ⟨ht, hlen⟩ := hk
  rename_i t
  refine ⟨t ++ [quote], rfl, ?_⟩
  rw [parseString, if_neg (Nat.not_le.mpr hdepth), List.append_assoc]
  refine stringLoop_append ht ?_ [] rest hlen
  rw [List.length_append]
  omega

theorem parseString_ne_exhausted {limits : JsonParseLimits} {depth : Nat} {s : Bytes} :
    parseString limits depth s ≠ .exhausted := by
  rw [parseString]
  split_ifs
  · exact fun h => by cases h
  · exact stringLoop_ne_exhausted (Nat.lt_succ_self _)

/-! ## Numbers -/

/-- A number token ends before this text: no digit, fraction or exponent follows. -/
def EndsNumber (rest : Bytes) : Prop :=
  ∀ c ∈ rest.head?, isDigit c = false ∧ c ≠ dot ∧ c ≠ 0x65 ∧ c ≠ 0x45

/-- No digit follows. -/
def EndsDigits (rest : Bytes) : Prop := ∀ c ∈ rest.head?, isDigit c = false

theorem EndsNumber.endsDigits {rest : Bytes} (h : EndsNumber rest) : EndsDigits rest :=
  fun c hc => (h c hc).1

/-- The digits read are all there are. -/
theorem of_span {s ds rest : Bytes} (h : s.span isDigit = (ds, rest)) :
    (∀ c ∈ ds, isDigit c = true) ∧ s = ds ++ rest := by
  rw [List.span_eq_takeWhile_dropWhile] at h
  obtain ⟨rfl, rfl⟩ := Prod.mk.inj h
  exact ⟨fun c hc => List.mem_takeWhile_imp hc, List.takeWhile_append_dropWhile.symm⟩

theorem span_append {ds rest : Bytes} (hds : ∀ c ∈ ds, isDigit c = true) (hrest : EndsDigits rest) :
    (ds ++ rest).span isDigit = (ds, rest) := by
  rw [List.span_eq_takeWhile_dropWhile, List.takeWhile_append_of_pos hds,
    List.dropWhile_append_of_pos hds]
  cases rest with
  | nil => simp
  | cons c rest =>
    have hc : isDigit c = false := hrest c rfl
    rw [List.takeWhile_cons_of_neg (by simp [hc]), List.dropWhile_cons_of_neg (by simp [hc]),
      List.append_nil]

theorem isDigit_of_one_to_nine {c : UInt8} (h : 0x31 ≤ c ∧ c ≤ 0x39) : isDigit c = true := by
  have h0 : (0x30 : UInt8) ≤ c := le_trans (by decide) h.1
  simp [isDigit, h0, h.2]

theorem one_to_nine_of_isDigit {c : UInt8} (h : isDigit c = true) (h0 : c ≠ zero) :
    0x31 ≤ c ∧ c ≤ 0x39 := by
  simp only [isDigit, Bool.and_eq_true, decide_eq_true_eq, UInt8.le_iff_toNat_le] at h
  rw [Ne, ← UInt8.toNat_inj] at h0
  rw [UInt8.le_iff_toNat_le, UInt8.le_iff_toNat_le]
  have hz : zero.toNat = 48 := rfl
  simp at h ⊢
  omega

theorem of_scanInt {s ds rest : Bytes} (h : scanInt s = some (ds, rest)) :
    (Decimal.Digits ds ∧ (ds.head? = some zero → ds = [zero])) ∧ s = ds ++ rest := by
  cases s with
  | nil => cases h
  | cons c s =>
    rw [scanInt] at h
    split_ifs at h with h0 hc
    · obtain ⟨rfl, rfl⟩ := Prod.mk.inj (Option.some.inj h)
      subst h0
      exact ⟨⟨⟨List.cons_ne_nil _ _, by decide +kernel⟩, fun _ => rfl⟩, rfl⟩
    · obtain ⟨hds, hs⟩ := of_span (Option.some.inj h)
      cases ds with
      | nil =>
        rw [List.span_eq_takeWhile_dropWhile,
          List.takeWhile_cons_of_pos (isDigit_of_one_to_nine hc)] at h
        cases h
      | cons d ds =>
        obtain ⟨rfl, -⟩ := List.cons.inj hs
        refine ⟨⟨⟨List.cons_ne_nil _ _, hds⟩, ?_⟩, hs⟩
        intro hz
        exact absurd (Option.some.inj hz) h0

theorem scanInt_append {ds rest : Bytes} (hds : Decimal.Digits ds)
    (hz : ds.head? = some zero → ds = [zero]) (hrest : EndsDigits rest) :
    scanInt (ds ++ rest) = some (ds, rest) := by
  obtain ⟨hne, hds⟩ := hds
  cases ds with
  | nil => exact absurd rfl hne
  | cons c ds =>
    by_cases h0 : c = zero
    · obtain ⟨rfl, rfl⟩ := List.cons.inj (hz (congrArg some h0))
      rfl
    · have hc := one_to_nine_of_isDigit (hds c List.mem_cons_self) h0
      rw [List.cons_append, scanInt, if_neg h0, if_pos hc, ← List.cons_append,
        span_append hds hrest]

theorem of_scanFrac {s rest : Bytes} {frac : Option Bytes} (h : scanFrac s = some (frac, rest)) :
    (∀ ds ∈ frac, Decimal.Digits ds) ∧ s = (frac.elim [] fun ds => dot :: ds) ++ rest := by
  cases s with
  | nil =>
    obtain ⟨rfl, rfl⟩ := Prod.mk.inj (Option.some.inj h)
    exact ⟨by simp, rfl⟩
  | cons c s =>
    rw [scanFrac] at h
    split_ifs at h with hc
    · split at h
      · cases h
      · rename_i hne hspan
        obtain ⟨rfl, rfl⟩ := Prod.mk.inj (Option.some.inj h)
        obtain ⟨hds, rfl⟩ := of_span hspan
        refine ⟨?_, by rw [hc]; rfl⟩
        rintro _ ⟨⟩
        exact ⟨fun hnil => hne hnil, hds⟩
    · obtain ⟨rfl, rfl⟩ := Prod.mk.inj (Option.some.inj h)
      exact ⟨by simp, rfl⟩

theorem scanFrac_append {frac : Option Bytes} {rest : Bytes} (hf : ∀ ds ∈ frac, Decimal.Digits ds)
    (hdigits : EndsDigits rest) (hdot : ∀ c ∈ rest.head?, c ≠ dot) :
    scanFrac ((frac.elim [] fun ds => dot :: ds) ++ rest) = some (frac, rest) := by
  cases frac with
  | none =>
    cases rest with
    | nil => rfl
    | cons c rest =>
      show scanFrac (c :: rest) = _
      rw [scanFrac, if_neg (hdot c rfl)]
  | some ds =>
    obtain ⟨hne, hds⟩ := hf ds rfl
    show scanFrac (dot :: (ds ++ rest)) = _
    rw [scanFrac, if_pos rfl, span_append hds hdigits]
    cases ds with
    | nil => exact absurd rfl hne
    | cons d ds => rfl

theorem of_scanSign (s : Bytes) :
    (∀ p ∈ (scanSign s).1, p = plus ∨ p = minus) ∧
      s = (scanSign s).1.toList ++ (scanSign s).2 := by
  cases s with
  | nil =>
    refine ⟨?_, rfl⟩
    rintro _ ⟨⟩
  | cons c s =>
    rw [scanSign]
    split_ifs with hc
    · refine ⟨?_, rfl⟩
      rintro _ ⟨⟩
      exact hc
    · refine ⟨?_, rfl⟩
      rintro _ ⟨⟩

theorem scanSign_append {sign : Option UInt8} {ds rest : Bytes}
    (hs : ∀ p ∈ sign, p = plus ∨ p = minus) (hds : Decimal.Digits ds) :
    scanSign (sign.toList ++ (ds ++ rest)) = (sign, ds ++ rest) := by
  cases sign with
  | some p => exact if_pos (hs p rfl)
  | none =>
    obtain ⟨hne, hds⟩ := hds
    cases ds with
    | nil => exact absurd rfl hne
    | cons d ds =>
      have hd : isDigit d = true := hds d List.mem_cons_self
      refine if_neg ?_
      rintro (rfl | rfl)
      · exact absurd hd (by decide)
      · exact absurd hd (by decide)

theorem of_scanExp {s rest : Bytes} {e : Option (UInt8 × Option UInt8 × Bytes)}
    (h : scanExp s = some (e, rest)) :
    (∀ x ∈ e, (x.1 = 0x65 ∨ x.1 = 0x45) ∧ (∀ p ∈ x.2.1, p = plus ∨ p = minus) ∧
        Decimal.Digits x.2.2) ∧
      s = (e.elim [] fun x => x.1 :: (x.2.1.toList ++ x.2.2)) ++ rest := by
  cases s with
  | nil =>
    obtain ⟨rfl, rfl⟩ := Prod.mk.inj (Option.some.inj h)
    exact ⟨by simp, rfl⟩
  | cons c s =>
    rw [scanExp] at h
    split_ifs at h with hc
    · split at h
      · cases h
      · rename_i hne hspan
        obtain ⟨rfl, rfl⟩ := Prod.mk.inj (Option.some.inj h)
        obtain ⟨hds, hs⟩ := of_span hspan
        obtain ⟨hsign, hs'⟩ := of_scanSign s
        refine ⟨?_, ?_⟩
        · rintro _ ⟨⟩
          exact ⟨hc, hsign, fun hnil => hne hnil, hds⟩
        · rw [hs] at hs'
          conv_lhs => rw [hs']
          simp
    · obtain ⟨rfl, rfl⟩ := Prod.mk.inj (Option.some.inj h)
      exact ⟨by simp, rfl⟩

theorem scanExp_append {e : Option (UInt8 × Option UInt8 × Bytes)} {rest : Bytes}
    (he : ∀ x ∈ e, (x.1 = 0x65 ∨ x.1 = 0x45) ∧ (∀ p ∈ x.2.1, p = plus ∨ p = minus) ∧
      Decimal.Digits x.2.2) (hrest : EndsNumber rest) :
    scanExp ((e.elim [] fun x => x.1 :: (x.2.1.toList ++ x.2.2)) ++ rest) = some (e, rest) := by
  cases e with
  | none =>
    cases rest with
    | nil => rfl
    | cons c rest =>
      obtain ⟨-, -, h1, h2⟩ := hrest c rfl
      exact if_neg (not_or.mpr ⟨h1, h2⟩)
  | some x =>
    obtain ⟨c, sign, ds⟩ := x
    obtain ⟨hc, hsign, hds⟩ := he _ rfl
    show scanExp (c :: ((sign.toList ++ ds) ++ rest)) = _
    rw [scanExp, if_pos hc, List.append_assoc, scanSign_append hsign hds,
      span_append hds.2 hrest.endsDigits]
    cases ds with
    | nil => exact absurd rfl hds.1
    | cons d ds => rfl

theorem of_scanMinus (s : Bytes) :
    s = (if (scanMinus s).1 then [minus] else []) ++ (scanMinus s).2 := by
  cases s with
  | nil => rfl
  | cons c s =>
    by_cases hc : c = minus
    · rw [scanMinus, if_pos hc, hc]
      rfl
    · rw [scanMinus, if_neg hc]
      rfl

/-- **What is scanned is a number token.** -/
theorem of_scanDecimal {s rest : Bytes} {d : Decimal} (h : scanDecimal s = some (d, rest)) :
    d.WellFormed ∧ s = d.text ++ rest := by
  rw [scanDecimal] at h
  split at h
  · cases h
  · rename_i int s₁ hint
    split at h
    · cases h
    · rename_i frac s₂ hfrac
      split at h
      · cases h
      · rename_i e s₃ hexp
        obtain ⟨rfl, rfl⟩ := Prod.mk.inj (Option.some.inj h)
        obtain ⟨⟨hds, hz⟩, hs₁⟩ := of_scanInt hint
        obtain ⟨hf, hs₂⟩ := of_scanFrac hfrac
        obtain ⟨he, hs₃⟩ := of_scanExp hexp
        refine ⟨⟨hds, hz, hf, he⟩, ?_⟩
        conv_lhs => rw [of_scanMinus s, hs₁, hs₂, hs₃]
        simp only [Decimal.text, List.append_assoc]

theorem Decimal.Digits.exists_cons {ds : Bytes} (h : Decimal.Digits ds) :
    ∃ c t, ds = c :: t ∧ isDigit c = true := by
  obtain ⟨hne, hds⟩ := h
  cases ds with
  | nil => exact absurd rfl hne
  | cons c t => exact ⟨c, t, rfl, hds c List.mem_cons_self⟩

/-- An exponent starts with no digit and no dot. -/
theorem head?_exp {e : Option (UInt8 × Option UInt8 × Bytes)} {rest : Bytes}
    (he : ∀ x ∈ e, (x.1 = 0x65 ∨ x.1 = 0x45) ∧ (∀ p ∈ x.2.1, p = plus ∨ p = minus) ∧
      Decimal.Digits x.2.2) (hrest : EndsNumber rest) :
    ∀ c ∈ ((e.elim [] fun x => x.1 :: (x.2.1.toList ++ x.2.2)) ++ rest).head?,
      isDigit c = false ∧ c ≠ dot := by
  cases e with
  | none =>
    intro c hc
    obtain ⟨h1, h2, -⟩ := hrest c hc
    exact ⟨h1, h2⟩
  | some x =>
    rintro _ ⟨⟩
    obtain ⟨hc | hc, -⟩ := he x rfl
    · exact hc ▸ ⟨rfl, by decide⟩
    · exact hc ▸ ⟨rfl, by decide⟩

/-- **A number token is scanned to its end.** -/
theorem scanDecimal_append {d : Decimal} {rest : Bytes} (hd : d.WellFormed)
    (hrest : EndsNumber rest) : scanDecimal (d.text ++ rest) = some (d, rest) := by
  obtain ⟨neg, int, frac, e⟩ := d
  obtain ⟨hint, hz, hf, he⟩ := hd
  have htail := head?_exp he hrest
  have hminus : scanMinus ((if neg then [minus] else []) ++ (int ++
      ((frac.elim [] fun ds => dot :: ds) ++
        ((e.elim [] fun x => x.1 :: (x.2.1.toList ++ x.2.2)) ++ rest)))) = (neg, int ++
      ((frac.elim [] fun ds => dot :: ds) ++
        ((e.elim [] fun x => x.1 :: (x.2.1.toList ++ x.2.2)) ++ rest))) := by
    cases neg with
    | true => rfl
    | false =>
      obtain ⟨c, t, rfl, hc⟩ := hint.exists_cons
      refine if_neg ?_
      rintro rfl
      exact absurd hc (by decide)
  have hfracEnd : EndsDigits ((frac.elim [] fun ds => dot :: ds) ++
      ((e.elim [] fun x => x.1 :: (x.2.1.toList ++ x.2.2)) ++ rest)) := by
    cases frac with
    | none => exact fun c hc => (htail c hc).1
    | some ds =>
      rintro _ ⟨⟩
      rfl
  simp only [Decimal.text, List.append_assoc]
  rw [scanDecimal, hminus, scanInt_append hint hz hfracEnd]
  dsimp only
  rw [scanFrac_append hf (fun c hc => (htail c hc).1) fun c hc => (htail c hc).2]
  dsimp only
  rw [scanExp_append he hrest]

end JsonText

end MemoryPressure
