import MemoryPressure.Codec
import MemoryPressure.Json.Tokens

/-!
# The texts `from_hex` reads (`types.h`)

An id is read from 32 hexadecimal digits, of either case, and written in lower case. The
reader works byte by byte and shifts each digit into a 64-bit word, twice; the writer is
`printf` with `%016llx`, twice. That they are inverse to each other is an argument about
the word after each turn of the reader's loop.

- `pushNibble_eq_some`: what one turn of the loop of `parse16` does, and how it is
  undone: the digit is the last one of the word, the rest of the word is what it was.
- `parse_lt`: a word read from `k` digits is below `16 ^ k`, so that with fifteen digits
  there is still room for one more and no digit is shifted out (`sixteen_pow_le`).
- `digits_of_parse`: hence the word read from up to sixteen digits has these digits, by
  induction on the text from its end.
- `domain_id_codec`: both directions, over all ids and all byte strings.

The source reads bytes and the model of the text of an id is a list of characters, so
`byteText` and `nibble_byteChar` carry digits from one to the other.
-/

namespace MemoryPressure

open JsonText

/-! ## Bytes as characters -/

/-- A byte of a text. -/
def byteChar (b : UInt8) : Char := Char.ofNat b.toNat

/-- The text of a byte string. -/
def byteText (s : Bytes) : String := String.ofList (s.map byteChar)

theorem byteText_append (s t : Bytes) : byteText (s ++ t) = byteText s ++ byteText t := by
  rw [byteText, List.map_append, String.ofList_append]
  rfl

/-- A byte in lower case. -/
def lowerCase (b : UInt8) : UInt8 := if 0x41 ≤ b ∧ b ≤ 0x5A then b + 0x20 else b

/-- The two readers of a hexadecimal digit agree. -/
theorem nibble_byteChar (b : UInt8) : nibble (byteChar b) = (hexValue b).map UInt64.ofNat := by
  have hall : ∀ k : Fin 256, nibble (byteChar (UInt8.ofNat k.val))
      = (hexValue (UInt8.ofNat k.val)).map UInt64.ofNat := by decide +kernel
  simpa using hall ⟨b.toNat, b.toNat_lt⟩

/-- A digit is written in lower case. -/
theorem hexDigit_nibble {b : UInt8} {x : UInt64} (h : nibble (byteChar b) = some x) :
    x < 16 ∧ hexDigit x = byteChar (lowerCase b) := by
  have hall : ∀ k : Fin 256, (nibble (byteChar (UInt8.ofNat k.val))).all fun x =>
      x < 16 ∧ hexDigit x = byteChar (lowerCase (UInt8.ofNat k.val)) := by decide +kernel
  have hb := hall ⟨b.toNat, b.toNat_lt⟩
  rw [UInt8.ofNat_toNat, h, Option.all_some] at hb
  exact of_decide_eq_true hb

/-- The digits are those of the grammar. -/
theorem exists_nibble_iff {b : UInt8} :
    (∃ x, nibble (byteChar b) = some x) ↔ ∃ v, HexDigit b v := by
  rw [nibble_byteChar]
  constructor
  · rintro ⟨x, hx⟩
    obtain ⟨v, hv, -⟩ := Option.map_eq_some_iff.mp hx
    exact ⟨v, hexValue_iff.mp hv⟩
  · rintro ⟨v, hv⟩
    exact ⟨UInt64.ofNat v, by rw [hexValue_iff.mpr hv]; rfl⟩

/-! ## The loop -/

/-- The digit comes in behind the word. -/
theorem toNat_shiftLeft_or {v x : UInt64} (hv : v.toNat < 2 ^ 60) (hx : x < 16) :
    ((v <<< 4) ||| x).toNat = v.toNat * 16 + x.toNat := by
  have hlt : x.toNat < 2 ^ 4 := hx
  rw [UInt64.toNat_or, UInt64.toNat_shiftLeft]
  show (v.toNat <<< 4) % 2 ^ 64 ||| x.toNat = _
  rw [Nat.mod_eq_of_lt (by rw [Nat.shiftLeft_eq]; omega), ← Nat.shiftLeft_add_eq_or_of_lt hlt,
    Nat.shiftLeft_eq]

/-- **One turn of the loop, and back.** -/
theorem pushNibble_eq_some {v w : UInt64} {b : UInt8} (h : pushNibble v (byteChar b) = some w)
    (hv : v.toNat < 2 ^ 60) :
    w.toNat / 16 = v.toNat ∧ w >>> 4 = v ∧ hexDigit (w &&& 15) = byteChar (lowerCase b) := by
  obtain ⟨x, hx, rfl⟩ := Option.map_eq_some_iff.mp h
  obtain ⟨hlt, hdigit⟩ := hexDigit_nibble hx
  have hnat : x.toNat < 16 := hlt
  have hword := toNat_shiftLeft_or hv hlt
  have hrest : ((v <<< 4) ||| x).toNat / 16 = v.toNat := by omega
  refine ⟨hrest, ?_, ?_⟩
  · apply UInt64.toNat_inj.mp
    rw [UInt64.toNat_shiftRight]
    show _ >>> 4 = _
    rw [Nat.shiftRight_eq_div_pow]
    exact hrest
  · have hlast : ((v <<< 4) ||| x) &&& 15 = x := by
      apply UInt64.toNat_inj.mp
      rw [UInt64.toNat_and, hword]
      show (v.toNat * 16 + x.toNat) &&& 2 ^ 4 - 1 = _
      rw [Nat.and_two_pow_sub_one_eq_mod]
      omega
    rw [hlast]
    exact hdigit

/-- The last turn of the loop. -/
theorem parse_snoc {s : Bytes} {b : UInt8} {w : UInt64} :
    ((s ++ [b]).map byteChar).foldlM pushNibble 0 = some w ↔
      ∃ v, (s.map byteChar).foldlM pushNibble 0 = some v ∧
        pushNibble v (byteChar b) = some w := by
  rw [List.map_append, List.foldlM_append]
  simp [Option.bind_eq_some_iff]

/-- Fifteen digits leave room for one more. -/
theorem sixteen_pow_le {k : Nat} (hk : k ≤ 15) : 16 ^ k ≤ 2 ^ 60 :=
  Nat.pow_le_pow_right (by decide : 0 < 16) hk

/-- A word is below the number of words of as many digits. -/
theorem parse_lt {s : Bytes} {v : UInt64} (h : (s.map byteChar).foldlM pushNibble 0 = some v)
    (hlen : s.length ≤ 15) : v.toNat < 16 ^ s.length := by
  induction s using List.reverseRecOn generalizing v with
  | nil =>
    obtain rfl := Option.some.inj h
    decide
  | append_singleton s b ih =>
    rw [List.length_append, List.length_singleton] at hlen ⊢
    obtain ⟨u, hu, hpush⟩ := parse_snoc.mp h
    have hlt := ih hu (by omega)
    obtain ⟨hrest, -⟩ := pushNibble_eq_some hpush (hlt.trans_le (sixteen_pow_le (by omega)))
    rw [pow_succ]
    omega

/-- **The word has the digits it was read from**, in lower case: the last turn left the
last of them, the turns before it the others. -/
theorem digits_of_parse (n : UInt64) {k : Nat} (hk : k < 16) {s : Bytes} (hlen : s.length = k + 1)
    (h : (s.map byteChar).foldlM pushNibble 0 = some (topDigits n k)) :
    ((List.range (k + 1)).map fun i => hexDigit (topDigits n i &&& 15))
      = (s.map lowerCase).map byteChar := by
  induction k generalizing s with
  | zero =>
    obtain ⟨b, rfl⟩ := List.length_eq_one_iff.mp hlen
    obtain ⟨v, hv, hpush⟩ := parse_snoc (s := []).mp h
    obtain rfl := Option.some.inj hv
    obtain ⟨-, -, hdigit⟩ := pushNibble_eq_some hpush (by decide)
    exact congrArg (fun c => [c]) hdigit
  | succ k ih =>
    obtain ⟨s, b, rfl⟩ :=
      (List.eq_nil_or_concat' s).resolve_left (List.ne_nil_of_length_eq_add_one hlen)
    rw [List.length_append, List.length_singleton] at hlen
    obtain ⟨v, hv, hpush⟩ := parse_snoc.mp h
    have hlt := parse_lt hv (by omega)
    obtain ⟨-, hrest, hdigit⟩ :=
      pushNibble_eq_some hpush (hlt.trans_le (sixteen_pow_le (by omega)))
    rw [topDigits_succ n hk] at hrest
    rw [List.range_succ, List.map_append, List.map_append, List.map_append,
      ih (by omega) (by omega) (hrest ▸ hv)]
    exact congrArg (fun c => _ ++ [c]) hdigit

/-! ## Whole texts -/

/-- The loop gets to its end if each byte is a digit. -/
theorem exists_parse_iff {s : Bytes} :
    (∃ v, (s.map byteChar).foldlM pushNibble 0 = some v) ↔ ∀ b ∈ s, ∃ v, HexDigit b v := by
  induction s using List.reverseRecOn with
  | nil => simp
  | append_singleton s b ih =>
    rw [List.forall_mem_append, ← ih, List.forall_mem_singleton, ← exists_nibble_iff]
    constructor
    · rintro ⟨w, hw⟩
      obtain ⟨v, hv, hpush⟩ := parse_snoc.mp hw
      obtain ⟨x, hx, -⟩ := Option.map_eq_some_iff.mp hpush
      exact ⟨⟨v, hv⟩, x, hx⟩
    · rintro ⟨⟨v, hv⟩, x, hx⟩
      exact ⟨_, parse_snoc.mpr ⟨v, hv, by rw [pushNibble, hx]; rfl⟩⟩

theorem exists_parse16 {s : Bytes} (hlen : s.length = 16) (h : ∀ b ∈ s, ∃ v, HexDigit b v) :
    ∃ n, parse16 (s.map byteChar) = some n := by
  rw [parse16, List.length_map, if_neg (not_not.mpr hlen)]
  exact exists_parse_iff.mpr h

theorem digits_of_parse16 {s : Bytes} {n : UInt64} (h : parse16 (s.map byteChar) = some n) :
    ∀ b ∈ s, ∃ v, HexDigit b v := by
  rw [parse16] at h
  split_ifs at h
  exact exists_parse_iff.mp ⟨n, h⟩

/-- What `parse16` reads, `%016llx` writes in lower case. -/
theorem hex16_of_parse16 {s : Bytes} {n : UInt64} (h : parse16 (s.map byteChar) = some n) :
    hex16 n = byteText (s.map lowerCase) := by
  rw [parse16] at h
  split_ifs at h with hlen
  rw [not_not, List.length_map] at hlen
  rw [hex16, byteText]
  exact congrArg String.ofList
    (digits_of_parse n (by decide) hlen (h.trans (congrArg some (topDigits_last n).symm)))

/-- `from_hex` reads two words. -/
theorem fromHex_eq_some {s : Bytes} {id : PressureDomainId} :
    PressureDomainId.fromHex (byteText s) = some id ↔
      s.length = 32 ∧ parse16 ((s.take 16).map byteChar) = some id.high ∧
        parse16 ((s.drop 16).map byteChar) = some id.low := by
  rw [PressureDomainId.fromHex, byteText, String.length_ofList, List.length_map,
    String.toList_ofList, ← List.map_take, ← List.map_drop]
  constructor
  · intro h
    split_ifs at h with hlen
    split at h
    · rename_i hi lo hhi hlo
      obtain rfl := Option.some.inj h
      exact ⟨not_not.mp hlen, hhi, hlo⟩
    · cases h
  · rintro ⟨hlen, hhi, hlo⟩
    rw [if_neg (not_not.mpr hlen), hhi, hlo]

/-- **The codec of domain ids.** Every id is read back from its text; a byte string is read
if it is 32 hexadecimal digits, and then the id's text is that string in lower case. So
texts are normalized by reading and writing them, and two texts are one id exactly when
they differ in the case of letters only. -/
theorem domain_id_codec :
    (∀ id : PressureDomainId, PressureDomainId.fromHex id.toHex = some id) ∧
      ∀ s : Bytes,
        ((∃ id, PressureDomainId.fromHex (byteText s) = some id) ↔
          s.length = 32 ∧ ∀ b ∈ s, ∃ v, HexDigit b v) ∧
        ∀ id, PressureDomainId.fromHex (byteText s) = some id →
          id.toHex = byteText (s.map lowerCase) := by
  refine ⟨fromHex_toHex, ?_⟩
  intro s
  constructor
  · constructor
    · rintro ⟨id, hid⟩
      obtain ⟨hlen, hhi, hlo⟩ := fromHex_eq_some.mp hid
      refine ⟨hlen, ?_⟩
      rw [← List.take_append_drop 16 s, List.forall_mem_append]
      exact ⟨digits_of_parse16 hhi, digits_of_parse16 hlo⟩
    · rintro ⟨hlen, hdigits⟩
      rw [← List.take_append_drop 16 s, List.forall_mem_append] at hdigits
      obtain ⟨hi, hhi⟩ := exists_parse16 (by rw [List.length_take]; omega) hdigits.1
      obtain ⟨lo, hlo⟩ := exists_parse16 (by rw [List.length_drop]; omega) hdigits.2
      exact ⟨{ high := hi, low := lo }, fromHex_eq_some.mpr ⟨hlen, hhi, hlo⟩⟩
  · intro id hid
    obtain ⟨-, hhi, hlo⟩ := fromHex_eq_some.mp hid
    rw [PressureDomainId.toHex, hex16_of_parse16 hhi, hex16_of_parse16 hlo, ← byteText_append,
      ← List.map_append, List.take_append_drop]

end MemoryPressure
