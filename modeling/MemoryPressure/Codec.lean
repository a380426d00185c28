import MemoryPressure.Domain

/-!
# Domain ids in serialized snapshots (`types.h`, `serialize.cpp`)

`snapshot_to_json` writes a domain's id with `to_hex`; `snapshot_from_json`
reads it with `from_hex` and refuses an id it has seen.

- `fromHex_toHex`: an id survives the codec;
- `readDomainIds_toHex`: the reader accepts a list of written ids exactly when
  no id repeats.

An id is two words of 64 bits, 32 digits. The reader takes either case and pushes a digit
onto its word with a shift and an or. The round trip is shown of one word at a time, by
going down its digits: the upper part of a word, shifted back in front of its last digit,
is the word (`shiftRight_shiftLeft_or`), so that pushing the digits from the top rebuilds it
(`pushNibble_topDigits`). Which texts are ids at all is the subject of `DomainId.lean`.

The loop is given as far as ids go: what else an entry of `domains` holds is read by
`domainsFromJson` in `SnapshotCodec.lean`, whose refusals are these.
-/

namespace MemoryPressure

/-! ## The id codec -/

/-- One hexadecimal digit of either case (types.h:176). -/
def nibble (c : Char) : Option UInt64 :=
  if '0' ≤ c ∧ c ≤ '9' then some (UInt64.ofNat (c.toNat - '0'.toNat))
  else if 'a' ≤ c ∧ c ≤ 'f' then some (UInt64.ofNat (c.toNat - 'a'.toNat + 10))
  else if 'A' ≤ c ∧ c ≤ 'F' then some (UInt64.ofNat (c.toNat - 'A'.toNat + 10))
  else none

/-- `v = (v << 4) | nibble` (types.h:180). -/
def pushNibble (v : UInt64) (c : Char) : Option UInt64 :=
  (nibble c).map fun x => (v <<< 4) ||| x

/-- `parse16` (types.h:172). -/
def parse16 (chunk : List Char) : Option UInt64 :=
  if chunk.length ≠ 16 then none else chunk.foldlM pushNibble 0

/-- `PressureDomainId::from_hex` (types.h:171). A byte of the text is a `Char`
here. -/
def PressureDomainId.fromHex (s : String) : Option PressureDomainId :=
  if s.length ≠ 32 then none
  else
    match parse16 (s.toList.take 16), parse16 (s.toList.drop 16) with
    | some hi, some lo => some { high := hi, low := lo }
    | _, _ => none

theorem nibble_hexDigit {n : UInt64} (h : n < 16) : nibble (hexDigit n) = some n := by
  have hall : ∀ k : Fin 16,
      nibble (hexDigit (UInt64.ofNat k.val)) = some (UInt64.ofNat k.val) := by decide
  simpa using hall ⟨n.toNat, h⟩

/-- A word is its upper part shifted back in front of its last digit. -/
theorem shiftRight_shiftLeft_or (x : UInt64) : ((x >>> 4) <<< 4) ||| (x &&& 15) = x := by
  apply UInt64.toNat_inj.mp
  have hlt := x.toNat_lt
  have hmod : x.toNat &&& 15 = x.toNat % 2 ^ 4 := Nat.and_two_pow_sub_one_eq_mod x.toNat 4
  have hor := Nat.shiftLeft_add_eq_or_of_lt (Nat.mod_lt x.toNat (by decide : 0 < 2 ^ 4))
    (x.toNat >>> 4)
  simp only [UInt64.toNat_or, UInt64.toNat_shiftLeft, UInt64.toNat_shiftRight, UInt64.toNat_and]
  show (x.toNat >>> 4 <<< 4) % 2 ^ 64 ||| x.toNat &&& 15 = x.toNat
  rw [Nat.mod_eq_of_lt (by rw [Nat.shiftLeft_eq, Nat.shiftRight_eq_div_pow]; omega), hmod, ← hor,
    Nat.shiftLeft_eq, Nat.shiftRight_eq_div_pow]
  omega

/-- The digits of `n` down to digit `i`. -/
def topDigits (n : UInt64) (i : Nat) : UInt64 := n >>> (60 - 4 * UInt64.ofNat i)

theorem topDigits_succ (n : UInt64) {i : Nat} (hi : i + 1 < 16) :
    topDigits n (i + 1) >>> 4 = topDigits n i := by
  have hshift : ∀ i : Fin 15, (60 - 4 * UInt64.ofNat (i.val + 1)).toNat % 64 + 4
      = (60 - 4 * UInt64.ofNat i.val).toNat % 64 := by decide
  apply UInt64.toNat_inj.mp
  simp only [topDigits, UInt64.toNat_shiftRight, ← hshift ⟨i, by omega⟩]
  show _ >>> 4 = _
  rw [← Nat.shiftRight_add]

theorem topDigits_zero (n : UInt64) : topDigits n 0 >>> 4 = 0 := by
  apply UInt64.toNat_inj.mp
  have hlt := n.toNat_lt
  show n.toNat >>> 60 >>> 4 = 0
  rw [Nat.shiftRight_eq_div_pow, Nat.shiftRight_eq_div_pow]
  omega

/-- Pushing the next digit onto the digits above it. -/
theorem pushNibble_topDigits {v x : UInt64} (h : x >>> 4 = v) :
    pushNibble v (hexDigit (x &&& 15)) = some x := by
  have hlt : x &&& 15 < 16 := by
    show (x &&& 15).toNat < 16
    rw [UInt64.toNat_and]
    exact Nat.lt_succ_of_le Nat.and_le_right
  rw [pushNibble, nibble_hexDigit hlt, Option.map_some, ← h, shiftRight_shiftLeft_or]

theorem parse_digits (n : UInt64) (k : Nat) (hk : k < 16) :
    ((List.range (k + 1)).map fun i => hexDigit (topDigits n i &&& 15)).foldlM pushNibble 0
      = some (topDigits n k) := by
  induction k with
  | zero => simp [pushNibble_topDigits (topDigits_zero n)]
  | succ k ih =>
    rw [List.range_succ, List.map_append, List.foldlM_append, ih (by omega)]
    simp [pushNibble_topDigits (topDigits_succ n hk)]

theorem topDigits_last (n : UInt64) : topDigits n 15 = n := by
  apply UInt64.toNat_inj.mp
  show n.toNat >>> 0 = n.toNat
  rfl

theorem length_hex16 (n : UInt64) : (hex16 n).toList.length = 16 := by
  rw [hex16, String.toList_ofList, List.length_map, List.length_range]

theorem parse16_hex16 (n : UInt64) : parse16 (hex16 n).toList = some n := by
  rw [parse16, if_neg (not_not.mpr (length_hex16 n)), hex16, String.toList_ofList]
  exact (parse_digits n 15 (by omega)).trans (congrArg some (topDigits_last n))

/-- **The codec round trip.** -/
theorem fromHex_toHex (id : PressureDomainId) :
    PressureDomainId.fromHex id.toHex = some id := by
  have hlen : id.toHex.length = 32 := by
    rw [← String.length_toList, PressureDomainId.toHex, String.toList_append, List.length_append,
      length_hex16, length_hex16]
  rw [PressureDomainId.fromHex, if_neg (not_not.mpr hlen), PressureDomainId.toHex,
    String.toList_append, List.take_left' (length_hex16 _), List.drop_left' (length_hex16 _),
    parse16_hex16, parse16_hex16]

/-! ## The reader's domain loop -/

/-- The `domains` loop of `snapshot_from_json` (serialize.cpp:459), as far as ids
go: an unreadable id or one already seen refuses the document. -/
def readDomainIds : List PressureDomainId → List String → Option (List PressureDomainId)
  | seen, [] => some seen
  | seen, text :: texts =>
    match PressureDomainId.fromHex text with
    | none => none
    | some id => if id ∈ seen then none else readDomainIds (seen ++ [id]) texts

/-- The ids `snapshot_to_json` writes for a snapshot's domains. -/
def writtenIds {F : Type} [Double F] (s : Snapshot F) : List String :=
  s.ids.map PressureDomainId.toHex

/-- **The reader on written ids**: accepted, unchanged, exactly when none
repeats. -/
theorem readDomainIds_toHex (ids seen : List PressureDomainId) (hseen : seen.Nodup) :
    readDomainIds seen (ids.map PressureDomainId.toHex)
      = if (seen ++ ids).Nodup then some (seen ++ ids) else none := by
  induction ids generalizing seen with
  | nil => simp [readDomainIds, hseen]
  | cons id ids ih =>
    rw [List.map_cons, readDomainIds, fromHex_toHex]
    by_cases hid : id ∈ seen
    · have hrep : ¬ (seen ++ id :: ids).Nodup := fun hnd =>
        (List.nodup_append.mp hnd).2.2 id hid id (List.mem_cons_self ..) rfl
      simp only [if_pos hid, if_neg hrep]
    · have hsnoc : (seen ++ [id]).Nodup := by
        rw [List.nodup_append]
        refine ⟨hseen, List.nodup_singleton id, ?_⟩
        intro a ha b hb
        rintro rfl
        exact hid (List.mem_singleton.mp hb ▸ ha)
      simp only [if_neg hid]
      rw [ih _ hsnoc, List.append_assoc, List.singleton_append]

end MemoryPressure
