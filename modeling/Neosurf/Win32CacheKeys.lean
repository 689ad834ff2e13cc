import Neosurf.Win32FontCache

/-!
# The keys of the win32 text caches

Each hashmap of `windows/font.c` (`src/unnamed/part_005`) is given a key
type with a clone, a hash and an equality: `font_key_t` (`fc_key_*`),
`split_key_t` (`sc_key_*`) and `wstr_key_t` (`wc_key_*`).  A hashmap finds a
key only in the bucket of its hash, so a lookup is right only if equal keys
hash alike, and an inserted key is found again only if its clone equals it.

The hashes are FNV-1a over 32-bit words.  A C string is the UTF-8 encoding
of a `String`; a `char *` of a split or string key is the bytes it points to,
`none` for `NULL`.  `split_key_t` and `wstr_key_t` end in the same
`len`/`str` pair, hashed, compared and cloned by the same code, which is
modelled once (`ByteKey`).
-/

namespace Neosurf
namespace Windows

/-! ### Bytes -/

/-- `tolower` on a byte, in the C locale. -/
def tolowerByte (b : UInt8) : UInt8 :=
  if 65 ≤ b.toNat ∧ b.toNat ≤ 90 then b + 32 else b

/-- The bytes of a C string: the UTF-8 encoding of the `String`. -/
def cStringBytes (s : String) : List UInt8 :=
  s.toUTF8.data.toList

/-- `(uint32_t)` of a C `int`. -/
def intToUInt32 (x : Int) : UInt32 :=
  (x % 4294967296).toNat.toUInt32

/-- `PLOT_FONT_FAMILY_*`, as `(uint32_t)k->family` reads it. -/
def PlotFontFamily.code : PlotFontFamily → UInt32
  | .sansSerif => 0
  | .serif => 1
  | .monospace => 2
  | .cursive => 3
  | .fantasy => 4

/-- `2166136261u`, where every key hash starts. -/
def fnvOffset : UInt32 := 2166136261

/-- `h = (h ^ x) * 16777619u`. -/
def fnvStep (h x : UInt32) : UInt32 := (h ^^^ x) * 16777619

/-- The first four steps of `fc_key_hash` and `sc_key_hash`. -/
def hashStyleFields (family : PlotFontFamily) (size weight : Int) (flags : ℕ) : UInt32 :=
  fnvStep (fnvStep (fnvStep (fnvStep fnvOffset family.code) (intToUInt32 size))
    (intToUInt32 weight)) flags.toUInt32

/-! ### `font_key_t` -/

/-- The face loop of `fc_key_hash`: lower-cased bytes up to the string's
`NUL`, at most `max_len` of them. -/
def hashFace : ℕ → List UInt8 → UInt32 → UInt32
  | 0, _, h => h
  | _ + 1, [], h => h
  | n + 1, b :: rest, h =>
      if b = 0 then h else hashFace n rest (fnvStep h (tolowerByte b).toUInt32)

/-- `fc_key_hash`. -/
def fcKeyHash (k : FontKey) : UInt32 :=
  match k.face with
  | some face => hashFace 256 (cStringBytes face) (hashStyleFields k.family k.size k.weight k.flags)
  | none => hashStyleFields k.family k.size k.weight k.flags

/-- `fc_key_clone`: `none` when `malloc` or the `strdup` of the face fails. -/
def fcKeyClone (mallocOk strdupOk : Bool) (k : FontKey) : Option FontKey :=
  if !mallocOk then none
  else
    match k.face with
    | some face => if strdupOk then some { k with face := some face } else none
    | none => some { k with face := none }

/-! ### `split_key_t` and `wstr_key_t` -/

/-- The `len` and `str` fields that end `split_key_t` and `wstr_key_t`. -/
structure ByteKey where
  len : ℕ
  str : Option (List UInt8)
  deriving DecidableEq, Repr

/-- The hash steps of `len` and of the `len` bytes of `str`, skipped when
`str` is `NULL` or `len` is 0. -/
def ByteKey.hash (k : ByteKey) (h : UInt32) : UInt32 :=
  let h := fnvStep h k.len.toUInt32
  match k.str with
  | some str => if 0 < k.len then (str.take k.len).foldl (fun h b => fnvStep h b.toUInt32) h else h
  | none => h

/-- The comparison of `len` and `str`: equal lengths, then nothing more for
length 0, pointer equality when one is `NULL`, else `memcmp`. -/
def ByteKey.eq (a b : ByteKey) : Bool :=
  a.len = b.len &&
    (a.len = 0 ||
      match a.str, b.str with
      | some sa, some sb => sa.take a.len = sb.take a.len
      | none, none => true
      | _, _ => false)

/-- The copy of `len` and `str`: a new buffer of `len` bytes when `len > 0`,
`none` when its `malloc` fails or `memcpy` would read from `NULL`. -/
def ByteKey.clone (strMallocOk : Bool) (k : ByteKey) : Option ByteKey :=
  if 0 < k.len then
    match k.str with
    | some str => if strMallocOk then some ⟨k.len, some (str.take k.len)⟩ else none
    | none => none
  else some ⟨k.len, none⟩

/-- `split_key_t`, its pointer included. -/
structure SplitKeyC where
  family : PlotFontFamily
  size : Int
  weight : Int
  flags : ℕ
  x : Int
  bytes : ByteKey
  deriving DecidableEq, Repr

/-- `sc_key_hash`. -/
def scKeyHash (k : SplitKeyC) : UInt32 :=
  k.bytes.hash (fnvStep (hashStyleFields k.family k.size k.weight k.flags) (intToUInt32 k.x))

/-- `sc_key_eq`. -/
def scKeyEq (a b : SplitKeyC) : Bool :=
  a.family = b.family && a.size = b.size && a.weight = b.weight && a.flags = b.flags &&
    a.x = b.x && a.bytes.eq b.bytes

/-- `sc_key_clone`. -/
def scKeyClone (mallocOk strMallocOk : Bool) (k : SplitKeyC) : Option SplitKeyC :=
  if !mallocOk then none else (k.bytes.clone strMallocOk).map fun bytes => { k with bytes := bytes }

/-- `wc_key_hash`. -/
def wcKeyHash (k : ByteKey) : UInt32 := k.hash fnvOffset

/-- `wc_key_eq`. -/
def wcKeyEq (a b : ByteKey) : Bool := a.eq b

/-- `wc_key_clone`. -/
def wcKeyClone (mallocOk strMallocOk : Bool) (k : ByteKey) : Option ByteKey :=
  if !mallocOk then none else k.clone strMallocOk

/-- A model key of the split cache as the C key it stands for: the string
pointer set. -/
def SplitKey.toC (k : SplitKey) : SplitKeyC :=
  ⟨k.family, k.size, k.weight, k.flags, k.x, ⟨k.len, some k.str⟩⟩

/-! ### Lower-casing commutes with the UTF-8 encoding

`strcasecmp` and `fc_key_hash` lower-case bytes, `strcaseEq` characters.  The
two agree because lower-casing touches only ASCII letters, which are single
bytes, and every byte of a longer sequence has its high bit set. -/

theorem tolowerByte_of_le {b : UInt8} (h : 128 ≤ b.toNat) : tolowerByte b = b :=
  if_neg (by omega)

theorem le_toNat_or (x y : UInt8) : y.toNat ≤ (x ||| y).toNat := by
  show y.toBitVec.toNat ≤ (x.toBitVec ||| y.toBitVec).toNat
  rw [BitVec.toNat_or]
  exact Nat.le_of_testBit fun i h => by simp [h]

theorem tolowerByte_or {x k : UInt8} (hk : 128 ≤ k.toNat) : tolowerByte (x ||| k) = x ||| k :=
  tolowerByte_of_le (hk.trans (le_toNat_or x k))

theorem utf8EncodeChar_of_lt {c : Char} (hc : c.toNat < 128) :
    String.utf8EncodeChar c = [c.val.toUInt8] :=
  if_pos (show c.toNat ≤ 127 by omega)

theorem toNat_toUInt8_of_lt {c : Char} (hc : c.toNat < 128) : c.val.toUInt8.toNat = c.toNat :=
  UInt8.toNat_ofNat_of_lt (show c.toNat < 256 by omega)

/-- An ASCII character is one byte, and both lower-casings add 32 to the
letters `A` to `Z` alone. -/
theorem map_tolowerByte_utf8EncodeChar_ascii (c : Char) (hc : c.toNat < 128) :
    (String.utf8EncodeChar c).map tolowerByte = String.utf8EncodeChar c.toLower := by
  rw [utf8EncodeChar_of_lt hc, List.map_singleton, tolowerByte, toNat_toUInt8_of_lt hc]
  unfold Char.toLower
  dsimp only
  split_ifs with hup
  · have hof : (Char.ofNat (c.toNat + 32)).toNat = c.toNat + 32 := by
      unfold Char.ofNat
      rw [dif_pos (Or.inl (by omega))]
      rfl
    have hlow : (Char.ofNat (c.toNat + 32)).toNat < 128 := by omega
    rw [utf8EncodeChar_of_lt hlow, List.singleton_inj]
    apply UInt8.toNat.inj
    rw [toNat_toUInt8_of_lt hlow, hof, UInt8.add_def]
    show (c.val.toUInt8.toNat + 32) % 256 = _
    rw [toNat_toUInt8_of_lt hc]
    omega
  · rw [utf8EncodeChar_of_lt hc]

theorem map_tolowerByte_utf8EncodeChar (c : Char) :
    (String.utf8EncodeChar c).map tolowerByte = String.utf8EncodeChar c.toLower := by
  by_cases hc : c.toNat < 128
  · exact map_tolowerByte_utf8EncodeChar_ascii c hc
  · have hlow : c.toLower = c := if_neg (by omega)
    have hval : ¬c.val ≤ 0x7f := fun h =>
      hc (Nat.lt_succ_of_le (UInt32.toNat_le_of_le (by decide) h))
    rw [hlow]
    unfold String.utf8EncodeChar
    simp only [hval, if_false]
    split_ifs <;> simp (disch := decide) only [List.map_cons, List.map_nil, tolowerByte_or]

theorem map_tolowerByte_cStringBytes (s : String) :
    (cStringBytes s).map tolowerByte = (s.data.map Char.toLower).flatMap String.utf8EncodeChar := by
  show (s.data.flatMap String.utf8EncodeChar).map tolowerByte = _
  rw [List.map_flatMap, List.flatMap_map]
  simp only [map_tolowerByte_utf8EncodeChar]

theorem toNat_tolowerByte (b : UInt8) :
    (tolowerByte b).toNat = if 65 ≤ b.toNat ∧ b.toNat ≤ 90 then b.toNat + 32 else b.toNat := by
  unfold tolowerByte
  split_ifs with h
  · show (b.toBitVec + 32#8).toNat = _
    rw [BitVec.toNat_add]
    have h32 : (32#8).toNat = 32 := rfl
    have hb : b.toBitVec.toNat = b.toNat := rfl
    omega
  · rfl

/-- Bytes that lower-case alike are `NUL` together. -/
theorem eq_zero_iff_of_tolowerByte_eq {b c : UInt8} (h : tolowerByte b = tolowerByte c) :
    b = 0 ↔ c = 0 := by
  have hn := congrArg UInt8.toNat h
  rw [toNat_tolowerByte, toNat_tolowerByte] at hn
  constructor <;> rintro rfl <;> apply UInt8.toNat.inj <;> simp only [UInt8.toNat_zero] at hn ⊢ <;>
    split_ifs at hn <;> omega

theorem hashFace_congr {l₁ l₂ : List UInt8} (h : l₁.map tolowerByte = l₂.map tolowerByte)
    (n : ℕ) (acc : UInt32) : hashFace n l₁ acc = hashFace n l₂ acc := by
  induction l₁ generalizing l₂ n acc with
  | nil => cases l₂ <;> simp_all
  | cons b₁ r₁ ih =>
      cases l₂ with
      | nil => simp at h
      | cons b₂ r₂ =>
          simp only [List.map_cons, List.cons.injEq] at h
          cases n with
          | zero => rfl
          | succ n =>
              simp only [hashFace, eq_zero_iff_of_tolowerByte_eq h.1, h.1, ih h.2]

/-! ### Equal keys hash alike; a clone equals its source -/

theorem fcKeyHash_eq_of_fcKeyEq {a b : FontKey} (h : fcKeyEq a b = true) :
    fcKeyHash a = fcKeyHash b := by
  obtain ⟨family, size, weight, flags, face⟩ := a
  obtain ⟨family', size', weight', flags', face'⟩ := b
  simp only [fcKeyEq, Bool.and_eq_true, decide_eq_true_eq] at h
  obtain ⟨⟨⟨⟨rfl, rfl⟩, rfl⟩, rfl⟩, hface⟩ := h
  unfold fcKeyHash
  rcases face with _ | x <;> rcases face' with _ | y <;> simp only at hface ⊢
  · cases hface
  · cases hface
  · apply hashFace_congr
    simp only [Html.strcaseEq, decide_eq_true_eq] at hface
    rw [map_tolowerByte_cStringBytes, map_tolowerByte_cStringBytes, hface]

theorem fcKeyEq_self (k : FontKey) : fcKeyEq k k = true := by
  obtain ⟨family, size, weight, flags, _ | face⟩ := k <;> simp [fcKeyEq, Html.strcaseEq]

/-- `fc_key_clone` copies every field: a clone is its source. -/
theorem eq_of_fcKeyClone {mallocOk strdupOk : Bool} {a k : FontKey}
    (h : fcKeyClone mallocOk strdupOk a = some k) : k = a := by
  obtain ⟨family, size, weight, flags, _ | face⟩ := a <;> unfold fcKeyClone at h <;>
    dsimp only at h <;> split_ifs at h <;> cases h <;> rfl

theorem ByteKey.hash_eq_of_eq {a b : ByteKey} (h : a.eq b = true) (acc : UInt32) :
    a.hash acc = b.hash acc := by
  obtain ⟨len, str⟩ := a
  obtain ⟨len', str'⟩ := b
  simp only [ByteKey.eq, Bool.and_eq_true, Bool.or_eq_true, decide_eq_true_eq] at h
  obtain ⟨rfl, h⟩ := h
  unfold ByteKey.hash
  rcases Nat.eq_zero_or_pos len with rfl | hlen
  · rcases str with _ | str <;> rcases str' with _ | str' <;> simp
  · simp only [Nat.pos_iff_ne_zero.mp hlen, false_or] at h
    rcases str with _ | str <;> rcases str' with _ | str' <;> simp_all

theorem ByteKey.eq_of_clone {strMallocOk : Bool} {a k : ByteKey}
    (h : a.clone strMallocOk = some k) : k.eq a = true := by
  obtain ⟨len, _ | str⟩ := a <;> unfold ByteKey.clone at h <;> dsimp only at h <;>
    split_ifs at h with hlen <;> cases h
  · simp [ByteKey.eq, Nat.eq_zero_of_not_pos hlen]
  · simp [ByteKey.eq]
  · simp [ByteKey.eq, Nat.eq_zero_of_not_pos hlen]

theorem scKeyHash_eq_of_scKeyEq {a b : SplitKeyC} (h : scKeyEq a b = true) :
    scKeyHash a = scKeyHash b := by
  obtain ⟨family, size, weight, flags, x, bytes⟩ := a
  obtain ⟨family', size', weight', flags', x', bytes'⟩ := b
  simp only [scKeyEq, Bool.and_eq_true, decide_eq_true_eq] at h
  obtain ⟨⟨⟨⟨⟨rfl, rfl⟩, rfl⟩, rfl⟩, rfl⟩, hbytes⟩ := h
  exact ByteKey.hash_eq_of_eq hbytes _

theorem scKeyEq_of_scKeyClone {mallocOk strMallocOk : Bool} {a k : SplitKeyC}
    (h : scKeyClone mallocOk strMallocOk a = some k) : scKeyEq k a = true := by
  unfold scKeyClone at h
  split_ifs at h
  obtain ⟨bytes, hclone, rfl⟩ := Option.map_eq_some'.1 h
  simp [scKeyEq, ByteKey.eq_of_clone hclone]

/-- Two whole byte strings compare equal exactly when they are equal. -/
theorem ByteKey.eq_length_iff {s t : List UInt8} :
    ByteKey.eq ⟨s.length, some s⟩ ⟨t.length, some t⟩ = true ↔ s = t := by
  simp only [ByteKey.eq, Bool.and_eq_true, Bool.or_eq_true, decide_eq_true_eq]
  constructor
  · rintro ⟨hl, h0 | h⟩
    · rw [List.eq_nil_of_length_eq_zero h0, List.eq_nil_of_length_eq_zero (show t.length = 0 by omega)]
    · rwa [List.take_length, hl, List.take_length] at h
  · rintro rfl
    simp

/-- On the keys `splitKey` makes from a string of at least `len` bytes,
`sc_key_eq` is the equality of the model keys: the list model of the split
cache finds what the C hashmap finds. -/
theorem scKeyEq_toC_iff {a b : SplitKey} (ha : a.str.length = a.len) (hb : b.str.length = b.len) :
    scKeyEq a.toC b.toC = true ↔ a = b := by
  obtain ⟨family, size, weight, flags, x, len, str⟩ := a
  obtain ⟨family', size', weight', flags', x', len', str'⟩ := b
  dsimp only at ha hb
  subst ha hb
  simp only [scKeyEq, SplitKey.toC, Bool.and_eq_true, decide_eq_true_eq, ByteKey.eq_length_iff,
    SplitKey.mk.injEq]
  constructor
  · rintro ⟨⟨⟨⟨⟨rfl, rfl⟩, rfl⟩, rfl⟩, rfl⟩, rfl⟩
    simp
  · rintro ⟨rfl, rfl, rfl, rfl, rfl, -, rfl⟩
    simp

/-- The three key types of the text caches hash consistently with their
equality, and each successful clone equals its source, for every key and
every outcome of the allocations. -/
theorem cacheKeys_hash_consistent :
    (∀ a b : FontKey, fcKeyEq a b = true → fcKeyHash a = fcKeyHash b) ∧
    (∀ (mallocOk strdupOk : Bool) (a k : FontKey),
      fcKeyClone mallocOk strdupOk a = some k → fcKeyEq k a = true) ∧
    (∀ a b : SplitKeyC, scKeyEq a b = true → scKeyHash a = scKeyHash b) ∧
    (∀ (mallocOk strMallocOk : Bool) (a k : SplitKeyC),
      scKeyClone mallocOk strMallocOk a = some k → scKeyEq k a = true) ∧
    (∀ a b : ByteKey, wcKeyEq a b = true → wcKeyHash a = wcKeyHash b) ∧
    (∀ (mallocOk strMallocOk : Bool) (a k : ByteKey),
      wcKeyClone mallocOk strMallocOk a = some k → wcKeyEq k a = true) := by
  refine ⟨fun _ _ => fcKeyHash_eq_of_fcKeyEq, fun _ _ a _ h => ?_, fun _ _ => scKeyHash_eq_of_scKeyEq,
    fun _ _ _ _ => scKeyEq_of_scKeyClone, fun _ _ h => ByteKey.hash_eq_of_eq h _, fun _ _ _ _ h => ?_⟩
  · rw [eq_of_fcKeyClone h]
    exact fcKeyEq_self a
  · unfold wcKeyClone at h
    split_ifs at h
    exact ByteKey.eq_of_clone h

end Windows
end Neosurf
