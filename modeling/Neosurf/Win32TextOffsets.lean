import Mathlib.Data.List.GetD
import Neosurf.Win32CacheKeys

/-!
# The byte offsets of `win32_font_position` and `win32_font_split`

A split that misses its cache asks `win32_font_position` how many bytes fit, then scans to
a space; `SplitPoint` says where that lands without the loops, and a miss answers it
(`win32FontSplit_miss_splitPoint`).  `win32_font_position` turns the UTF-16 units that fit
into bytes with `utf8_bounded_byte_length`, which counts code points: the two agree in the
Basic Multilingual Plane (`positionOf_offset_of_bmp`) and not past it.
-/

namespace Neosurf
namespace Windows

/-! ### `utf8_bounded_byte_length` -/

/-- `(b & 0xC0) == 0x80`: a UTF-8 continuation byte. -/
def isContinuation (b : UInt8) : Bool :=
  b &&& 0xC0 == 0x80

/-- Modelled from the spec: the loop of `utf8_next` (`neosurf/utils/utf8.h`,
not under `src/`), `while (o < l && (s[o] & 0xC0) == 0x80) o++`, at most
`fuel` steps. -/
def skipContinuation (s : List UInt8) (l : ℕ) : ℕ → ℕ → ℕ
  | 0, o => o
  | fuel + 1, o =>
      if o < l ∧ isContinuation (s.getD o 0) then skipContinuation s l fuel (o + 1) else o

/-- Modelled from the spec: `utf8_next`, past the byte at `o` and the
continuation bytes after it. -/
def utf8Next (s : List UInt8) (l o : ℕ) : ℕ :=
  skipContinuation s l l (if o < l then o + 1 else o)

/-- Modelled from the spec: the loop of `utf8_bounded_byte_length`,
`while (len < l && c-- > 0) len = utf8_next(s, l, len)`. -/
def boundedByteLength (s : List UInt8) (l : ℕ) : ℕ → ℕ → ℕ
  | 0, len => len
  | c + 1, len => if len < l then boundedByteLength s l c (utf8Next s l len) else len

/-- Modelled from the spec: `utf8_bounded_byte_length(s, l, c)`, the bytes
of the first `c` characters of the `l` bytes at `s`. -/
def utf8BoundedByteLength (s : List UInt8) (l c : ℕ) : ℕ :=
  boundedByteLength s l c 0

/-- The byte length of the longest prefix of the characters whose UTF-16 form
has at most `k` code units. -/
def utf16PrefixByteLength : List Char → ℕ → ℕ
  | [], _ => 0
  | ch :: rest, k =>
      if ch.utf16Size.toNat ≤ k then ch.utf8Size + utf16PrefixByteLength rest (k - ch.utf16Size.toNat)
      else 0

theorem skipContinuation_le {s : List UInt8} {l : ℕ} :
    ∀ fuel o, o ≤ l → skipContinuation s l fuel o ≤ l
  | 0, _, h => h
  | fuel + 1, o, h => by
      unfold skipContinuation
      split_ifs with hgo
      exacts [skipContinuation_le fuel (o + 1) hgo.1, h]

theorem utf8BoundedByteLength_le (s : List UInt8) (l c : ℕ) : utf8BoundedByteLength s l c ≤ l := by
  suffices h : ∀ c len, len ≤ l → boundedByteLength s l c len ≤ l from h c 0 (Nat.zero_le l)
  intro c
  induction c with
  | zero => exact fun _ h => h
  | succ c ih =>
      intro len h
      unfold boundedByteLength utf8Next
      split_ifs with hlt
      · exact ih _ (skipContinuation_le _ _ (by omega))
      · exact h

/-! ### Counting characters in well-formed UTF-8 -/

/-- UTF-8 decoding of well-formed bytes, one sequence per lead byte. -/
def decodeUtf8 : List UInt8 → List Char
  | [] => []
  | b :: rest =>
      if b.toNat < 0x80 then Char.ofNat b.toNat :: decodeUtf8 rest
      else
        match rest with
        | b1 :: rest1 =>
            if b.toNat < 0xE0 then Char.ofNat (b.toNat % 32 * 64 + b1.toNat % 64) :: decodeUtf8 rest1
            else
              match rest1 with
              | b2 :: rest2 =>
                  if b.toNat < 0xF0 then
                    Char.ofNat (b.toNat % 16 * 4096 + b1.toNat % 64 * 64 + b2.toNat % 64) ::
                      decodeUtf8 rest2
                  else
                    match rest2 with
                    | b3 :: rest3 =>
                        Char.ofNat (b.toNat % 8 * 262144 + b1.toNat % 64 * 4096 + b2.toNat % 64 * 64 +
                          b3.toNat % 64) :: decodeUtf8 rest3
                    | [] => []
              | [] => []
        | [] => []

/-- The UTF-16 code units of a character: one below `0x10000`, else a
surrogate pair. -/
def utf16EncodeChar (ch : Char) : List UInt16 :=
  if ch.toNat < 0x10000 then [ch.toNat.toUInt16]
  else [(0xD800 + (ch.toNat - 0x10000) / 1024).toUInt16, (0xDC00 + (ch.toNat - 0x10000) % 1024).toUInt16]

/-- A platform whose `MultiByteToWideChar` converts UTF-8 to UTF-16, whose
fonts draw every code unit 5 wide, and whose `utf8_bounded_byte_length` is the
helper above. -/
def utf16Platform : Win32Platform where
  familyExists _ := false
  createFont _ := true
  multiByteToWideChar bytes := (decodeUtf8 bytes).flatMap utf16EncodeChar
  textExtentExPoint _ wide x := some (min wide.length (x / 5).toNat)
  textExtentPoint32 _ wide := some (5 * wide.length)
  addFontMemResourceEx _ := true
  utf8BoundedByteLength := utf8BoundedByteLength
  fontSans := some "Arial"
  fontSerif := none
  fontMono := none
  fontCursive := none
  fontFantasy := none

/-- The bytes of `😀a`: a four-byte character of two code units, then `a`. -/
def smileyA : List UInt8 := cStringBytes "😀a"

/-- In a 10-pixel budget the two code units of `😀` fit, and
`win32_font_position` answers all five bytes, `a` included, with the width 10
of `😀` alone, while the five bytes measure 15; the longest prefix of at most
two code units has four bytes. -/
theorem win32FontPosition_smileyA :
    utf16Platform.multiByteToWideChar smileyA = [0xD83D, 0xDE00, 0x61] ∧
    (win32FontPosition utf16Platform sansStyle smileyA smileyA.length 10 .initial).1 = .ok (5, 10) ∧
    (win32FontWidth utf16Platform sansStyle smileyA 5 .initial).1 = .ok 15 ∧
    utf16PrefixByteLength "😀a".data 2 = 4 :=
  ⟨rfl, rfl, rfl, rfl⟩

/-! ### Where a split should fall -/

section SplitPoint

variable (bytes : List UInt8)

/-- No byte at an index in `[1, p]` is a space. -/
def NoSpaceUpTo (p : ℕ) : Prop :=
  ∀ i, 0 < i → i ≤ p → bytes.getD i 0 ≠ 32

/-- `o` is the largest index in `[1, p]` holding a space. -/
def LastSpaceUpTo (p o : ℕ) : Prop :=
  0 < o ∧ o ≤ p ∧ bytes.getD o 0 = 32 ∧ ∀ i, o < i → i ≤ p → bytes.getD i 0 ≠ 32

/-- `o` is the smallest index from `p` on holding a space, or `n` when no
index in `[p, n)` does. -/
def FirstSpaceFrom (n p o : ℕ) : Prop :=
  p ≤ o ∧ o ≤ n ∧ (o < n → bytes.getD o 0 = 32) ∧ ∀ i, p ≤ i → i < o → bytes.getD i 0 ≠ 32

/-- Where a string of `n` bytes should be split when its first `p` bytes fit:
at the last space in `[1, p]`, or, with none, at the first space from `p` on,
or at the end. -/
def SplitPoint (n p o : ℕ) : Prop :=
  LastSpaceUpTo bytes p o ∨ (NoSpaceUpTo bytes p ∧ FirstSpaceFrom bytes n p o)

variable {bytes}

theorem LastSpaceUpTo.unique {p o o' : ℕ} (h : LastSpaceUpTo bytes p o)
    (h' : LastSpaceUpTo bytes p o') : o = o' := by
  by_contra hne
  rcases Nat.lt_or_gt_of_ne hne with hlt | hlt
  · exact h.2.2.2 o' hlt h'.2.1 h'.2.2.1
  · exact h'.2.2.2 o hlt h.2.1 h.2.2.1

theorem FirstSpaceFrom.unique {n p o o' : ℕ} (h : FirstSpaceFrom bytes n p o)
    (h' : FirstSpaceFrom bytes n p o') : o = o' := by
  by_contra hne
  rcases Nat.lt_or_gt_of_ne hne with hlt | hlt
  · exact h'.2.2.2 o h.1 hlt (h.2.2.1 (hlt.trans_le h'.2.1))
  · exact h.2.2.2 o' h'.1 hlt (h'.2.2.1 (hlt.trans_le h.2.1))

theorem LastSpaceUpTo.not_noSpaceUpTo {p o : ℕ} (h : LastSpaceUpTo bytes p o) :
    ¬NoSpaceUpTo bytes p :=
  fun hno => hno o h.1 h.2.1 h.2.2.1

/-- The split point is determined by the string, its length and `p`. -/
theorem SplitPoint.unique {n p o o' : ℕ} (h : SplitPoint bytes n p o)
    (h' : SplitPoint bytes n p o') : o = o' := by
  rcases h with h | ⟨hno, h⟩ <;> rcases h' with h' | ⟨hno', h'⟩
  · exact h.unique h'
  · exact absurd hno' h.not_noSpaceUpTo
  · exact absurd hno h'.not_noSpaceUpTo
  · exact h.unique h'

end SplitPoint

/-! ### The two loops -/

/-- The backward loop stops at the last space in `[1, p]`, or at 0 when
there is none. -/
theorem scanBackToSpace_spec (bytes : List UInt8) (p : ℕ) :
    (scanBackToSpace bytes p = 0 ∧ NoSpaceUpTo bytes p) ∨
      LastSpaceUpTo bytes p (scanBackToSpace bytes p) := by
  induction p with
  | zero => exact .inl ⟨rfl, fun i hi hip => by omega⟩
  | succ p ih =>
      by_cases hsp : bytes.getD (p + 1) 0 = 32
      · have hstop : scanBackToSpace bytes (p + 1) = p + 1 := if_pos hsp
        rw [hstop]
        exact .inr ⟨by omega, le_rfl, hsp, fun i hi hip => by omega⟩
      · have hstep : scanBackToSpace bytes (p + 1) = scanBackToSpace bytes p := if_neg hsp
        have hext : ∀ a, (∀ i, a < i → i ≤ p → bytes.getD i 0 ≠ 32) →
            ∀ i, a < i → i ≤ p + 1 → bytes.getD i 0 ≠ 32 := fun a h i hai hip => by
          rcases Nat.lt_or_eq_of_le hip with hip | rfl
          exacts [h i hai (by omega), hsp]
        rw [hstep]
        rcases ih with ⟨h0, hno⟩ | ⟨hpos, hle, hspace, hno⟩
        · exact .inl ⟨h0, hext 0 hno⟩
        · exact .inr ⟨hpos, by omega, hspace, hext _ hno⟩

/-- With fuel for every byte left, the forward loop stops at the first space
from `p` on, or at the end. -/
theorem scanForwardToSpace_spec (bytes : List UInt8) (n : ℕ) :
    ∀ fuel p, p ≤ n → n - p ≤ fuel → FirstSpaceFrom bytes n p (scanForwardToSpace bytes n fuel p)
  | 0, p, hp, hfuel =>
      show FirstSpaceFrom bytes n p p from ⟨le_rfl, hp, fun h => by omega, fun i hi hio => by omega⟩
  | fuel + 1, p, hp, hfuel => by
      unfold scanForwardToSpace
      split_ifs with hgo
      · obtain ⟨hle, hn, hspace, hno⟩ :=
          scanForwardToSpace_spec bytes n fuel (p + 1) (by omega) (by omega)
        refine ⟨by omega, hn, hspace, fun i hi hio => ?_⟩
        rcases Nat.lt_or_eq_of_le hi with hi | rfl
        exacts [hno i hi hio, hgo.2]
      · refine ⟨le_rfl, hp, fun h => ?_, fun i hi hio => by omega⟩
        by_contra hne
        exact hgo ⟨h, hne⟩

/-- `splitOffset` is the split point. -/
theorem splitOffset_splitPoint (bytes : List UInt8) {n p : ℕ} (hp : p ≤ n) :
    SplitPoint bytes n p (splitOffset bytes n p) := by
  unfold splitOffset
  rcases scanBackToSpace_spec bytes p with ⟨h0, hno⟩ | hlast
  · rw [if_pos h0]
    exact .inr ⟨hno, scanForwardToSpace_spec bytes n n p hp (Nat.sub_le n p)⟩
  · rw [if_neg (by have := hlast.1; omega)]
    exact .inl hlast

/-! ### The split on a cache miss -/

section Miss

variable {p : Win32Platform}

theorem le_of_win32FontPosition_eq_ok
    (hbound : ∀ str len fit, p.utf8BoundedByteLength str len fit ≤ len) {style : PlotFontStyle}
    {bytes : List UInt8} {len : ℕ} {x : Int} {caches : TextCaches} {cOff : ℕ} {actualX : Int}
    (h : (win32FontPosition p style bytes len x caches).1 = .ok (cOff, actualX)) : cOff ≤ len := by
  unfold win32FontPosition at h
  split_ifs at h
  · cases h
    exact Nat.zero_le _
  · exact le_of_positionOf_eq_ok hbound h

/-- On a split-cache miss where `win32_font_position` finds that `cOff` of the
`n` bytes fit, `win32_font_split` answers `n` and the position's width when
`cOff = n`, and otherwise the split point, with the width of the bytes before
it when that measurement succeeds. -/
theorem win32FontSplit_miss_splitPoint
    (hbound : ∀ str len fit, p.utf8BoundedByteLength str len fit ≤ len) {caches : TextCaches}
    {style : PlotFontStyle} {bytes : List UInt8} {x : Int} {cOff : ℕ} {actualX : Int}
    (hmiss : hashmapLookup (· == ·) (caches.splitCache.getD []) (splitKey style bytes bytes.length x) =
      none)
    (hpos : (win32FontPosition p style bytes bytes.length x
      { caches with splitCache := some (caches.splitCache.getD []) }).1 = .ok (cOff, actualX)) :
    (cOff = bytes.length →
      (win32FontSplit p style bytes bytes.length x caches).1 = ⟨.ok, some bytes.length, some actualX⟩) ∧
    (cOff ≠ bytes.length → ∃ o, SplitPoint bytes bytes.length cOff o ∧ o ≤ bytes.length ∧
      (win32FontSplit p style bytes bytes.length x caches).1 =
        match (win32FontWidth p style bytes o (win32FontPosition p style bytes bytes.length x
            { caches with splitCache := some (caches.splitCache.getD []) }).2).1 with
        | .ok w => ⟨.ok, some o, some w⟩
        | .error e => ⟨e, some o, some actualX⟩) := by
  have hle := le_of_win32FontPosition_eq_ok hbound hpos
  unfold win32FontSplit win32FontSplitUncached splitUncached
  dsimp only
  rw [hmiss]
  rcases hp : win32FontPosition p style bytes bytes.length x
    { caches with splitCache := some (caches.splitCache.getD []) } with ⟨r, caches1⟩
  rw [hp] at hpos
  subst hpos
  dsimp only
  refine ⟨fun hn => by rw [if_pos hn, hn], fun hn => ⟨_, splitOffset_splitPoint bytes hle,
    splitOffset_le bytes hle, ?_⟩⟩
  rw [if_neg hn]
  rcases win32FontWidth p style bytes (splitOffset bytes bytes.length cOff) caches1 with
    ⟨e | w, caches2⟩
  · cases e <;> rfl
  · rfl

/-- `ab cd` in a 15-pixel budget: three bytes fit, and the split falls on the
space at index 2. -/
theorem win32FontSplit_miss_splitPoint_abSpaceCd :
    (∀ str len fit, interPlatform.utf8BoundedByteLength str len fit ≤ len) ∧
    hashmapLookup (· == ·) (TextCaches.initial.splitCache.getD [])
      (splitKey sansStyle abSpaceCd abSpaceCd.length 15) = none ∧
    (win32FontPosition interPlatform sansStyle abSpaceCd abSpaceCd.length 15
      { TextCaches.initial with splitCache := some (TextCaches.initial.splitCache.getD []) }).1 =
        .ok (3, 15) ∧
    (3 = abSpaceCd.length →
      (win32FontSplit interPlatform sansStyle abSpaceCd abSpaceCd.length 15 .initial).1 =
        ⟨.ok, some abSpaceCd.length, some 15⟩) ∧
    (3 ≠ abSpaceCd.length → ∃ o, SplitPoint abSpaceCd abSpaceCd.length 3 o ∧ o ≤ abSpaceCd.length ∧
      (win32FontSplit interPlatform sansStyle abSpaceCd abSpaceCd.length 15 .initial).1 =
        match (win32FontWidth interPlatform sansStyle abSpaceCd o
          (win32FontPosition interPlatform sansStyle abSpaceCd abSpaceCd.length 15
            { TextCaches.initial with splitCache := some (TextCaches.initial.splitCache.getD []) }).2).1 with
        | .ok w => ⟨.ok, some o, some w⟩
        | .error e => ⟨e, some o, some 15⟩) :=
  have hbound : ∀ str len fit, interPlatform.utf8BoundedByteLength str len fit ≤ len :=
    fun _ len _ => Nat.min_le_left len _
  ⟨hbound, rfl, rfl, win32FontSplit_miss_splitPoint hbound rfl rfl⟩

end Miss

end Windows
end Neosurf
