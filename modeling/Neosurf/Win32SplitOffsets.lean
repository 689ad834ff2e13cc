import Neosurf.Win32TextOffsets
import Neosurf.Win32WebFonts

/-!
# Where a split may fall

`win32_font_split` takes its offset from `win32_font_position` and the space scans on a miss,
and from an entry measured for the same first `length` bytes on a hit.  So a property of an
offset that reads only those bytes, and holds of `0`, of every answer of
`utf8_bounded_byte_length` and of where the scans land, holds of every offset from every
reachable state (`SplitOffsetInv`): within the length, and on a UTF-8 character boundary.
-/

namespace Neosurf
namespace Windows

/-! ### A property of split offsets that every split keeps -/

/-- What a property `Q bytes length offset` of a split answer needs for every split to
keep it: it reads the first `length` bytes only, holds at `0`, holds of every count of
`utf8_bounded_byte_length`, and is kept by the scans for a space. -/
structure SplitOffsetInv (p : Win32Platform) (Q : List UInt8 → ℕ → ℕ → Prop) : Prop where
  take : ∀ bytes length offset, Q (bytes.take length) length offset ↔ Q bytes length offset
  zero : ∀ bytes length, Q bytes length 0
  bounded : ∀ bytes length fit, Q bytes length (p.utf8BoundedByteLength bytes length fit)
  scan : ∀ bytes length offset, Q bytes length offset → Q bytes length (splitOffset bytes length offset)

/-- Every entry of the split cache satisfies `Q` for the bytes and length of its key. -/
def SplitEntries (Q : List UInt8 → ℕ → ℕ → Prop) (caches : TextCaches) : Prop :=
  AllEntries (fun (key : SplitKey) (value : SplitValue) => Q key.str key.len value.offset)
    (caches.splitCache.getD [])

section Entries

variable {Q : List UInt8 → ℕ → ℕ → Prop} {caches caches' : TextCaches}

theorem splitEntries_initial : SplitEntries Q .initial :=
  AllEntries.nil

theorem SplitEntries.of_sameSplit (hs : SplitEntries Q caches) (h : SameSplit caches caches') :
    SplitEntries Q caches' := by
  unfold SplitEntries
  rw [h.1]
  exact hs

theorem SplitEntries.flush : SplitEntries Q (win32FontCachesFlush caches) :=
  AllEntries.nil

end Entries

/-- The measuring calls of the uncached branch leave the split cache alone. -/
theorem sameSplit_win32FontSplitUncached (p : Win32Platform) (style : PlotFontStyle)
    (bytes : List UInt8) (length : ℕ) (x : Int) (caches : TextCaches) :
    SameSplit caches (win32FontSplitUncached p style bytes length x caches).2 :=
  splitUncached_inv (SameSplit caches)
    (fun s h => h.trans ((sameSplit_measure p style bytes length s).2 x))
    (fun offset s h => h.trans (sameSplit_measure p style bytes offset s).1) bytes length ⟨rfl, rfl⟩

/-- The uncached branch answers an offset satisfying `P` when the position it asks for
does and the scans keep `P`. -/
theorem splitUncached_offset {σ : Type} {position : σ → Except NsError (ℕ × Int) × σ}
    {width : ℕ → σ → Except NsError Int × σ} {bytes : List UInt8} {length : ℕ} {P : ℕ → Prop}
    (hpos : ∀ s cOff actualX, (position s).1 = .ok (cOff, actualX) → P cOff)
    (hscan : ∀ cOff, P cOff → P (splitOffset bytes length cOff)) (s : σ) :
    ∀ offset ∈ (splitUncached position width bytes length s).1.offset, P offset := by
  intro offset hoff
  have hp := hpos s
  unfold splitUncached at hoff
  rcases hpos' : position s with ⟨_ | ⟨cOff, actualX⟩, s1⟩ <;> rw [hpos'] at hoff hp
  · cases hoff
  · dsimp only at hoff
    split_ifs at hoff with hlen
    · cases hoff
      exact hp _ _ rfl
    · rcases hw : width (splitOffset bytes length cOff) s1 with ⟨_ | _, _⟩ <;> rw [hw] at hoff <;>
        cases hoff <;> exact hscan _ (hp _ _ rfl)

theorem positionOf_offset {p : Win32Platform} {font : Hfont} {bytes : List UInt8} {len : ℕ} {x : Int}
    {wide : Except NsError (List UInt16)} {cOff : ℕ} {actualX : Int}
    (h : positionOf p font bytes len x wide = .ok (cOff, actualX)) :
    ∃ fit, cOff = p.utf8BoundedByteLength bytes len fit := by
  unfold positionOf at h
  split at h
  · cases h
  · split at h
    · split at h
      · cases h
        exact ⟨_, rfl⟩
      · cases h
    · cases h

/-- `win32_font_position` answers `0` or a count of `utf8_bounded_byte_length` on the
first `len` bytes. -/
theorem win32FontPosition_offset (p : Win32Platform) {style : PlotFontStyle} {bytes : List UInt8}
    {len : ℕ} {x : Int} {caches : TextCaches} {cOff : ℕ} {actualX : Int}
    (h : (win32FontPosition p style bytes len x caches).1 = .ok (cOff, actualX)) :
    cOff = 0 ∨ ∃ fit, cOff = p.utf8BoundedByteLength (bytes.take len) len fit := by
  unfold win32FontPosition at h
  split_ifs at h
  · cases h
    exact .inl rfl
  · exact .inr (positionOf_offset h)

section Calls

variable {p : Win32Platform} {Q : List UInt8 → ℕ → ℕ → Prop} (hQ : SplitOffsetInv p Q)
  {caches : TextCaches}
include hQ

/-- On a miss, the offset comes from `win32_font_position` or the scans. -/
theorem SplitOffsetInv.win32FontSplitUncached (style : PlotFontStyle) (bytes : List UInt8)
    (length : ℕ) (x : Int) (caches : TextCaches) :
    ∀ offset ∈ (win32FontSplitUncached p style bytes length x caches).1.offset, Q bytes length offset :=
  splitUncached_offset (fun _ _ _ h => by
      rcases win32FontPosition_offset p h with rfl | ⟨fit, rfl⟩
      exacts [hQ.zero bytes length, (hQ.take bytes length _).1 (hQ.bounded _ length fit)])
    (hQ.scan bytes length) caches

/-- A split answers an offset satisfying `Q`, and keeps `Q` of every cached entry. -/
theorem SplitEntries.win32FontSplit (hs : SplitEntries Q caches) (style : PlotFontStyle)
    (bytes : List UInt8) (length : ℕ) (x : Int) :
    (∀ offset ∈ (win32FontSplit p style bytes length x caches).1.offset, Q bytes length offset) ∧
      SplitEntries Q (win32FontSplit p style bytes length x caches).2 := by
  have huncached := hQ.win32FontSplitUncached style bytes length x
    { caches with splitCache := some (caches.splitCache.getD []) }
  have hcache0 : SplitEntries Q { caches with splitCache := some (caches.splitCache.getD []) } := hs
  have hframe := sameSplit_win32FontSplitUncached p style bytes length x
    { caches with splitCache := some (caches.splitCache.getD []) }
  rcases win32FontSplit_cases p style bytes length x caches with
    ⟨value, hv, hsplit⟩ | ⟨-, offset, actualX, caches1, hu, hsplit⟩ | ⟨-, -, hsplit⟩ <;> rw [hsplit]
  · obtain ⟨key, hkey, hq⟩ := hs.lookup hv
    rw [beq_iff_eq] at hkey
    subst hkey
    refine ⟨fun offset hoff => ?_, ?_⟩
    · cases hoff
      exact (hQ.take bytes length _).1 hq
    · dsimp only [SplitEntries, Option.getD_some]
      exact hs.update _ fun _ _ h => by exact h
  · rw [hu] at huncached hframe
    have hoffset : Q bytes length offset := huncached offset rfl
    refine ⟨fun o hoff => by cases hoff; exact hoffset, ?_⟩
    exact ((hcache0.of_sameSplit hframe).insert (show Q (splitKey style bytes length x).str
      (splitKey style bytes length x).len (⟨offset, actualX, caches1.splitGen + 1⟩ : SplitValue).offset
      from (hQ.take bytes length offset).2 hoffset)).evictIfNeeded _ _
  · exact ⟨huncached, hcache0.of_sameSplit hframe⟩

/-- Every text call keeps `Q` of every cached entry. -/
theorem SplitEntries.step (hs : SplitEntries Q caches) (call : TextCall) :
    SplitEntries Q (call.step p caches) := by
  cases call with
  | width style bytes len => exact hs.of_sameSplit (sameSplit_measure p style bytes len caches).1
  | position style bytes len x =>
      exact hs.of_sameSplit ((sameSplit_measure p style bytes len caches).2 x)
  | split style bytes length x => exact (hs.win32FontSplit hQ style bytes length x).2
  | loadData familyName data =>
      show SplitEntries Q (htmlFontFaceLoadData p familyName data caches).2
      unfold htmlFontFaceLoadData
      split
      · split_ifs
        exacts [hs, SplitEntries.flush, hs]
      · exact hs

end Calls

/-! ### Every reachable state -/

section Runs

variable {p : Win32Platform} {fileFamilies : List UInt8 → List String}
  {Q : List UInt8 → ℕ → ℕ → Prop} (hQ : SplitOffsetInv p Q)
include hQ

/-- Adding fonts to the process leaves `utf8_bounded_byte_length` as it is. -/
theorem SplitOffsetInv.withFonts (resources : List (List UInt8)) :
    SplitOffsetInv (p.withFonts fileFamilies resources) Q :=
  ⟨hQ.take, hQ.zero, hQ.bounded, hQ.scan⟩

theorem Win32Fonts.splitEntries_step {st : Win32Fonts} (hs : SplitEntries Q st.caches)
    (event : FontsEvent) : SplitEntries Q (st.step p fileFamilies event).caches := by
  rcases Win32Fonts.step_cases p fileFamilies st event with ⟨hc, -⟩ | ⟨_, hc, -⟩ | ⟨call, hc, -, -⟩ <;>
    rw [hc]
  · exact hs
  · exact SplitEntries.flush
  · exact hs.step (hQ.withFonts st.resources) call

theorem Win32Fonts.splitEntries_run (events : List FontsEvent) {st : Win32Fonts}
    (hs : SplitEntries Q st.caches) : SplitEntries Q (win32FontsRun p fileFamilies events st).caches := by
  induction events generalizing st with
  | nil => exact hs
  | cons event events ih => exact ih (Win32Fonts.splitEntries_step hQ hs event)

/-- From every state any run reaches, every offset a split answers satisfies `Q`. -/
theorem win32FontsRun_split_offset (events : List FontsEvent) (style : PlotFontStyle)
    (bytes : List UInt8) (length : ℕ) (x : Int) :
    ∀ offset ∈ (win32FontSplit ((win32FontsRun p fileFamilies events .initial).platform p fileFamilies)
        style bytes length x (win32FontsRun p fileFamilies events .initial).caches).1.offset,
      Q bytes length offset :=
  ((Win32Fonts.splitEntries_run hQ events
    (show SplitEntries Q Win32Fonts.initial.caches from splitEntries_initial)).win32FontSplit
    (hQ.withFonts _) style bytes length x).1

end Runs

/-! ### Within the length -/

section Bounded

variable {p : Win32Platform} {fileFamilies : List UInt8 → List String}
  (hbound : ∀ str len fit, p.utf8BoundedByteLength str len fit ≤ len)
include hbound

theorem splitOffsetInv_le : SplitOffsetInv p fun _ length offset => offset ≤ length :=
  ⟨fun _ _ _ => Iff.rfl, fun _ length => Nat.zero_le length, hbound,
    fun bytes _ _ h => splitOffset_le bytes h⟩

/-- On a platform whose `utf8_bounded_byte_length` answers within the length it is
given, from every state any interleaving of `@font-face` processing, download
completions and layout calls reaches, `win32_font_split` answers an offset within
the length it is asked about: for every style, whether it lists font families or
not, on a hit as on a miss. -/
theorem win32FontsRun_split_offset_le (events : List FontsEvent) (style : PlotFontStyle)
    (bytes : List UInt8) (length : ℕ) (x : Int) :
    ∀ offset ∈ (win32FontSplit ((win32FontsRun p fileFamilies events .initial).platform p fileFamilies)
        style bytes length x (win32FontsRun p fileFamilies events .initial).caches).1.offset,
      offset ≤ length :=
  win32FontsRun_split_offset (splitOffsetInv_le hbound) events style bytes length x

end Bounded

/-- After `Inter` is loaded and `ab cd` is split in a sans-serif style, a split of
the same bytes in a style naming `Inter` answers from that entry, within the
length. -/
theorem win32FontsRun_split_offset_le_interLoadEvents :
    (∀ str len fit, interPlatform.utf8BoundedByteLength str len fit ≤ len) ∧
      (win32FontSplit ((win32FontsRun interPlatform (fun _ => ["Inter"]) interLoadEvents .initial).platform
        interPlatform (fun _ => ["Inter"])) interStyle abSpaceCd 5 40
        (win32FontsRun interPlatform (fun _ => ["Inter"]) interLoadEvents .initial).caches).1.offset =
        some 5 ∧
      5 ≤ 5 :=
  have hbound : ∀ str len fit, interPlatform.utf8BoundedByteLength str len fit ≤ len :=
    fun _ len _ => Nat.min_le_left len _
  have hsplit : (win32FontSplit ((win32FontsRun interPlatform (fun _ => ["Inter"]) interLoadEvents
      .initial).platform interPlatform (fun _ => ["Inter"])) interStyle abSpaceCd 5 40
      (win32FontsRun interPlatform (fun _ => ["Inter"]) interLoadEvents .initial).caches).1.offset =
      some 5 := by decide
  ⟨hbound, hsplit, win32FontsRun_split_offset_le hbound interLoadEvents interStyle abSpaceCd 5 40 5 hsplit⟩

/-! ### On a character boundary -/

/-- `offset` does not fall inside a UTF-8 sequence of the first `length` bytes: it is
the start, the end, or the index of a byte that is not a continuation byte. -/
def Utf8Boundary (bytes : List UInt8) (length offset : ℕ) : Prop :=
  offset = 0 ∨ offset = length ∨ isContinuation (bytes.getD offset 0) = false

/-- The continuation loop of `utf8_next` stops at the end or on a byte that starts a
sequence. -/
theorem skipContinuation_stop {s : List UInt8} {l : ℕ} :
    ∀ fuel o, o ≤ l → l - o ≤ fuel →
      skipContinuation s l fuel o = l ∨ isContinuation (s.getD (skipContinuation s l fuel o) 0) = false
  | 0, o, hol, hfuel => .inl (show o = l by omega)
  | fuel + 1, o, hol, hfuel => by
      unfold skipContinuation
      split_ifs with hgo
      · exact skipContinuation_stop fuel (o + 1) hgo.1 (by omega)
      · rcases Nat.lt_or_eq_of_le hol with hlt | heq
        · exact .inr (Bool.eq_false_iff.2 fun hc => hgo ⟨hlt, hc⟩)
        · exact .inl heq

/-- `utf8_bounded_byte_length` counts whole sequences: its answer is a boundary. -/
theorem utf8BoundedByteLength_boundary (s : List UInt8) (l c : ℕ) :
    Utf8Boundary s l (utf8BoundedByteLength s l c) := by
  suffices h : ∀ c len, len ≤ l → Utf8Boundary s l len → Utf8Boundary s l (boundedByteLength s l c len)
    from h c 0 (Nat.zero_le l) (.inl rfl)
  intro c
  induction c with
  | zero => exact fun _ _ h => h
  | succ c ih =>
      intro len hle h
      unfold boundedByteLength
      split_ifs with hlt
      · have hnext : utf8Next s l len = skipContinuation s l l (len + 1) := by
          rw [utf8Next, if_pos hlt]
        exact ih _ (hnext ▸ skipContinuation_le _ _ hlt)
          (.inr (hnext ▸ skipContinuation_stop l (len + 1) hlt (by omega)))
      · exact h

theorem isContinuation_space : isContinuation 32 = false := by decide

/-- A split point is a space, or the end. -/
theorem SplitPoint.utf8Boundary {bytes : List UInt8} {n p o : ℕ} (h : SplitPoint bytes n p o) :
    Utf8Boundary bytes n o := by
  rcases h with ⟨-, -, hspace, -⟩ | ⟨-, -, hle, hspace, -⟩
  · exact .inr (.inr (by rw [hspace]; exact isContinuation_space))
  · rcases Nat.lt_or_eq_of_le hle with hlt | heq
    · exact .inr (.inr (by rw [hspace hlt]; exact isContinuation_space))
    · exact .inr (.inl heq)

section Boundary

variable {p : Win32Platform} {fileFamilies : List UInt8 → List String}
  (hp : p.utf8BoundedByteLength = utf8BoundedByteLength)
include hp

theorem splitOffsetInv_utf8Boundary :
    SplitOffsetInv p fun bytes length offset => offset ≤ length ∧ Utf8Boundary bytes length offset where
  take bytes length offset := by
    refine and_congr_right fun hle => ?_
    rcases Nat.lt_or_eq_of_le hle with hlt | rfl
    · simp only [Utf8Boundary, getD_take hlt]
    · exact ⟨fun _ => .inr (.inl rfl), fun _ => .inr (.inl rfl)⟩
  zero _ length := ⟨Nat.zero_le length, .inl rfl⟩
  bounded bytes length fit := by
    rw [hp]
    exact ⟨utf8BoundedByteLength_le bytes length fit, utf8BoundedByteLength_boundary bytes length fit⟩
  scan bytes _ _ h := ⟨splitOffset_le bytes h.1, (splitOffset_splitPoint bytes h.1).utf8Boundary⟩

/-- With `utf8_bounded_byte_length` as `neosurf/utils/utf8.h` has it, from every state
any interleaving of `@font-face` processing, download completions and layout calls
reaches, `win32_font_split` never answers an offset inside a UTF-8 sequence: the offset
is within the length and is `0`, the length, or the index of a byte that starts a
sequence, for every style and every byte string, on a hit as on a miss. -/
theorem win32FontsRun_split_utf8Boundary (events : List FontsEvent) (style : PlotFontStyle)
    (bytes : List UInt8) (length : ℕ) (x : Int) :
    ∀ offset ∈ (win32FontSplit ((win32FontsRun p fileFamilies events .initial).platform p fileFamilies)
        style bytes length x (win32FontsRun p fileFamilies events .initial).caches).1.offset,
      offset ≤ length ∧ Utf8Boundary bytes length offset :=
  win32FontsRun_split_offset (splitOffsetInv_utf8Boundary hp) events style bytes length x

end Boundary

/-- `😀 a` split in a 5-pixel budget after the same split was cached: one code unit
fits, `utf8_bounded_byte_length` counts one character, four bytes, and the split
falls on the space after it. -/
theorem win32FontsRun_split_utf8Boundary_smileySpaceA :
    utf16Platform.utf8BoundedByteLength = utf8BoundedByteLength ∧
      (win32FontSplit ((win32FontsRun utf16Platform (fun _ => [])
          [.split sansStyle (cStringBytes "😀 a") 6 5] .initial).platform utf16Platform (fun _ => []))
        sansStyle (cStringBytes "😀 a") 6 5 (win32FontsRun utf16Platform (fun _ => [])
          [.split sansStyle (cStringBytes "😀 a") 6 5] .initial).caches).1.offset = some 4 ∧
      4 ≤ 6 ∧ Utf8Boundary (cStringBytes "😀 a") 6 4 :=
  have hsplit : (win32FontSplit ((win32FontsRun utf16Platform (fun _ => [])
      [.split sansStyle (cStringBytes "😀 a") 6 5] .initial).platform utf16Platform (fun _ => []))
      sansStyle (cStringBytes "😀 a") 6 5 (win32FontsRun utf16Platform (fun _ => [])
        [.split sansStyle (cStringBytes "😀 a") 6 5] .initial).caches).1.offset = some 4 := by decide
  ⟨rfl, hsplit, win32FontsRun_split_utf8Boundary rfl _ sansStyle (cStringBytes "😀 a") 6 5 4 hsplit⟩

end Windows
end Neosurf
