import Neosurf.Win32SplitOffsets

/-!
# What the font and string caches answer

The font cache is never flushed, and its key leaves out the pitch-and-family argument and
the face's case; the string cache is keyed on the bytes.  So from every reachable state a
width or position measures exactly the bytes asked about in a font that fits the style's key
(`win32FontsRun_measure`), and a split answers a split measured in fonts that fit the key of
a style differing from the asking one at most in its family names (`win32FontsRun_split_sound`).
-/

namespace Neosurf
namespace Windows

open Html

/-- A font request fits a key: the key's size, weight and italic flag, and a face equal to
the key's up to case (`""` for none). -/
def RequestFits (key : FontKey) (request : FontRequest) : Prop :=
  request.size = key.size ∧ request.weight = key.weight ∧
    request.italic = decide (key.flags &&& fontfItalic ≠ 0) ∧
    strcaseEq request.face (key.face.getD "") = true

/-- A font fits a key on a platform: created from a request that fits the key and that
`CreateFont` accepts, or, where `CreateFont` fails on such a request, the stock font of the
key's generic family kind. -/
def FontMatches (p : Win32Platform) (key : FontKey) : Hfont → Prop
  | .created request => RequestFits key request ∧ p.createFont request = true
  | .ansiFixed => key.family = .monospace ∧ ∃ request, RequestFits key request ∧ p.createFont request = false
  | .ansiVar => key.family ≠ .monospace ∧ ∃ request, RequestFits key request ∧ p.createFont request = false

theorem strcaseEq_self (a : String) : strcaseEq a a = true :=
  decide_eq_true rfl

/-- `get_font` creates a font that fits the key `get_cached_font` files it under. -/
theorem getFont_matches (p : Win32Platform) (style : PlotFontStyle) :
    FontMatches p (fontKey p style) (getFont p style) := by
  unfold getFont fontKey
  rcases selectFaceName p style with ⟨_ | face, pitch⟩ <;> dsimp only <;> split_ifs with hc hm
  all_goals first
    | exact ⟨⟨rfl, rfl, rfl, strcaseEq_self _⟩, hc⟩
    | exact ⟨hm, _, ⟨rfl, rfl, rfl, strcaseEq_self _⟩, Bool.eq_false_iff.mpr hc⟩

/-- Keys equal up to the case of the face are fitted by the same fonts. -/
theorem FontMatches.of_fcKeyEq {p : Win32Platform} {key key' : FontKey} {font : Hfont}
    (h : fcKeyEq key key' = true) (hm : FontMatches p key font) : FontMatches p key' font := by
  obtain ⟨family, size, weight, flags, face⟩ := key
  obtain ⟨family', size', weight', flags', face'⟩ := key'
  simp only [fcKeyEq, Bool.and_eq_true, decide_eq_true_eq] at h
  obtain ⟨⟨⟨⟨rfl, rfl⟩, rfl⟩, rfl⟩, hface⟩ := h
  have hfaces : strcaseEq (face.getD "") (face'.getD "") = true := by
    rcases face with _ | x <;> rcases face' with _ | y
    exacts [strcaseEq_self _, absurd hface Bool.false_ne_true, absurd hface Bool.false_ne_true, hface]
  have hfits : ∀ request, RequestFits ⟨family, size, weight, flags, face⟩ request →
      RequestFits ⟨family, size, weight, flags, face'⟩ request :=
    fun _ hr => ⟨hr.1, hr.2.1, hr.2.2.1, strcaseEq_trans hr.2.2.2 hfaces⟩
  cases font with
  | created request => exact ⟨hfits request hm.1, hm.2⟩
  | ansiFixed | ansiVar =>
      obtain ⟨hfamily, request, hr, hc⟩ := hm
      exact ⟨hfamily, request, hfits request hr, hc⟩

/-- Every entry of the font cache holds a font that fits its key. -/
def FontCacheMatches (p : Win32Platform) (caches : TextCaches) : Prop :=
  AllEntries (fun (key : FontKey) (value : FontValue) => FontMatches p key value.font)
    (caches.fontCache.getD [])

theorem fontCacheMatches_initial {p : Win32Platform} : FontCacheMatches p .initial :=
  AllEntries.nil

theorem FontCacheMatches.of_sameFontSplit {p : Win32Platform} {caches caches' : TextCaches} (hs : FontCacheMatches p caches)
    (h : SameFontSplit caches caches') : FontCacheMatches p caches' := by
  unfold FontCacheMatches
  rw [h.1]
  exact hs

section Calls

variable (p : Win32Platform) {caches : TextCaches}

/-- `get_cached_font` answers a font that fits the style's key, from the cache or from
`get_font`, and files only such fonts. -/
theorem FontCacheMatches.getCachedFont (hs : FontCacheMatches p caches) (style : PlotFontStyle) :
    FontMatches p (fontKey p style) (getCachedFont p style caches).1 ∧
      FontCacheMatches p (getCachedFont p style caches).2 := by
  unfold Windows.getCachedFont
  dsimp only
  split
  · rename_i value hv
    obtain ⟨key, hkey, hm⟩ := hs.lookup hv
    refine ⟨hm.of_fcKeyEq (by rw [fcKeyEq_comm]; exact hkey), ?_⟩
    dsimp only [FontCacheMatches, Option.getD_some]
    exact hs.update _ fun _ _ h => by exact h
  · exact ⟨getFont_matches p style, (hs.insert (show FontMatches p (fontKey p style)
      (⟨getFont p style, caches.fontGen + 1⟩ : FontValue).font from getFont_matches p style)).evictIfNeeded
      _ _⟩

end Calls

/-! ### The string cache -/

/-- Every entry of the string cache holds the conversion of its bytes. -/
def WstrSound (p : Win32Platform) (caches : TextCaches) : Prop :=
  AllEntries (fun bytes value => wideString p bytes = .ok value.wstr) (caches.wstrCache.getD [])

section Strings

variable {p : Win32Platform} {caches : TextCaches}

/-- `get_cached_wide` answers the conversion of the bytes and files only conversions. -/
theorem WstrSound.getCachedWide (hs : WstrSound p caches) (bytes : List UInt8) :
    (getCachedWide p bytes caches).1 = wideString p bytes ∧ WstrSound p (getCachedWide p bytes caches).2 := by
  unfold Windows.getCachedWide getCachedWideAlloc
  simp only [WideAlloc.succeed, Bool.not_true, Bool.and_false, Bool.false_eq_true, if_false]
  split_ifs with hbytes
  · subst hbytes
    exact ⟨rfl, hs⟩
  · split
    · rename_i value hv
      obtain ⟨key, hkey, hwide⟩ := hs.lookup hv
      obtain rfl := beq_iff_eq.1 hkey
      refine ⟨hwide.symm, ?_⟩
      dsimp only [WstrSound, Option.getD_some]
      exact hs.update _ fun _ _ h => by exact h
    · rcases hconv : convertWide p bytes with _ | wide
      · exact ⟨by simp only [wideString, hbytes, hconv, if_false], hs⟩
      · have hwide : wideString p bytes = .ok wide := by
          simp only [wideString, hbytes, hconv, if_false]
        exact ⟨hwide.symm, (hs.insert hwide).wstrCacheEvict _ _⟩

theorem getCachedFont_wstrCache (style : PlotFontStyle) (caches : TextCaches) :
    (getCachedFont p style caches).2.wstrCache = caches.wstrCache := by
  unfold getCachedFont
  dsimp only
  split <;> rfl

/-- Both caches fit what they hold: every font its key, every string its bytes. -/
structure MeasureSound (p : Win32Platform) (caches : TextCaches) : Prop where
  font : FontCacheMatches p caches
  wstr : WstrSound p caches

theorem MeasureSound.getCachedFont (hs : MeasureSound p caches) (style : PlotFontStyle) :
    MeasureSound p (getCachedFont p style caches).2 := by
  refine ⟨(hs.font.getCachedFont p style).2, ?_⟩
  unfold WstrSound
  rw [getCachedFont_wstrCache]
  exact hs.wstr

/-- `win32_font_width` measures the bytes asked about in a font that fits the style's key. -/
theorem MeasureSound.win32FontWidth (hs : MeasureSound p caches) (style : PlotFontStyle)
    (bytes : List UInt8) (len : ℕ) :
    (win32FontWidth p style bytes len caches).1 = (if len = 0 then .ok 0
      else widthOf p (Windows.getCachedFont p style caches).1 (wideString p (bytes.take len))) ∧
      MeasureSound p (win32FontWidth p style bytes len caches).2 := by
  unfold Windows.win32FontWidth
  split_ifs
  · exact ⟨rfl, hs⟩
  · have hs1 := hs.getCachedFont style
    obtain ⟨hwide, hwstr⟩ := hs1.wstr.getCachedWide (bytes.take len)
    exact ⟨by dsimp only; rw [hwide],
      hs1.font.of_sameFontSplit (getCachedWideAlloc_sameFontSplit p _ _ _), hwstr⟩

/-- `win32_font_position` measures the bytes asked about in a font that fits the style's
key. -/
theorem MeasureSound.win32FontPosition (hs : MeasureSound p caches) (style : PlotFontStyle)
    (bytes : List UInt8) (len : ℕ) (x : Int) :
    (win32FontPosition p style bytes len x caches).1 = (if len = 0 ∨ x < 1 then .ok (0, 0)
      else positionOf p (Windows.getCachedFont p style caches).1 (bytes.take len) len x
        (wideString p (bytes.take len))) ∧
      MeasureSound p (win32FontPosition p style bytes len x caches).2 := by
  unfold Windows.win32FontPosition
  split_ifs
  · exact ⟨rfl, hs⟩
  · have hs1 := hs.getCachedFont style
    obtain ⟨hwide, hwstr⟩ := hs1.wstr.getCachedWide (bytes.take len)
    exact ⟨by dsimp only; rw [hwide],
      hs1.font.of_sameFontSplit (getCachedWideAlloc_sameFontSplit p _ _ _), hwstr⟩

theorem MeasureSound.win32FontSplit (hs : MeasureSound p caches) (style : PlotFontStyle)
    (bytes : List UInt8) (length : ℕ) (x : Int) :
    MeasureSound p (win32FontSplit p style bytes length x caches).2 := by
  have hr := splitUncached_inv (MeasureSound p)
    (fun s h => (h.win32FontPosition style bytes length x).2)
    (fun offset s h => (h.win32FontWidth style bytes offset).2) bytes length
    (show MeasureSound p { caches with splitCache := some (caches.splitCache.getD []) } from
      ⟨hs.font, hs.wstr⟩)
  rcases win32FontSplit_cases p style bytes length x caches with
    ⟨_, -, hsplit⟩ | ⟨-, _, _, caches1, hu, hsplit⟩ | ⟨-, -, hsplit⟩ <;> rw [hsplit]
  · exact ⟨hs.font, hs.wstr⟩
  · unfold win32FontSplitUncached at hu
    rw [hu] at hr
    exact ⟨hr.font, hr.wstr⟩
  · exact hr

theorem MeasureSound.step (hs : MeasureSound p caches) (call : TextCall) :
    MeasureSound p (call.step p caches) := by
  cases call with
  | width style bytes len => exact (hs.win32FontWidth style bytes len).2
  | position style bytes len x => exact (hs.win32FontPosition style bytes len x).2
  | split style bytes length x => exact hs.win32FontSplit style bytes length x
  | loadData familyName data =>
      show MeasureSound p (htmlFontFaceLoadData p familyName data caches).2
      unfold htmlFontFaceLoadData
      split
      · split_ifs
        exacts [hs, ⟨hs.font, AllEntries.nil⟩, hs]
      · exact hs

/-- Adding fonts leaves `MultiByteToWideChar` as it is. -/
theorem MeasureSound.withFonts (hs : MeasureSound p caches) (fileFamilies : List UInt8 → List String)
    (resources : List (List UInt8)) : MeasureSound (p.withFonts fileFamilies resources) caches :=
  ⟨hs.font, hs.wstr⟩

end Strings

/-! ### Splits -/

/-- A split measured with no cache, the position in `posFont` and the width in
`widthFont`. -/
def splitIn (p : Win32Platform) (posFont widthFont : Hfont) (bytes : List UInt8) (length : ℕ)
    (x : Int) : SplitResult :=
  (splitUncached
    (fun _ => (if length = 0 ∨ x < 1 then .ok (0, 0)
      else positionOf p posFont (bytes.take length) length x (wideString p (bytes.take length)), ()))
    (fun offset _ => (if offset = 0 then .ok 0
      else widthOf p widthFont (wideString p (bytes.take offset)), ())) bytes length ()).1

/-- A split reads the first `length` bytes only. -/
theorem splitIn_take {p : Win32Platform} (hbound : ∀ str len fit, p.utf8BoundedByteLength str len fit ≤ len)
    (posFont widthFont : Hfont) (bytes : List UInt8) (length : ℕ) (x : Int) :
    splitIn p posFont widthFont (bytes.take length) length x = splitIn p posFont widthFont bytes length x := by
  unfold splitIn splitUncached
  simp only [List.take_take, min_self]
  rcases hpos : (if length = 0 ∨ x < 1 then Except.ok (0, 0)
      else positionOf p posFont (bytes.take length) length x (wideString p (bytes.take length))) with
    e | ⟨cOff, actualX⟩
  · rfl
  · have hle : cOff ≤ length := by
      split_ifs at hpos
      · cases hpos
        exact Nat.zero_le _
      · exact le_of_positionOf_eq_ok hbound hpos
    dsimp only
    by_cases hlen : cOff = length
    · simp only [if_pos hlen]
    · rw [if_neg hlen, if_neg hlen, splitOffset_take bytes (lt_of_le_of_ne hle hlen),
        min_eq_left (splitOffset_le bytes hle)]

section Splits

variable {p : Win32Platform} {caches : TextCaches}

/-- On a miss, a split measures the position in the font `get_cached_font` answers first and
the width in the one it answers after the position's calls. -/
theorem MeasureSound.win32FontSplitUncached (hs : MeasureSound p caches) (style : PlotFontStyle)
    (bytes : List UInt8) (length : ℕ) (x : Int) :
    (Windows.win32FontSplitUncached p style bytes length x caches).1 =
      splitIn p (Windows.getCachedFont p style caches).1
        (Windows.getCachedFont p style (Windows.win32FontPosition p style bytes length x caches).2).1 bytes length x := by
  obtain ⟨hpos, hs1⟩ := hs.win32FontPosition style bytes length x
  unfold Windows.win32FontSplitUncached splitIn splitUncached
  rcases hp : Windows.win32FontPosition p style bytes length x caches with ⟨r, caches1⟩
  rw [hp] at hpos hs1
  dsimp only at hpos ⊢
  rw [← hpos]
  rcases r with e | ⟨cOff, actualX⟩
  · rfl
  · dsimp only
    by_cases hlen : cOff = length
    · rw [if_pos hlen, if_pos hlen]
    · rw [if_neg hlen, if_neg hlen]
      obtain ⟨hwidth, -⟩ := hs1.win32FontWidth style bytes (splitOffset bytes length cOff)
      rcases hw : Windows.win32FontWidth p style bytes (splitOffset bytes length cOff) caches1 with ⟨w, caches2⟩
      rw [hw] at hwidth
      dsimp only at hwidth ⊢
      rw [← hwidth]
      rcases w with e | w <;> rfl

/-- Every cached split was measured, for a style with the same split key, with fonts that
fit that style's font key. -/
def SplitSound (p : Win32Platform) (caches : TextCaches) : Prop :=
  AllEntries (fun key value => ∃ style bytes length x, key = splitKey style bytes length x ∧
    ∃ posFont widthFont, FontMatches p (fontKey p style) posFont ∧ FontMatches p (fontKey p style) widthFont ∧
      splitIn p posFont widthFont bytes length x = ⟨.ok, some value.offset, some value.actualX⟩)
    (caches.splitCache.getD [])

theorem SplitSound.of_sameSplit {caches' : TextCaches} (hs : SplitSound p caches)
    (h : SameSplit caches caches') : SplitSound p caches' := by
  unfold SplitSound
  rw [h.1]
  exact hs

/-- A split answers as measuring in fonts that fit the key of a style with the same split
key: its own on a miss, the one whose entry it finds on a hit. -/
theorem SplitSound.win32FontSplit (hbound : ∀ str len fit, p.utf8BoundedByteLength str len fit ≤ len)
    (hs : SplitSound p caches) (hm : MeasureSound p caches) (style : PlotFontStyle) (bytes : List UInt8)
    (length : ℕ) (x : Int) :
    (∃ style' posFont widthFont, splitKey style' bytes length x = splitKey style bytes length x ∧
      FontMatches p (fontKey p style') posFont ∧ FontMatches p (fontKey p style') widthFont ∧
      (Windows.win32FontSplit p style bytes length x caches).1 = splitIn p posFont widthFont bytes length x) ∧
      SplitSound p (Windows.win32FontSplit p style bytes length x caches).2 := by
  have hm0 : MeasureSound p { caches with splitCache := some (caches.splitCache.getD []) } :=
    ⟨hm.font, hm.wstr⟩
  have hs0 : SplitSound p { caches with splitCache := some (caches.splitCache.getD []) } := hs
  have hmiss := hm0.win32FontSplitUncached style bytes length x
  have hfonts := (hm0.font.getCachedFont p style).1
  have hfonts' := ((hm0.win32FontPosition style bytes length x).2.font.getCachedFont p style).1
  have hframe := sameSplit_win32FontSplitUncached p style bytes length x
    { caches with splitCache := some (caches.splitCache.getD []) }
  rcases win32FontSplit_cases p style bytes length x caches with
    ⟨value, hv, hsplit⟩ | ⟨-, offset, actualX, caches1, hu, hsplit⟩ | ⟨-, -, hsplit⟩ <;> rw [hsplit]
  · obtain ⟨key, hkey, style0, bytes0, length0, x0, rfl, f1, f2, hf1, hf2, hsplitIn⟩ := hs.lookup hv
    have hkeys := (beq_iff_eq.1 hkey).symm
    simp only [splitKey, SplitKey.mk.injEq] at hkeys
    obtain ⟨hfamily, hsize, hweight, hflags, rfl, rfl, htake⟩ := hkeys
    refine ⟨⟨style0, f1, f2, ?_, hf1, hf2, ?_⟩, ?_⟩
    · simp only [splitKey, hfamily, hsize, hweight, hflags]
    · rw [← splitIn_take hbound, ← htake, splitIn_take hbound, hsplitIn]
    · dsimp only [SplitSound, Option.getD_some]
      exact hs.update _ fun _ _ h => by exact h
  · rw [hu] at hmiss hframe
    refine ⟨⟨style, _, _, rfl, hfonts, hfonts', hmiss⟩, ?_⟩
    exact ((hs0.of_sameSplit hframe).insert (show ∃ style' bytes' length' x',
      splitKey style bytes length x = splitKey style' bytes' length' x' ∧
      ∃ posFont widthFont, FontMatches p (fontKey p style') posFont ∧
        FontMatches p (fontKey p style') widthFont ∧
        splitIn p posFont widthFont bytes' length' x' =
          ⟨.ok, some (⟨offset, actualX, caches1.splitGen + 1⟩ : SplitValue).offset,
            some (⟨offset, actualX, caches1.splitGen + 1⟩ : SplitValue).actualX⟩ from
      ⟨style, bytes, length, x, rfl, _, _, hfonts, hfonts', hmiss.symm⟩)).evictIfNeeded _ _
  · exact ⟨⟨style, _, _, rfl, hfonts, hfonts', hmiss⟩, hs0.of_sameSplit hframe⟩

theorem SplitSound.step (hbound : ∀ str len fit, p.utf8BoundedByteLength str len fit ≤ len)
    (hs : SplitSound p caches) (hm : MeasureSound p caches) (call : TextCall) :
    SplitSound p (call.step p caches) := by
  cases call with
  | width style bytes len => exact hs.of_sameSplit (sameSplit_measure p style bytes len caches).1
  | position style bytes len x =>
      exact hs.of_sameSplit ((sameSplit_measure p style bytes len caches).2 x)
  | split style bytes length x => exact (hs.win32FontSplit hbound hm style bytes length x).2
  | loadData familyName data =>
      show SplitSound p (htmlFontFaceLoadData p familyName data caches).2
      unfold htmlFontFaceLoadData
      split
      · split_ifs
        exacts [hs, AllEntries.nil, hs]
      · exact hs

end Splits

/-! ### Every reachable state -/

section Runs

variable (p : Win32Platform) (fileFamilies : List UInt8 → List String)

theorem Win32Fonts.measureSound_step {st : Win32Fonts} (hs : MeasureSound p st.caches)
    (event : FontsEvent) : MeasureSound p (st.step p fileFamilies event).caches := by
  rcases Win32Fonts.step_cases p fileFamilies st event with
    ⟨hc, -⟩ | ⟨_, hc, -⟩ | ⟨call, hc, -, -⟩ <;> rw [hc]
  · exact hs
  · exact ⟨hs.font, AllEntries.nil⟩
  · have h := (hs.withFonts fileFamilies st.resources).step call
    exact ⟨h.font, h.wstr⟩

theorem Win32Fonts.measureSound_run (events : List FontsEvent) {st : Win32Fonts}
    (hs : MeasureSound p st.caches) : MeasureSound p (win32FontsRun p fileFamilies events st).caches := by
  induction events generalizing st with
  | nil => exact hs
  | cons event events ih => exact ih (Win32Fonts.measureSound_step p fileFamilies hs event)

/-- From every state that any interleaving of `@font-face` processing, download completions
and layout calls reaches, `win32_font_width` and `win32_font_position` measure, for every
style, exactly the bytes asked about, converted by `MultiByteToWideChar`, in one font that fits
the style's key: created by `CreateFont`, which accepted a request with the style's size,
weight and italic flag and a face equal up to case to the one `select_face_name` picks on the
platform with the fonts added so far, or, where `CreateFont` failed on such a request, the
stock font of the style's kind, fixed-pitch exactly for monospace. -/
theorem win32FontsRun_measure (events : List FontsEvent) (style : PlotFontStyle) (bytes : List UInt8)
    (len : ℕ) (x : Int) :
    ∃ font, FontMatches ((win32FontsRun p fileFamilies events .initial).platform p fileFamilies)
        (fontKey ((win32FontsRun p fileFamilies events .initial).platform p fileFamilies)
        style) font ∧
      (win32FontWidth ((win32FontsRun p fileFamilies events .initial).platform p fileFamilies) style bytes
          len (win32FontsRun p fileFamilies events .initial).caches).1 =
        (if len = 0 then .ok 0 else widthOf ((win32FontsRun p fileFamilies events .initial).platform p
          fileFamilies) font (wideString p (bytes.take len))) ∧
      (win32FontPosition ((win32FontsRun p fileFamilies events .initial).platform p fileFamilies) style
          bytes len x (win32FontsRun p fileFamilies events .initial).caches).1 =
        (if len = 0 ∨ x < 1 then .ok (0, 0) else positionOf ((win32FontsRun p fileFamilies events
          .initial).platform p fileFamilies) font (bytes.take len) len x (wideString p (bytes.take len))) :=
  have hs := (Win32Fonts.measureSound_run p fileFamilies events
    (show MeasureSound p Win32Fonts.initial.caches from ⟨fontCacheMatches_initial, AllEntries.nil⟩)).withFonts
    fileFamilies (win32FontsRun p fileFamilies events .initial).resources
  ⟨_, (hs.font.getCachedFont _ style).1, (hs.win32FontWidth style bytes len).1,
    (hs.win32FontPosition style bytes len x).1⟩

/-- With `Inter` as the sans-serif option, a sans-serif style listing no families shares the
entry of one that names `Inter`, and is answered the font created without a pitch. -/
example : (getCachedFont { interPlatform with fontSans := some "Inter" } sansStyle
      (getCachedFont { interPlatform with fontSans := some "Inter" } interStyle .initial).2).1 ≠
    getFont { interPlatform with fontSans := some "Inter" } sansStyle := by
  decide

section Splits

variable {p} (hbound : ∀ str len fit, p.utf8BoundedByteLength str len fit ≤ len)
include hbound

theorem Win32Platform.withFonts_bound (resources : List (List UInt8)) :
    ∀ str len fit, (p.withFonts fileFamilies resources).utf8BoundedByteLength str len fit ≤ len :=
  hbound

/-- The split cache stays sound for the platform of the moment: loading a font changes the
platform, and it flushes the split cache. -/
theorem Win32Fonts.splitSound_step {st : Win32Fonts} (hm : MeasureSound p st.caches)
    (hs : SplitSound (st.platform p fileFamilies) st.caches) (event : FontsEvent) :
    SplitSound ((st.step p fileFamilies event).platform p fileFamilies) (st.step p fileFamilies event).caches := by
  unfold Win32Fonts.platform at hs ⊢
  rcases Win32Fonts.step_cases p fileFamilies st event with
    ⟨hc, hr⟩ | ⟨_, hc, -⟩ | ⟨call, hc, hr, -⟩
  · rw [hc, hr]
    exact hs
  · rw [hc]
    exact AllEntries.nil
  · rw [hc, hr]
    exact hs.step (Win32Platform.withFonts_bound fileFamilies hbound st.resources)
      (hm.withFonts fileFamilies st.resources) call

theorem Win32Fonts.splitSound_run (events : List FontsEvent) {st : Win32Fonts}
    (hm : MeasureSound p st.caches) (hs : SplitSound (st.platform p fileFamilies) st.caches) :
    SplitSound ((win32FontsRun p fileFamilies events st).platform p fileFamilies)
      (win32FontsRun p fileFamilies events st).caches := by
  induction events generalizing st with
  | nil => exact hs
  | cons event events ih =>
      exact ih (Win32Fonts.measureSound_step p fileFamilies hm event)
        (Win32Fonts.splitSound_step fileFamilies hbound hm hs event)

/-- From every state that any interleaving of `@font-face` processing, download completions
and layout calls reaches, `win32_font_split` answers, for every style, the split measured with
no cache, on the bytes asked about, in fonts that fit the font key of a style that agrees with
the asking one on the split key: the generic family, size, weight and flags, but not the
family names. A hit may so answer for another face; a miss answers for the style's own. -/
theorem win32FontsRun_split_sound (events : List FontsEvent) (style : PlotFontStyle)
    (bytes : List UInt8) (length : ℕ) (x : Int) :
    ∃ style' posFont widthFont, splitKey style' bytes length x = splitKey style bytes length x ∧
      FontMatches ((win32FontsRun p fileFamilies events .initial).platform p fileFamilies)
        (fontKey ((win32FontsRun p fileFamilies events .initial).platform p fileFamilies)
        style') posFont ∧
      FontMatches ((win32FontsRun p fileFamilies events .initial).platform p fileFamilies)
        (fontKey ((win32FontsRun p fileFamilies events .initial).platform p fileFamilies)
        style') widthFont ∧
      (win32FontSplit ((win32FontsRun p fileFamilies events .initial).platform p fileFamilies) style
          bytes length x (win32FontsRun p fileFamilies events .initial).caches).1 =
        splitIn ((win32FontsRun p fileFamilies events .initial).platform p fileFamilies) posFont widthFont
          bytes length x :=
  have hm0 : MeasureSound p Win32Fonts.initial.caches := ⟨fontCacheMatches_initial, AllEntries.nil⟩
  have hs := Win32Fonts.splitSound_run fileFamilies hbound events hm0
    (show SplitSound (Win32Fonts.initial.platform p fileFamilies) Win32Fonts.initial.caches from AllEntries.nil)
  (hs.win32FontSplit (Win32Platform.withFonts_bound fileFamilies hbound _)
    ((Win32Fonts.measureSound_run p fileFamilies events hm0).withFonts fileFamilies _) style bytes length x).1

end Splits

/-- After `Inter` is loaded and `ab cd` is split in a sans-serif style, a split of the same
bytes in a style naming `Inter` answers a split measured in fonts for a style with its split
key. -/
theorem win32FontsRun_split_sound_interLoadEvents :
    (∀ str len fit, interPlatform.utf8BoundedByteLength str len fit ≤ len) ∧
      ∃ style' posFont widthFont, splitKey style' abSpaceCd 5 40 = splitKey interStyle abSpaceCd 5 40 ∧
        FontMatches ((win32FontsRun interPlatform (fun _ => ["Inter"]) interLoadEvents .initial).platform
          interPlatform (fun _ => ["Inter"])) (fontKey ((win32FontsRun interPlatform (fun _ => ["Inter"])
          interLoadEvents .initial).platform interPlatform (fun _ => ["Inter"])) style') posFont ∧
        FontMatches ((win32FontsRun interPlatform (fun _ => ["Inter"]) interLoadEvents .initial).platform
          interPlatform (fun _ => ["Inter"])) (fontKey ((win32FontsRun interPlatform (fun _ => ["Inter"])
          interLoadEvents .initial).platform interPlatform (fun _ => ["Inter"])) style') widthFont ∧
        (win32FontSplit ((win32FontsRun interPlatform (fun _ => ["Inter"]) interLoadEvents
            .initial).platform interPlatform (fun _ => ["Inter"])) interStyle abSpaceCd 5 40
            (win32FontsRun interPlatform (fun _ => ["Inter"]) interLoadEvents .initial).caches).1 =
          splitIn ((win32FontsRun interPlatform (fun _ => ["Inter"]) interLoadEvents .initial).platform
            interPlatform (fun _ => ["Inter"])) posFont widthFont abSpaceCd 5 40 :=
  have hbound : ∀ str len fit, interPlatform.utf8BoundedByteLength str len fit ≤ len :=
    fun _ len _ => Nat.min_le_left len _
  ⟨hbound, win32FontsRun_split_sound (fun _ => ["Inter"]) hbound interLoadEvents interStyle abSpaceCd 5 40⟩

end Runs

end Windows
end Neosurf
