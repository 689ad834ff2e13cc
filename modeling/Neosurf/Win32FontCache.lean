import Neosurf.FontFaceLoading

/-!
# The win32 text-measurement caches

`windows/font.c` (`src/unnamed/part_005`) measures text through three caches of stamped
entries, the oldest going past each bound: fonts by style key and face, UTF-16 strings by
their bytes, and splits by style key, width and bytes.  The platform calls are pure
parameters, allocation succeeds except where `getCachedWideAlloc` is given its outcomes, and
a hashmap is its entry list.  For styles without font families every entry is what the
platform computes (`CachesSound`); `split_key_t` leaves the family list out.
-/

namespace Neosurf
namespace Windows

/-- `SPLIT_CACHE_MAX_ENTRIES`. -/
def splitCacheMaxEntries : ℕ := 16384

/-- `WSTR_CACHE_MAX_BYTES`. -/
def wstrCacheMaxBytes : ℕ := 16 * 1024 * 1024

/-- `FONT_CACHE_MAX_ENTRIES`. -/
def fontCacheMaxEntries : ℕ := 256

/-- `FONTF_ITALIC`. -/
def fontfItalic : ℕ := 1

/-- The `nserror` codes these functions return. -/
inductive NsError
  | ok | nomem | nospace | invalid | unknown | badParameter
  deriving DecidableEq, Repr

/-- `plot_font_generic_family_t`. -/
inductive PlotFontFamily
  | sansSerif | serif | monospace | cursive | fantasy
  deriving DecidableEq, Repr

/-- `plot_font_style_t` as the text functions read it. -/
structure PlotFontStyle where
  families : List String
  family : PlotFontFamily
  size : Int
  weight : Int
  flags : ℕ
  deriving DecidableEq, Repr

/-- The pitch-and-family argument of `CreateFont`. -/
inductive PitchFamily
  | dontCare | roman | modern | script | decorative | swiss
  deriving DecidableEq, Repr

/-- What `get_font` asks `CreateFont` for. -/
structure FontRequest where
  face : String
  pitchFamily : PitchFamily
  size : Int
  weight : Int
  italic : Bool
  deriving DecidableEq, Repr

/-- An `HFONT`: a created font or a stock font. -/
inductive Hfont
  | created (request : FontRequest)
  | ansiFixed
  | ansiVar
  deriving DecidableEq, Repr

/-- The platform calls as pure functions, and the font options. -/
structure Win32Platform where
  familyExists : String → Bool
  createFont : FontRequest → Bool
  multiByteToWideChar : List UInt8 → List UInt16
  textExtentExPoint : Hfont → List UInt16 → Int → Option ℕ
  textExtentPoint32 : Hfont → List UInt16 → Option Int
  addFontMemResourceEx : List UInt8 → Bool
  utf8BoundedByteLength : List UInt8 → ℕ → ℕ → ℕ
  fontSans : Option String
  fontSerif : Option String
  fontMono : Option String
  fontCursive : Option String
  fontFantasy : Option String

/-! ### Hashmaps -/

section Hashmap

variable {K V : Type}

/-- `hashmap_lookup`. -/
def hashmapLookup (eq : K → K → Bool) (map : List (K × V)) (key : K) : Option V :=
  (map.find? fun entry => eq key entry.1).map (·.2)

/-- A write through the slot `hashmap_lookup` returned. -/
def hashmapUpdate (eq : K → K → Bool) (map : List (K × V)) (key : K) (f : V → V) :
    List (K × V) :=
  map.map fun entry => if eq key entry.1 then (entry.1, f entry.2) else entry

/-- `hashmap_remove`. -/
def hashmapRemove (eq : K → K → Bool) (map : List (K × V)) (key : K) : List (K × V) :=
  map.filter fun entry => !eq key entry.1

/-- `hashmap_insert` and the writes into the new value. -/
def hashmapInsert (eq : K → K → Bool) (map : List (K × V)) (key : K) (value : V) :
    List (K × V) :=
  (key, value) :: hashmapRemove eq map key

/-- The entry the `*_iter_oldest_cb` callbacks settle on: the first of least
generation. -/
def oldestEntry (gen : V → ℕ) : List (K × V) → Option (K × V)
  | [] => none
  | entry :: rest =>
      match oldestEntry gen rest with
      | some older => if gen older.2 < gen entry.2 then some older else some entry
      | none => some entry

/-- The `for (i = 0; i < to_remove; i++)` loop of the entry-bounded caches. -/
def evictOldest (eq : K → K → Bool) (gen : V → ℕ) : ℕ → List (K × V) → List (K × V)
  | 0, map => map
  | n + 1, map =>
      match oldestEntry gen map with
      | some entry => evictOldest eq gen n (hashmapRemove eq map entry.1)
      | none => map

/-- `split_cache_evict_if_needed` and `font_cache_evict_if_needed`: down to
three quarters of the bound once past it. -/
def evictIfNeeded (eq : K → K → Bool) (gen : V → ℕ) (maxEntries : ℕ) (map : List (K × V)) :
    List (K × V) :=
  if map.length ≤ maxEntries then map
  else evictOldest eq gen (map.length - maxEntries * 3 / 4) map

end Hashmap

/-! ### The caches -/

/-- `font_key_t`. -/
structure FontKey where
  family : PlotFontFamily
  size : Int
  weight : Int
  flags : ℕ
  face : Option String
  deriving DecidableEq, Repr

/-- `fc_key_eq`: faces compared without case. -/
def fcKeyEq (a b : FontKey) : Bool :=
  a.family = b.family && a.size = b.size && a.weight = b.weight && a.flags = b.flags &&
    match a.face, b.face with
    | none, none => true
    | some x, some y => Html.strcaseEq x y
    | _, _ => false

/-- `font_value_t`. -/
structure FontValue where
  font : Hfont
  gen : ℕ
  deriving DecidableEq, Repr

/-- `split_key_t`, the string as its first `len` bytes. -/
structure SplitKey where
  family : PlotFontFamily
  size : Int
  weight : Int
  flags : ℕ
  x : Int
  len : ℕ
  str : List UInt8
  deriving DecidableEq, Repr

/-- `split_value_t`. -/
structure SplitValue where
  offset : ℕ
  actualX : Int
  gen : ℕ
  deriving DecidableEq, Repr

/-- `wstr_value_t`. -/
structure WstrValue where
  wstr : List UInt16
  bytes : ℕ
  gen : ℕ
  deriving DecidableEq, Repr

/-- The caches and their counters; `none` is a cache not yet created. -/
structure TextCaches where
  fontCache : Option (List (FontKey × FontValue))
  fontGen : ℕ
  splitCache : Option (List (SplitKey × SplitValue))
  splitGen : ℕ
  wstrCache : Option (List (List UInt8 × WstrValue))
  wstrGen : ℕ
  wstrTotalBytes : ℕ
  deriving DecidableEq, Repr

def TextCaches.initial : TextCaches := ⟨none, 0, none, 0, none, 0, 0⟩

/-- `win32_font_caches_flush`. -/
def win32FontCachesFlush (caches : TextCaches) : TextCaches :=
  { caches with splitCache := none, wstrCache := none, wstrTotalBytes := 0, wstrGen := 0,
                splitGen := 0 }

/-! ### Fonts and strings -/

section Fonts

variable (p : Win32Platform)

/-- `win32_font_family_exists`: an empty name never exists. -/
def win32FontFamilyExists (familyName : String) : Bool :=
  familyName ≠ "" && p.familyExists familyName

/-- `select_face_name`: the first listed family that exists, else the option
of the generic family, with the pitch and family `get_font` passes on. -/
def selectFaceName (style : PlotFontStyle) : Option String × PitchFamily :=
  match style.families.find? (win32FontFamilyExists p) with
  | some candidate => (some candidate, .dontCare)
  | none =>
      match style.family with
      | .serif => (p.fontSerif, .roman)
      | .monospace => (p.fontMono, .modern)
      | .cursive => (p.fontCursive, .script)
      | .fantasy => (p.fontFantasy, .decorative)
      | .sansSerif => (p.fontSans, .swiss)

/-- `get_font`: the selected face, or `""` with no preference, falling back
to a stock font when `CreateFont` fails. -/
def getFont (style : PlotFontStyle) : Hfont :=
  let request : FontRequest :=
    match selectFaceName p style with
    | (some face, pitchFamily) =>
        ⟨face, pitchFamily, style.size, style.weight, style.flags &&& fontfItalic ≠ 0⟩
    | (none, _) => ⟨"", .dontCare, style.size, style.weight, style.flags &&& fontfItalic ≠ 0⟩
  if p.createFont request then .created request
  else if style.family = .monospace then .ansiFixed
  else .ansiVar

/-- The key `get_cached_font` looks up. -/
def fontKey (style : PlotFontStyle) : FontKey :=
  ⟨style.family, style.size, style.weight, style.flags, (selectFaceName p style).1⟩

/-- `get_cached_font`. -/
def getCachedFont (style : PlotFontStyle) (caches : TextCaches) : Hfont × TextCaches :=
  let cache := caches.fontCache.getD []
  match hashmapLookup fcKeyEq cache (fontKey p style) with
  | some value =>
      (value.font, { caches with
        fontCache := some (hashmapUpdate fcKeyEq cache (fontKey p style)
          fun v => { v with gen := caches.fontGen + 1 }),
        fontGen := caches.fontGen + 1 })
  | none =>
      (getFont p style, { caches with
        fontCache := some (evictIfNeeded fcKeyEq (·.gen) fontCacheMaxEntries
          (hashmapInsert fcKeyEq cache (fontKey p style) ⟨getFont p style, caches.fontGen + 1⟩)),
        fontGen := caches.fontGen + 1 })

/-- `MultiByteToWideChar` into a buffer of as many code units as there are
bytes; `none` when it converts nothing. -/
def convertWide (bytes : List UInt8) : Option (List UInt16) :=
  if p.multiByteToWideChar bytes = [] ∨ bytes.length < (p.multiByteToWideChar bytes).length then none
  else some (p.multiByteToWideChar bytes)

/-- The `while` loop of `wstr_cache_evict_if_needed`, one step per entry: the
oldest string goes while the total is past the bound. -/
def wstrCacheEvict : ℕ → List (List UInt8 × WstrValue) → ℕ → List (List UInt8 × WstrValue) × ℕ
  | 0, cache, total => (cache, total)
  | fuel + 1, cache, total =>
      if wstrCacheMaxBytes < total then
        match oldestEntry (·.gen) cache with
        | some entry =>
            wstrCacheEvict fuel (hashmapRemove (· == ·) cache entry.1) (total - entry.2.bytes)
        | none => (cache, total)
      else (cache, total)

/-- Whether each allocation of `get_cached_wide` succeeds: `hashmap_create`,
the `malloc` of the buffer, and `hashmap_insert`, which clones the key and
allocates the value and leaves the map as it was when either fails. -/
structure WideAlloc where
  createOk : Bool
  bufferOk : Bool
  insertOk : Bool
  deriving DecidableEq, Repr

/-- Every allocation succeeds. -/
def WideAlloc.succeed : WideAlloc := ⟨true, true, true⟩

/-- `get_cached_wide`, given the outcome of its allocations. -/
def getCachedWideAlloc (alloc : WideAlloc) (bytes : List UInt8) (caches : TextCaches) :
    Except NsError (List UInt16) × TextCaches :=
  if bytes = [] then (.ok [], caches)
  else if caches.wstrCache.isNone && !alloc.createOk then (.error .nomem, caches)
  else
    let cache := caches.wstrCache.getD []
    match hashmapLookup (· == ·) cache bytes with
    | some value =>
        (.ok value.wstr, { caches with
          wstrCache := some (hashmapUpdate (· == ·) cache bytes
            fun v => { v with gen := caches.wstrGen + 1 }),
          wstrGen := caches.wstrGen + 1 })
    | none =>
        if !alloc.bufferOk then (.error .nomem, { caches with wstrCache := some cache })
        else
          match convertWide p bytes with
          | none => (.error .nospace, { caches with wstrCache := some cache })
          | some wide =>
              if !alloc.insertOk then (.error .nomem, { caches with wstrCache := some cache })
              else
                let evicted := wstrCacheEvict (cache.length + 1)
                  (hashmapInsert (· == ·) cache bytes ⟨wide, 2 * wide.length, caches.wstrGen + 1⟩)
                  (caches.wstrTotalBytes + 2 * wide.length)
                (.ok wide, { caches with wstrCache := some evicted.1, wstrGen := caches.wstrGen + 1,
                                         wstrTotalBytes := evicted.2 })

/-- `get_cached_wide` when every allocation succeeds. -/
def getCachedWide (bytes : List UInt8) (caches : TextCaches) :
    Except NsError (List UInt16) × TextCaches :=
  getCachedWideAlloc p .succeed bytes caches

/-- What `get_cached_wide` answers for the bytes when the cache has no entry. -/
def wideString (bytes : List UInt8) : Except NsError (List UInt16) :=
  if bytes = [] then .ok []
  else
    match convertWide p bytes with
    | some wide => .ok wide
    | none => .error .nospace

/-! ### Measuring -/

/-- The measuring half of `win32_font_width`: `GetTextExtentPoint32W` on the
wide string. -/
def widthOf (font : Hfont) : Except NsError (List UInt16) → Except NsError Int
  | .error e => .error e
  | .ok wide =>
      match p.textExtentPoint32 font wide with
      | some cx => .ok cx
      | none => .error .invalid

/-- `win32_font_width`. -/
def win32FontWidth (style : PlotFontStyle) (bytes : List UInt8) (len : ℕ) (caches : TextCaches) :
    Except NsError Int × TextCaches :=
  if len = 0 then (.ok 0, caches)
  else
    let font := getCachedFont p style caches
    let wide := getCachedWide p (bytes.take len) font.2
    (widthOf p font.1 wide.1, wide.2)

/-- The measuring half of `win32_font_position`: how many characters fit in
`x`, their width, and the byte length of that many characters. -/
def positionOf (font : Hfont) (bytes : List UInt8) (len : ℕ) (x : Int) :
    Except NsError (List UInt16) → Except NsError (ℕ × Int)
  | .error e => .error e
  | .ok wide =>
      match p.textExtentExPoint font wide x with
      | some fit =>
          match p.textExtentPoint32 font (wide.take fit) with
          | some cx => .ok (p.utf8BoundedByteLength bytes len fit, cx)
          | none => .error .unknown
      | none => .error .unknown

/-- `win32_font_position`. -/
def win32FontPosition (style : PlotFontStyle) (bytes : List UInt8) (len : ℕ) (x : Int)
    (caches : TextCaches) : Except NsError (ℕ × Int) × TextCaches :=
  if len = 0 ∨ x < 1 then (.ok (0, 0), caches)
  else
    let font := getCachedFont p style caches
    let wide := getCachedWide p (bytes.take len) font.2
    (positionOf p font.1 (bytes.take len) len x wide.1, wide.2)

/-- `win32_font_width` on the platform, with no cache. -/
def measureWidth (style : PlotFontStyle) (bytes : List UInt8) (len : ℕ) : Except NsError Int :=
  if len = 0 then .ok 0 else widthOf p (getFont p style) (wideString p (bytes.take len))

/-- `win32_font_position` on the platform, with no cache. -/
def measurePosition (style : PlotFontStyle) (bytes : List UInt8) (len : ℕ) (x : Int) :
    Except NsError (ℕ × Int) :=
  if len = 0 ∨ x < 1 then .ok (0, 0)
  else positionOf p (getFont p style) (bytes.take len) len x (wideString p (bytes.take len))

end Fonts

/-! ### Splitting -/

/-- What `win32_font_split` returns: its status, and `*offset` and
`*actual_x` where it wrote them. -/
structure SplitResult where
  status : NsError
  offset : Option ℕ
  actualX : Option Int
  deriving DecidableEq, Repr

/-- `while ((string[*offset] != ' ') && (*offset > 0)) (*offset)--;` -/
def scanBackToSpace (bytes : List UInt8) : ℕ → ℕ
  | 0 => 0
  | offset + 1 => if bytes.getD (offset + 1) 0 = 32 then offset + 1 else scanBackToSpace bytes offset

/-- `while ((*offset < length) && (string[*offset] != ' ')) (*offset)++;`, at
most `fuel` steps. -/
def scanForwardToSpace (bytes : List UInt8) (length : ℕ) : ℕ → ℕ → ℕ
  | 0, offset => offset
  | fuel + 1, offset =>
      if offset < length ∧ bytes.getD offset 0 ≠ 32 then
        scanForwardToSpace bytes length fuel (offset + 1)
      else offset

/-- Where the split falls once `win32_font_position` answered `cOff`: at the
last space up to `cOff`, or, with none, at the first space after it. -/
def splitOffset (bytes : List UInt8) (length cOff : ℕ) : ℕ :=
  if scanBackToSpace bytes cOff = 0 then scanForwardToSpace bytes length length cOff
  else scanBackToSpace bytes cOff

/-- The uncached branch of `win32_font_split`, over the state that its calls of
`win32_font_position` and `win32_font_width` thread. -/
def splitUncached {σ : Type} (position : σ → Except NsError (ℕ × Int) × σ)
    (width : ℕ → σ → Except NsError Int × σ) (bytes : List UInt8) (length : ℕ) (s : σ) :
    SplitResult × σ :=
  match position s with
  | (.error e, s) => (⟨e, none, none⟩, s)
  | (.ok (cOff, actualX), s) =>
      if cOff = length then (⟨.ok, some cOff, some actualX⟩, s)
      else
        match width (splitOffset bytes length cOff) s with
        | (.ok w, s) => (⟨.ok, some (splitOffset bytes length cOff), some w⟩, s)
        | (.error e, s) => (⟨e, some (splitOffset bytes length cOff), some actualX⟩, s)

/-- The key `win32_font_split` looks up: the generic family, size, weight and
flags, `x`, and the first `length` bytes. -/
def splitKey (style : PlotFontStyle) (bytes : List UInt8) (length : ℕ) (x : Int) : SplitKey :=
  ⟨style.family, style.size, style.weight, style.flags, x, length, bytes.take length⟩

section Split

variable (p : Win32Platform)

/-- Lines 911-929 of `win32_font_split`. -/
def win32FontSplitUncached (style : PlotFontStyle) (bytes : List UInt8) (length : ℕ) (x : Int) :
    TextCaches → SplitResult × TextCaches :=
  splitUncached (win32FontPosition p style bytes length x) (win32FontWidth p style bytes) bytes length

/-- What a split answers on the platform, with no cache. -/
def measureSplit (style : PlotFontStyle) (bytes : List UInt8) (length : ℕ) (x : Int) : SplitResult :=
  (splitUncached (fun _ => (measurePosition p style bytes length x, ()))
    (fun offset _ => (measureWidth p style bytes offset, ())) bytes length ()).1

/-- `win32_font_split`: a hit answers from the cache; a miss runs the
uncached branch and caches what it answers with `NSERROR_OK`. -/
def win32FontSplit (style : PlotFontStyle) (bytes : List UInt8) (length : ℕ) (x : Int)
    (caches : TextCaches) : SplitResult × TextCaches :=
  let cache := caches.splitCache.getD []
  match hashmapLookup (· == ·) cache (splitKey style bytes length x) with
  | some value =>
      (⟨.ok, some value.offset, some value.actualX⟩, { caches with
        splitCache := some (hashmapUpdate (· == ·) cache (splitKey style bytes length x)
          fun v => { v with gen := caches.splitGen + 1 }),
        splitGen := caches.splitGen + 1 })
  | none =>
      match win32FontSplitUncached p style bytes length x { caches with splitCache := some cache } with
      | (⟨.ok, some offset, some actualX⟩, caches) =>
          (⟨.ok, some offset, some actualX⟩, { caches with
            splitCache := some (evictIfNeeded (· == ·) (·.gen) splitCacheMaxEntries
              (hashmapInsert (· == ·) (caches.splitCache.getD []) (splitKey style bytes length x)
                ⟨offset, actualX, caches.splitGen + 1⟩)),
            splitGen := caches.splitGen + 1 })
      | result => result

/-- `html_font_face_load_data` of the win32 front end: the font is added to
the process and the split and string caches are flushed. -/
def htmlFontFaceLoadData (familyName : Option String) (data : Option (List UInt8))
    (caches : TextCaches) : NsError × TextCaches :=
  match familyName, data with
  | some _, some bytes =>
      if bytes.length = 0 ∨ 50 * 1024 * 1024 < bytes.length then (.badParameter, caches)
      else if p.addFontMemResourceEx bytes then (.ok, win32FontCachesFlush caches)
      else (.invalid, caches)
  | _, _ => (.badParameter, caches)

end Split

/-! ### Runs -/

/-- A call into the text layer. -/
inductive TextCall
  | width (style : PlotFontStyle) (bytes : List UInt8) (len : ℕ)
  | position (style : PlotFontStyle) (bytes : List UInt8) (len : ℕ) (x : Int)
  | split (style : PlotFontStyle) (bytes : List UInt8) (length : ℕ) (x : Int)
  | loadData (familyName : Option String) (data : Option (List UInt8))
  deriving DecidableEq, Repr

/-- The caches after one call. -/
def TextCall.step (p : Win32Platform) : TextCall → TextCaches → TextCaches
  | .width style bytes len, caches => (win32FontWidth p style bytes len caches).2
  | .position style bytes len x, caches => (win32FontPosition p style bytes len x caches).2
  | .split style bytes length x, caches => (win32FontSplit p style bytes length x caches).2
  | .loadData familyName data, caches => (htmlFontFaceLoadData p familyName data caches).2

/-- The caches after a sequence of calls. -/
def textRun (p : Win32Platform) (calls : List TextCall) (caches : TextCaches) : TextCaches :=
  calls.foldl (fun caches call => call.step p caches) caches

/-- The call measures with a style that lists no font families. -/
def TextCall.FamilyLess : TextCall → Prop
  | .width style _ _ | .position style _ _ _ | .split style _ _ _ => style.families = []
  | .loadData _ _ => True

/-! ### Cache entries

Evicting, removing and re-stamping entries keeps whatever every entry
satisfies, and a hit returns the value of an entry whose key matched. -/

section Entries

variable {K V : Type} {eq : K → K → Bool} {P : K → V → Prop} {map : List (K × V)}

/-- Every entry of the map satisfies `P`. -/
def AllEntries (P : K → V → Prop) (map : List (K × V)) : Prop :=
  ∀ entry ∈ map, P entry.1 entry.2

theorem AllEntries.nil : AllEntries P [] :=
  fun _ hentry => (List.not_mem_nil _ hentry).elim

theorem AllEntries.remove (h : AllEntries P map) (key : K) :
    AllEntries P (hashmapRemove eq map key) :=
  fun entry hentry => h entry (List.mem_filter.1 hentry).1

theorem AllEntries.insert (h : AllEntries P map) {key : K} {value : V} (hkv : P key value) :
    AllEntries P (hashmapInsert eq map key value) := by
  intro entry hentry
  rcases List.mem_cons.1 hentry with rfl | hentry
  · exact hkv
  · exact h.remove key entry hentry

theorem AllEntries.update (h : AllEntries P map) (key : K) {f : V → V}
    (hf : ∀ k v, P k v → P k (f v)) : AllEntries P (hashmapUpdate eq map key f) := by
  intro entry hentry
  obtain ⟨entry, hmem, rfl⟩ := List.mem_map.1 hentry
  split_ifs
  · exact hf _ _ (h entry hmem)
  · exact h entry hmem

theorem AllEntries.evictOldest (h : AllEntries P map) (gen : V → ℕ) (n : ℕ) :
    AllEntries P (evictOldest eq gen n map) := by
  induction n generalizing map with
  | zero => exact h
  | succ n ih =>
      unfold Windows.evictOldest
      split
      · exact ih (h.remove _)
      · exact h

theorem AllEntries.evictIfNeeded (h : AllEntries P map) (gen : V → ℕ) (maxEntries : ℕ) :
    AllEntries P (evictIfNeeded eq gen maxEntries map) := by
  unfold Windows.evictIfNeeded
  split_ifs
  · exact h
  · exact h.evictOldest gen _

theorem AllEntries.lookup (h : AllEntries P map) {key : K} {value : V}
    (hv : hashmapLookup eq map key = some value) : ∃ k, eq key k = true ∧ P k value := by
  obtain ⟨entry, hentry, rfl⟩ := Option.map_eq_some'.1 hv
  have hkey := List.find?_some hentry
  exact ⟨entry.1, hkey, h entry (List.mem_of_find?_eq_some hentry)⟩

end Entries

theorem AllEntries.wstrCacheEvict {P : List UInt8 → WstrValue → Prop}
    {cache : List (List UInt8 × WstrValue)} (h : AllEntries P cache) (fuel total : ℕ) :
    AllEntries P (wstrCacheEvict fuel cache total).1 := by
  induction fuel generalizing cache total with
  | zero => exact h
  | succ fuel ih =>
      unfold Windows.wstrCacheEvict
      split_ifs
      · split
        · exact ih (h.remove _) _
        · exact h
      · exact h

/-! ### What a split can do -/

section SplitCases

variable (p : Win32Platform)

/-- What one `win32_font_split` can do: answer a hit from its entry and re-stamp
it, or run the uncached branch on the created cache and cache the answer when
it is `NSERROR_OK` with both outputs written, or else hand that answer on. -/
theorem win32FontSplit_cases (style : PlotFontStyle) (bytes : List UInt8) (length : ℕ) (x : Int)
    (caches : TextCaches) :
    (∃ value, hashmapLookup (· == ·) (caches.splitCache.getD []) (splitKey style bytes length x) =
        some value ∧
      win32FontSplit p style bytes length x caches =
        (⟨.ok, some value.offset, some value.actualX⟩, { caches with
          splitCache := some (hashmapUpdate (· == ·) (caches.splitCache.getD []) (splitKey style bytes length x)
            fun v => { v with gen := caches.splitGen + 1 }),
          splitGen := caches.splitGen + 1 })) ∨
    (hashmapLookup (· == ·) (caches.splitCache.getD []) (splitKey style bytes length x) = none ∧
      ∃ offset actualX caches1,
        win32FontSplitUncached p style bytes length x
            { caches with splitCache := some (caches.splitCache.getD []) } =
          (⟨.ok, some offset, some actualX⟩, caches1) ∧
        win32FontSplit p style bytes length x caches =
          (⟨.ok, some offset, some actualX⟩, { caches1 with
            splitCache := some (evictIfNeeded (· == ·) (·.gen) splitCacheMaxEntries
              (hashmapInsert (· == ·) (caches1.splitCache.getD []) (splitKey style bytes length x)
                ⟨offset, actualX, caches1.splitGen + 1⟩)),
            splitGen := caches1.splitGen + 1 })) ∨
    (hashmapLookup (· == ·) (caches.splitCache.getD []) (splitKey style bytes length x) = none ∧
      (∀ offset actualX, (win32FontSplitUncached p style bytes length x
        { caches with splitCache := some (caches.splitCache.getD []) }).1 ≠
          ⟨.ok, some offset, some actualX⟩) ∧
      win32FontSplit p style bytes length x caches =
        win32FontSplitUncached p style bytes length x
          { caches with splitCache := some (caches.splitCache.getD []) }) := by
  unfold win32FontSplit
  dsimp only
  rcases hv : hashmapLookup (· == ·) (caches.splitCache.getD []) (splitKey style bytes length x) with
    _ | value
  · dsimp only
    split
    · rename_i offset actualX caches1 heq
      exact .inr (.inl ⟨rfl, offset, actualX, caches1, heq, rfl⟩)
    · rename_i hnot
      exact .inr (.inr ⟨rfl, fun o a h => hnot o a _ (Prod.ext h rfl), rfl⟩)
  · exact .inl ⟨value, rfl, rfl⟩

end SplitCases

/-! ### What a split reads

A split reads the first `length` bytes only, provided the platform's
`utf8_bounded_byte_length` never answers past the length it was given. -/

theorem getD_take {bytes : List UInt8} {n i : ℕ} (h : i < n) :
    (bytes.take n).getD i 0 = bytes.getD i 0 := by
  simp only [List.getD_eq_getElem?_getD, List.getElem?_take_of_lt h]

theorem scanBackToSpace_le (bytes : List UInt8) (offset : ℕ) : scanBackToSpace bytes offset ≤ offset := by
  induction offset with
  | zero => exact le_refl 0
  | succ offset ih =>
      unfold scanBackToSpace
      split_ifs <;> omega

theorem scanBackToSpace_take (bytes : List UInt8) {n offset : ℕ} (h : offset < n) :
    scanBackToSpace (bytes.take n) offset = scanBackToSpace bytes offset := by
  induction offset with
  | zero => rfl
  | succ offset ih => simp only [scanBackToSpace, getD_take h, ih (by omega)]

theorem scanForwardToSpace_take (bytes : List UInt8) (length fuel offset : ℕ) :
    scanForwardToSpace (bytes.take length) length fuel offset =
      scanForwardToSpace bytes length fuel offset := by
  induction fuel generalizing offset with
  | zero => rfl
  | succ fuel ih =>
      by_cases h : offset < length
      · simp only [scanForwardToSpace, h, true_and, getD_take h, ih]
      · simp only [scanForwardToSpace, h, false_and, if_false]

theorem scanForwardToSpace_le (bytes : List UInt8) {length : ℕ} (fuel : ℕ) {offset : ℕ}
    (h : offset ≤ length) : scanForwardToSpace bytes length fuel offset ≤ length := by
  induction fuel generalizing offset with
  | zero => exact h
  | succ fuel ih =>
      unfold scanForwardToSpace
      split_ifs with hstep
      · exact ih (Nat.succ_le_of_lt hstep.1)
      · exact h

theorem splitOffset_le (bytes : List UInt8) {length cOff : ℕ} (h : cOff ≤ length) :
    splitOffset bytes length cOff ≤ length := by
  unfold splitOffset
  split_ifs
  · exact scanForwardToSpace_le bytes length h
  · exact (scanBackToSpace_le bytes cOff).trans h

theorem splitOffset_take (bytes : List UInt8) {length cOff : ℕ} (h : cOff < length) :
    splitOffset (bytes.take length) length cOff = splitOffset bytes length cOff := by
  simp only [splitOffset, scanBackToSpace_take bytes h, scanForwardToSpace_take]

section Measure

variable (p : Win32Platform) (style : PlotFontStyle)

theorem measureWidth_take (bytes : List UInt8) {length offset : ℕ} (h : offset ≤ length) :
    measureWidth p style (bytes.take length) offset = measureWidth p style bytes offset := by
  simp only [measureWidth, List.take_take, min_eq_left h]

theorem measurePosition_take (bytes : List UInt8) (length : ℕ) (x : Int) :
    measurePosition p style (bytes.take length) length x = measurePosition p style bytes length x := by
  simp only [measurePosition, List.take_take, min_self]

variable {p}

theorem le_of_positionOf_eq_ok (hbound : ∀ str len fit, p.utf8BoundedByteLength str len fit ≤ len)
    {font : Hfont} {bytes : List UInt8} {len : ℕ} {x : Int} {wide : Except NsError (List UInt16)}
    {cOff : ℕ} {actualX : Int} (h : positionOf p font bytes len x wide = .ok (cOff, actualX)) :
    cOff ≤ len := by
  unfold positionOf at h
  split at h
  · cases h
  · split at h
    · split at h
      · cases h
        exact hbound _ _ _
      · cases h
    · cases h

theorem le_of_measurePosition_eq_ok (hbound : ∀ str len fit, p.utf8BoundedByteLength str len fit ≤ len)
    {bytes : List UInt8} {length : ℕ} {x : Int} {cOff : ℕ} {actualX : Int}
    (h : measurePosition p style bytes length x = .ok (cOff, actualX)) : cOff ≤ length := by
  unfold measurePosition at h
  split_ifs at h
  · cases h
    exact Nat.zero_le _
  · exact le_of_positionOf_eq_ok hbound h

/-- A split measures the first `length` bytes only. -/
theorem measureSplit_take (hbound : ∀ str len fit, p.utf8BoundedByteLength str len fit ≤ len)
    (bytes : List UInt8) (length : ℕ) (x : Int) :
    measureSplit p style (bytes.take length) length x = measureSplit p style bytes length x := by
  unfold measureSplit splitUncached
  rw [measurePosition_take]
  rcases hpos : measurePosition p style bytes length x with e | ⟨cOff, actualX⟩
  · rfl
  · have hle := le_of_measurePosition_eq_ok style hbound hpos
    dsimp only
    split_ifs with hlen
    · rfl
    · rw [splitOffset_take bytes (lt_of_le_of_ne hle hlen),
        measureWidth_take p style bytes (splitOffset_le bytes hle)]

end Measure

/-! ### Transparency for styles that list no font families

Without a family list, `select_face_name` depends on the generic family only,
so the font and split keys determine what is measured, and every cache entry is
what the platform computes. -/

section Transparency

variable (p : Win32Platform)

/-- Every cache holds only what the platform computes for a style that lists
no font families: the font `get_font` creates, the wide form of the bytes, the
uncached split. -/
structure CachesSound (caches : TextCaches) : Prop where
  font : AllEntries (fun key value => ∃ style : PlotFontStyle, style.families = [] ∧
    key = fontKey p style ∧ value.font = getFont p style) (caches.fontCache.getD [])
  wstr : AllEntries (fun bytes value => wideString p bytes = .ok value.wstr)
    (caches.wstrCache.getD [])
  split : AllEntries (fun key value => ∃ style bytes length x, style.families = [] ∧
    key = splitKey style bytes length x ∧
    measureSplit p style bytes length x = ⟨.ok, some value.offset, some value.actualX⟩)
    (caches.splitCache.getD [])

theorem cachesSound_initial : CachesSound p .initial :=
  ⟨AllEntries.nil, AllEntries.nil, AllEntries.nil⟩

theorem eq_of_fcKeyEq_fontKey {style style' : PlotFontStyle} (hstyle : style.families = [])
    (hstyle' : style'.families = []) (h : fcKeyEq (fontKey p style) (fontKey p style') = true) :
    style = style' := by
  obtain ⟨families, family, size, weight, flags⟩ := style
  obtain ⟨families', family', size', weight', flags'⟩ := style'
  simp only [fcKeyEq, fontKey, Bool.and_eq_true, decide_eq_true_eq] at h
  obtain ⟨⟨⟨⟨rfl, rfl⟩, rfl⟩, rfl⟩, -⟩ := h
  dsimp only at hstyle hstyle'
  subst hstyle hstyle'
  rfl

theorem eq_of_splitKey_eq {style style' : PlotFontStyle} (hstyle : style.families = [])
    (hstyle' : style'.families = []) {bytes bytes' : List UInt8} {length length' : ℕ} {x x' : Int}
    (h : splitKey style bytes length x = splitKey style' bytes' length' x') :
    style = style' ∧ length = length' ∧ x = x' ∧ bytes.take length = bytes'.take length := by
  obtain ⟨families, family, size, weight, flags⟩ := style
  obtain ⟨families', family', size', weight', flags'⟩ := style'
  simp only [splitKey, SplitKey.mk.injEq] at h
  obtain ⟨rfl, rfl, rfl, rfl, rfl, rfl, htake⟩ := h
  dsimp only at hstyle hstyle'
  subst hstyle hstyle'
  exact ⟨rfl, rfl, rfl, htake⟩

variable {p} {caches : TextCaches} {style : PlotFontStyle}

theorem CachesSound.getCachedFont (hs : CachesSound p caches) (hstyle : style.families = []) :
    (getCachedFont p style caches).1 = getFont p style ∧
      CachesSound p (getCachedFont p style caches).2 := by
  unfold Windows.getCachedFont
  dsimp only
  split
  · rename_i value hv
    obtain ⟨k, hk, style0, hstyle0, rfl, hfont⟩ := hs.font.lookup hv
    obtain rfl := eq_of_fcKeyEq_fontKey p hstyle hstyle0 hk
    refine ⟨hfont, ?_, hs.wstr, hs.split⟩
    dsimp only [Option.getD_some]
    exact hs.font.update _ fun _ _ h => by exact h
  · exact ⟨rfl, (hs.font.insert ⟨style, hstyle, rfl, rfl⟩).evictIfNeeded _ _, hs.wstr, hs.split⟩

theorem CachesSound.getCachedWide (hs : CachesSound p caches) (bytes : List UInt8) :
    (getCachedWide p bytes caches).1 = wideString p bytes ∧
      CachesSound p (getCachedWide p bytes caches).2 := by
  unfold Windows.getCachedWide getCachedWideAlloc
  simp only [WideAlloc.succeed, Bool.not_true, Bool.and_false, Bool.false_eq_true, if_false]
  split_ifs with hbytes
  · subst hbytes
    exact ⟨rfl, hs⟩
  · split
    · rename_i value hv
      obtain ⟨k, hk, hwide⟩ := hs.wstr.lookup hv
      obtain rfl := beq_iff_eq.1 hk
      refine ⟨hwide.symm, hs.font, ?_, hs.split⟩
      dsimp only [Option.getD_some]
      exact hs.wstr.update _ fun _ _ h => by exact h
    · rcases hconv : convertWide p bytes with _ | wide
      · exact ⟨by simp only [wideString, hbytes, hconv, if_false], hs.font, hs.wstr, hs.split⟩
      · have hwide : wideString p bytes = .ok wide := by
          simp only [wideString, hbytes, hconv, if_false]
        exact ⟨hwide.symm, hs.font, (hs.wstr.insert hwide).wstrCacheEvict _ _, hs.split⟩

theorem CachesSound.win32FontWidth (hs : CachesSound p caches) (hstyle : style.families = [])
    (bytes : List UInt8) (len : ℕ) :
    (win32FontWidth p style bytes len caches).1 = measureWidth p style bytes len ∧
      CachesSound p (win32FontWidth p style bytes len caches).2 := by
  unfold Windows.win32FontWidth measureWidth
  split_ifs
  · exact ⟨rfl, hs⟩
  · obtain ⟨hfont, hs1⟩ := hs.getCachedFont hstyle
    obtain ⟨hwide, hs2⟩ := hs1.getCachedWide (bytes.take len)
    exact ⟨by dsimp only; rw [hfont, hwide], hs2⟩

theorem CachesSound.win32FontPosition (hs : CachesSound p caches) (hstyle : style.families = [])
    (bytes : List UInt8) (len : ℕ) (x : Int) :
    (win32FontPosition p style bytes len x caches).1 = measurePosition p style bytes len x ∧
      CachesSound p (win32FontPosition p style bytes len x caches).2 := by
  unfold Windows.win32FontPosition measurePosition
  split_ifs
  · exact ⟨rfl, hs⟩
  · obtain ⟨hfont, hs1⟩ := hs.getCachedFont hstyle
    obtain ⟨hwide, hs2⟩ := hs1.getCachedWide (bytes.take len)
    exact ⟨by dsimp only; rw [hfont, hwide], hs2⟩

/-- The uncached branch answers as the measuring calls it makes answer, whatever
state they thread, as long as each keeps an invariant. -/
theorem splitUncached_sim {σ : Type} (Inv : σ → Prop) {position : σ → Except NsError (ℕ × Int) × σ}
    {width : ℕ → σ → Except NsError Int × σ} {pos : Except NsError (ℕ × Int)}
    {w : ℕ → Except NsError Int}
    (hpos : ∀ s, Inv s → (position s).1 = pos ∧ Inv (position s).2)
    (hwidth : ∀ offset s, Inv s → (width offset s).1 = w offset ∧ Inv (width offset s).2)
    (bytes : List UInt8) (length : ℕ) {s : σ} (hs : Inv s) :
    (splitUncached position width bytes length s).1 =
        (splitUncached (fun _ => (pos, ())) (fun offset _ => (w offset, ())) bytes length ()).1 ∧
      Inv (splitUncached position width bytes length s).2 := by
  obtain ⟨hpos1, hpos2⟩ := hpos s hs
  unfold splitUncached
  rcases hp : position s with ⟨r, s1⟩
  rw [hp] at hpos1 hpos2
  subst hpos1
  rcases r with e | ⟨cOff, actualX⟩
  · exact ⟨rfl, hpos2⟩
  · dsimp only
    split_ifs
    · exact ⟨rfl, hpos2⟩
    · obtain ⟨hw1, hw2⟩ := hwidth (splitOffset bytes length cOff) s1 hpos2
      rcases hw : width (splitOffset bytes length cOff) s1 with ⟨r, s2⟩
      rw [hw] at hw1 hw2
      dsimp only at hw1
      rw [← hw1]
      rcases r with e | v <;> exact ⟨rfl, hw2⟩

theorem CachesSound.win32FontSplitUncached (hs : CachesSound p caches) (hstyle : style.families = [])
    (bytes : List UInt8) (length : ℕ) (x : Int) :
    (win32FontSplitUncached p style bytes length x caches).1 = measureSplit p style bytes length x ∧
      CachesSound p (win32FontSplitUncached p style bytes length x caches).2 :=
  splitUncached_sim (CachesSound p) (fun _ hs => hs.win32FontPosition hstyle bytes length x)
    (fun offset _ hs => hs.win32FontWidth hstyle bytes offset) bytes length hs

theorem CachesSound.win32FontSplit (hbound : ∀ str len fit, p.utf8BoundedByteLength str len fit ≤ len)
    (hs : CachesSound p caches) (hstyle : style.families = []) (bytes : List UInt8) (length : ℕ)
    (x : Int) :
    (win32FontSplit p style bytes length x caches).1 = measureSplit p style bytes length x ∧
      CachesSound p (win32FontSplit p style bytes length x caches).2 := by
  have hs0 : CachesSound p { caches with splitCache := some (caches.splitCache.getD []) } :=
    ⟨hs.font, hs.wstr, hs.split⟩
  rcases win32FontSplit_cases p style bytes length x caches with
    ⟨value, hv, hsplit⟩ | ⟨-, offset, actualX, caches1, hu, hsplit⟩ | ⟨-, -, hsplit⟩ <;> rw [hsplit]
  · obtain ⟨k, hk, style0, bytes0, length0, x0, hstyle0, rfl, hmeasure⟩ := hs.split.lookup hv
    obtain ⟨rfl, rfl, rfl, htake⟩ := eq_of_splitKey_eq hstyle hstyle0 (beq_iff_eq.1 hk)
    refine ⟨?_, hs.font, hs.wstr, ?_⟩
    · symm
      calc measureSplit p style bytes length x
          = measureSplit p style (bytes.take length) length x :=
            (measureSplit_take style hbound _ _ _).symm
        _ = measureSplit p style (bytes0.take length) length x := by rw [htake]
        _ = measureSplit p style bytes0 length x := measureSplit_take style hbound _ _ _
        _ = ⟨.ok, some value.offset, some value.actualX⟩ := hmeasure
    · dsimp only [Option.getD_some]
      exact hs.split.update _ fun _ _ h => by exact h
  · obtain ⟨hr, hs1⟩ := hs0.win32FontSplitUncached hstyle bytes length x
    rw [hu] at hr hs1
    exact ⟨hr, hs1.font, hs1.wstr,
      (hs1.split.insert ⟨style, bytes, length, x, hstyle, rfl, hr.symm⟩).evictIfNeeded _ _⟩
  · exact hs0.win32FontSplitUncached hstyle bytes length x

theorem CachesSound.htmlFontFaceLoadData (hs : CachesSound p caches) (familyName : Option String)
    (data : Option (List UInt8)) : CachesSound p (htmlFontFaceLoadData p familyName data caches).2 := by
  have hflush : CachesSound p (win32FontCachesFlush caches) := ⟨hs.font, AllEntries.nil, AllEntries.nil⟩
  unfold Windows.htmlFontFaceLoadData
  split
  · split_ifs
    · exact hs
    · exact hflush
    · exact hs
  · exact hs

theorem CachesSound.step (hbound : ∀ str len fit, p.utf8BoundedByteLength str len fit ≤ len)
    (hs : CachesSound p caches) {call : TextCall} (hcall : call.FamilyLess) :
    CachesSound p (call.step p caches) := by
  cases call with
  | width style bytes len => exact (hs.win32FontWidth hcall bytes len).2
  | position style bytes len x => exact (hs.win32FontPosition hcall bytes len x).2
  | split style bytes length x => exact (hs.win32FontSplit hbound hcall bytes length x).2
  | loadData familyName data => exact hs.htmlFontFaceLoadData familyName data

end Transparency

/-! ### The family list is not part of the split key

`split_key_t` keeps the generic family, size, weight and flags but not the
style's list of font families, which `select_face_name` resolves to the face
`get_cached_font` keys on.  A style listing an installed `Inter` and one
listing nothing therefore share split entries. -/

/-- Characters are 10 wide in `Inter` and 5 wide in every other font. -/
def charWidth : Hfont → Int
  | .created request => if request.face = "Inter" then 10 else 5
  | _ => 5

/-- A platform where `Inter` is installed and `Arial` is the sans-serif
option. -/
def interPlatform : Win32Platform where
  familyExists name := name = "Inter"
  createFont _ := true
  multiByteToWideChar bytes := bytes.map UInt8.toUInt16
  textExtentExPoint font wide x := some (min wide.length (x / charWidth font).toNat)
  textExtentPoint32 font wide := some (charWidth font * wide.length)
  addFontMemResourceEx _ := true
  utf8BoundedByteLength _ len fit := min len fit
  fontSans := some "Arial"
  fontSerif := none
  fontMono := none
  fontCursive := none
  fontFantasy := none

/-- The bytes of `ab cd`. -/
def abSpaceCd : List UInt8 := [97, 98, 32, 99, 100]

/-- A 12pt sans-serif style listing `Inter`. -/
def interStyle : PlotFontStyle := ⟨["Inter"], .sansSerif, 12, 400, 0⟩

/-- The same style listing no families. -/
def sansStyle : PlotFontStyle := ⟨[], .sansSerif, 12, 400, 0⟩

theorem win32FontSplit_hit_ignores_families :
    (∀ str len fit, interPlatform.utf8BoundedByteLength str len fit ≤ len) ∧
      (win32FontSplit interPlatform sansStyle abSpaceCd 5 40
          (textRun interPlatform [.split interStyle abSpaceCd 5 40] .initial)).1 =
        ⟨.ok, some 2, some 20⟩ ∧
      (win32FontSplitUncached interPlatform sansStyle abSpaceCd 5 40
          (textRun interPlatform [.split interStyle abSpaceCd 5 40] .initial)).1 =
        ⟨.ok, some 5, some 25⟩ :=
  ⟨fun _ len _ => Nat.min_le_left len _, by decide⟩

end Windows
end Neosurf
