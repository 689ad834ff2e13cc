import Neosurf.Win32CacheEviction

/-!
# The byte total of the win32 string cache

`wstr_cache` of `windows/font.c` (`src/unnamed/part_005`) keeps the UTF-16
form of each string `get_cached_wide` converts, and `wstr_total_bytes` counts
the bytes of those buffers.  After an insertion `wstr_cache_evict_if_needed`
removes the oldest entries while the total is past `WSTR_CACHE_MAX_BYTES`.

`WstrAccounting` holds in every state that a run of `get_cached_wide` and
`win32_font_caches_flush` calls reaches, whichever of its allocations fail:
the total is the sum of the entries' bytes and within the bound
(`wideRun_accounting`); the text calls reach the cache only through
`get_cached_wide`, so their runs keep it too (`WstrAccounting.textRun`).  The
eviction loop stops only once the total fits, so an entry larger than the
bound is removed by the very call that inserts it, which still returns its
buffer (`getCachedWideAlloc_entry_iff`, `getCachedWide_oversized`).
-/

namespace Neosurf
namespace Windows

/-- The sum of the `bytes` fields of the entries. -/
def wstrBytes : List (List UInt8 × WstrValue) → ℕ
  | [] => 0
  | entry :: rest => entry.2.bytes + wstrBytes rest

theorem le_wstrBytes {cache : List (List UInt8 × WstrValue)} {e : List UInt8 × WstrValue}
    (he : e ∈ cache) : e.2.bytes ≤ wstrBytes cache := by
  induction cache with
  | nil => cases he
  | cons x xs ih =>
      rcases List.mem_cons.1 he with rfl | he
      · exact Nat.le_add_right _ _
      · exact (ih he).trans (Nat.le_add_left _ _)

theorem wstrBytes_erase {cache : List (List UInt8 × WstrValue)} {e : List UInt8 × WstrValue}
    (he : e ∈ cache) : wstrBytes (cache.erase e) + e.2.bytes = wstrBytes cache := by
  induction cache with
  | nil => cases he
  | cons x xs ih =>
      by_cases hxe : x = e
      · subst hxe
        rw [List.erase_cons_head, wstrBytes, Nat.add_comm]
      · have he' : e ∈ xs := (List.mem_cons.1 he).resolve_left (Ne.symm hxe)
        rw [List.erase_cons_tail (by simpa using hxe), wstrBytes, wstrBytes, ← ih he']
        omega

theorem wstrBytes_eq_zero {cache : List (List UInt8 × WstrValue)} (h : ∀ e ∈ cache, False) :
    wstrBytes cache = 0 := by
  cases cache with
  | nil => rfl
  | cons x xs => exact (h x (List.mem_cons_self _ _)).elim

/-! ### The eviction loop -/

section Evict

variable {counter : ℕ} {cache : List (List UInt8 × WstrValue)}

/-- With the total right and a step per entry, the loop leaves a sublist
whose total is right and within the bound. -/
theorem wstrCacheEvict_spec : ∀ (fuel : ℕ) (cache : List (List UInt8 × WstrValue)) (total : ℕ),
    Stamped (· == ·) (·.gen) counter cache → total = wstrBytes cache → cache.length ≤ fuel →
      (wstrCacheEvict fuel cache total).1.Sublist cache ∧
        (wstrCacheEvict fuel cache total).2 = wstrBytes (wstrCacheEvict fuel cache total).1 ∧
        (wstrCacheEvict fuel cache total).2 ≤ wstrCacheMaxBytes
  | 0, cache, total, _, ht, hl => by
      obtain rfl : cache = [] := List.eq_nil_of_length_eq_zero (by omega)
      exact ⟨.refl _, ht, by rw [ht]; exact Nat.zero_le _⟩
  | fuel + 1, cache, total, hs, ht, hl => by
      unfold wstrCacheEvict
      split_ifs with hmax
      · have hne : cache ≠ [] := by rintro rfl; simp [wstrBytes] at ht; omega
        obtain ⟨o, ho⟩ : ∃ o, oldestEntry (·.gen) cache = some o := oldestEntry_isSome hne
        have hmem := (oldestEntry_spec ho).1
        rw [ho]
        dsimp only
        rw [hashmapRemove_eq_erase keyEquiv_beq hs.keys hmem]
        have hsum := wstrBytes_erase hmem
        have hlen := List.length_erase_of_mem hmem
        obtain ⟨hsub, htot, hle⟩ := wstrCacheEvict_spec fuel (cache.erase o) (total - o.2.bytes)
          (hs.sublist (List.erase_sublist _ _)) (by omega) (by omega)
        exact ⟨hsub.trans (List.erase_sublist _ _), htot, hle⟩
      · exact ⟨.refl _, ht, by omega⟩

/-- An entry newer than all others and within the bound survives the loop:
the loop would reach it only with nothing else left. -/
theorem mem_wstrCacheEvict {e : List UInt8 × WstrValue} (hbytes : e.2.bytes ≤ wstrCacheMaxBytes) :
    ∀ (fuel : ℕ) (cache : List (List UInt8 × WstrValue)) (total : ℕ),
      Stamped (· == ·) (·.gen) counter cache → total = wstrBytes cache → e ∈ cache →
      (∀ x ∈ cache, x ≠ e → x.2.gen < e.2.gen) → e ∈ (wstrCacheEvict fuel cache total).1
  | 0, _, _, _, _, he, _ => he
  | fuel + 1, cache, total, hs, ht, he, hnew => by
      unfold wstrCacheEvict
      split_ifs with hmax
      · obtain ⟨o, ho⟩ : ∃ o, oldestEntry (·.gen) cache = some o :=
          oldestEntry_isSome (List.ne_nil_of_mem he)
        obtain ⟨hmem, hmin⟩ := oldestEntry_spec ho
        have hnodup := hs.nodup keyEquiv_beq
        have hoe : o ≠ e := by
          rintro rfl
          have hrest : wstrBytes (cache.erase o) = 0 := wstrBytes_eq_zero fun x hx => by
            have hxo := (hnodup.mem_erase_iff).1 hx
            exact absurd (hmin x hxo.2) (not_le.2 (hnew x hxo.2 hxo.1))
          have := wstrBytes_erase hmem
          omega
        rw [ho]
        dsimp only
        rw [hashmapRemove_eq_erase keyEquiv_beq hs.keys hmem]
        have hsum := wstrBytes_erase hmem
        exact mem_wstrCacheEvict hbytes fuel (cache.erase o) (total - o.2.bytes)
          (hs.sublist (List.erase_sublist _ _)) (by omega) ((hnodup.mem_erase_iff).2 ⟨hoe.symm, he⟩)
          fun x hx hxe => hnew x ((List.erase_sublist _ _).subset hx) hxe
      · exact he

/-- An entry past the bound does not survive the loop, nor does any other
entry of its key. -/
theorem hashmapLookup_wstrCacheEvict_eq_none {fuel total : ℕ}
    (hs : Stamped (· == ·) (·.gen) counter cache) (ht : total = wstrBytes cache) (hl : cache.length ≤ fuel)
    {e : List UInt8 × WstrValue} (he : e ∈ cache) (hbig : wstrCacheMaxBytes < e.2.bytes) :
    hashmapLookup (· == ·) (wstrCacheEvict fuel cache total).1 e.1 = none := by
  obtain ⟨hsub, htot, hle⟩ := wstrCacheEvict_spec fuel cache total hs ht hl
  unfold hashmapLookup
  rw [Option.map_eq_none', List.find?_eq_none]
  intro x hx hkey
  have hxc := hsub.subset hx
  have hxe : x = e := by
    by_contra hne
    exact Bool.false_ne_true ((hs.key_ne keyEquiv_beq he hxc (Ne.symm hne)).symm.trans hkey)
  subst hxe
  have := le_wstrBytes hx
  omega

end Evict

/-! ### The invariant -/

/-- The invariant of the string cache: its entries are stamped, each holds
`2 * wclen` bytes, their bytes add up to `wstr_total_bytes`, and that total is
within the bound. -/
structure WstrAccounting (caches : TextCaches) : Prop where
  stamped : Stamped (· == ·) (·.gen) caches.wstrGen (caches.wstrCache.getD [])
  sizes : AllEntries (fun _ value => value.bytes = 2 * value.wstr.length) (caches.wstrCache.getD [])
  total : caches.wstrTotalBytes = wstrBytes (caches.wstrCache.getD [])
  bound : caches.wstrTotalBytes ≤ wstrCacheMaxBytes

theorem wstrAccounting_initial : WstrAccounting .initial :=
  ⟨stamped_nil _, AllEntries.nil, rfl, Nat.zero_le _⟩

/-- Two states agree on the string cache, its counter and its total. -/
def SameWstr (caches caches' : TextCaches) : Prop :=
  caches'.wstrCache = caches.wstrCache ∧ caches'.wstrGen = caches.wstrGen ∧
    caches'.wstrTotalBytes = caches.wstrTotalBytes

section Calls

variable (p : Win32Platform) {caches : TextCaches}

theorem WstrAccounting.of_sameWstr {caches' : TextCaches} (h : WstrAccounting caches)
    (hsame : SameWstr caches caches') : WstrAccounting caches' := by
  obtain ⟨hc, hg, ht⟩ := hsame
  exact ⟨hc ▸ hg ▸ h.stamped, hc ▸ h.sizes, hc ▸ ht ▸ h.total, ht ▸ h.bound⟩

theorem WstrAccounting.flush (_ : WstrAccounting caches) : WstrAccounting (win32FontCachesFlush caches) :=
  ⟨stamped_nil _, AllEntries.nil, rfl, Nat.zero_le _⟩

theorem wstrBytes_update (cache : List (List UInt8 × WstrValue)) (key : List UInt8)
    {f : WstrValue → WstrValue} (hf : ∀ v, (f v).bytes = v.bytes) :
    wstrBytes (hashmapUpdate (· == ·) cache key f) = wstrBytes cache := by
  induction cache with
  | nil => rfl
  | cons x xs ih =>
      simp only [hashmapUpdate, List.map_cons, wstrBytes] at ih ⊢
      rw [ih]
      split_ifs <;> simp only [hf]

/-- The map `get_cached_wide` inserts into on a miss is stamped with the next
generation, its bytes add up to the total after the addition, and it has one
entry more. -/
theorem WstrAccounting.insert (h : WstrAccounting caches) {bytes : List UInt8}
    (hv : hashmapLookup (· == ·) (caches.wstrCache.getD []) bytes = none) (wide : List UInt16) :
    Stamped (· == ·) (·.gen) (caches.wstrGen + 1) (hashmapInsert (· == ·) (caches.wstrCache.getD []) bytes
        ⟨wide, 2 * wide.length, caches.wstrGen + 1⟩) ∧
      caches.wstrTotalBytes + 2 * wide.length = wstrBytes (hashmapInsert (· == ·)
        (caches.wstrCache.getD []) bytes ⟨wide, 2 * wide.length, caches.wstrGen + 1⟩) ∧
      (hashmapInsert (· == ·) (caches.wstrCache.getD []) bytes
        ⟨wide, 2 * wide.length, caches.wstrGen + 1⟩).length = (caches.wstrCache.getD []).length + 1 := by
  have hrem := hashmapRemove_of_lookup_eq_none hv
  refine ⟨h.stamped.insert bytes rfl, ?_, ?_⟩
  · rw [hashmapInsert, hrem, wstrBytes, h.total]
    dsimp only
    omega
  · rw [hashmapInsert, hrem]
    rfl

/-- `get_cached_wide` keeps the invariant, whichever allocations fail. -/
theorem WstrAccounting.getCachedWideAlloc (h : WstrAccounting caches) (alloc : WideAlloc)
    (bytes : List UInt8) : WstrAccounting (getCachedWideAlloc p alloc bytes caches).2 := by
  rcases getCachedWideAlloc_cases p alloc bytes caches with hst | hst | ⟨_, -, hst⟩ | ⟨wide, hv, hst⟩ <;>
    rw [hst]
  · exact h
  · exact ⟨h.stamped, h.sizes, h.total, h.bound⟩
  · refine ⟨?_, ?_, ?_, h.bound⟩ <;> dsimp only [Option.getD_some]
    · exact h.stamped.update keyEquiv_beq _ fun _ => rfl
    · exact h.sizes.update _ fun _ _ hv => hv
    · refine h.total.trans (wstrBytes_update _ _ ?_).symm
      exact fun _ => rfl
  · obtain ⟨hins, hsum, hlen⟩ := h.insert hv wide
    obtain ⟨hsub, htot, hle⟩ := wstrCacheEvict_spec _ _ _ hins hsum hlen.le
    exact ⟨hins.sublist hsub, (h.sizes.insert rfl).wstrCacheEvict _ _, htot, hle⟩

/-- A hit answers the cached buffer and re-stamps its entry. -/
theorem getCachedWideAlloc_hit {alloc : WideAlloc} {bytes : List UInt8} (hb : bytes ≠ [])
    {value : WstrValue} (hv : hashmapLookup (· == ·) (caches.wstrCache.getD []) bytes = some value) :
    getCachedWideAlloc p alloc bytes caches =
      (.ok value.wstr, { caches with
        wstrCache := some (hashmapUpdate (· == ·) (caches.wstrCache.getD []) bytes
          fun v => { v with gen := caches.wstrGen + 1 }),
        wstrGen := caches.wstrGen + 1 }) := by
  have hcreated : caches.wstrCache.isNone = false := by
    rcases hc : caches.wstrCache with _ | cache
    · rw [hc] at hv
      cases hv
    · rfl
  unfold Windows.getCachedWideAlloc
  rw [if_neg hb, hcreated, Bool.false_and, if_neg Bool.false_ne_true]
  dsimp only
  rw [hv]

/-- The bytes of an entry a lookup finds are at most the total. -/
theorem WstrAccounting.bytes_le (h : WstrAccounting caches) {bytes : List UInt8} {value : WstrValue}
    (hv : hashmapLookup (· == ·) (caches.wstrCache.getD []) bytes = some value) :
    2 * value.wstr.length ≤ wstrCacheMaxBytes := by
  have hall : AllEntries (fun _ v => v.bytes ≤ wstrBytes (caches.wstrCache.getD []))
      (caches.wstrCache.getD []) := fun _ he => le_wstrBytes he
  obtain ⟨k, -, hle⟩ := hall.lookup hv
  obtain ⟨k', -, hsize⟩ := h.sizes.lookup hv
  have := h.bound
  rw [h.total] at this
  omega

/-- A miss `get_cached_wide` answers `NSERROR_OK`: the bytes are converted
and inserted, after every allocation succeeded. -/
theorem getCachedWideAlloc_miss_ok {alloc : WideAlloc} {bytes : List UInt8} (hb : bytes ≠ [])
    (hv : hashmapLookup (· == ·) (caches.wstrCache.getD []) bytes = none) {wide : List UInt16}
    (hok : (getCachedWideAlloc p alloc bytes caches).1 = .ok wide) :
    convertWide p bytes = some wide ∧
      (getCachedWideAlloc p alloc bytes caches).2.wstrCache =
        some (wstrCacheEvict ((caches.wstrCache.getD []).length + 1)
          (hashmapInsert (· == ·) (caches.wstrCache.getD []) bytes ⟨wide, 2 * wide.length, caches.wstrGen + 1⟩)
          (caches.wstrTotalBytes + 2 * wide.length)).1 := by
  unfold Windows.getCachedWideAlloc at hok ⊢
  rw [if_neg hb] at hok ⊢
  by_cases hcreate : (caches.wstrCache.isNone && !alloc.createOk) = true
  · rw [if_pos hcreate] at hok
    cases hok
  rw [if_neg hcreate] at hok ⊢
  dsimp only at hok ⊢
  rw [hv] at hok ⊢
  dsimp only at hok ⊢
  by_cases hbuf : (!alloc.bufferOk) = true
  · rw [if_pos hbuf] at hok
    cases hok
  rw [if_neg hbuf] at hok ⊢
  rcases hconv : convertWide p bytes with _ | w <;> rw [hconv] at hok
  · cases hok
  dsimp only at hok ⊢
  by_cases hins : (!alloc.insertOk) = true
  · rw [if_pos hins] at hok
    cases hok
  rw [if_neg hins] at hok ⊢
  cases hok
  exact ⟨rfl, rfl⟩

/-- With every allocation succeeding, a miss whose conversion succeeds answers
`NSERROR_OK` with the converted buffer. -/
theorem getCachedWide_miss {bytes : List UInt8} (hb : bytes ≠ [])
    (hv : hashmapLookup (· == ·) (caches.wstrCache.getD []) bytes = none) {wide : List UInt16}
    (hc : convertWide p bytes = some wide) :
    (getCachedWide p bytes caches).1 = .ok wide := by
  unfold Windows.getCachedWide Windows.getCachedWideAlloc
  simp only [WideAlloc.succeed, Bool.not_true, Bool.and_false, Bool.false_eq_true, if_false, if_neg hb]
  rw [hv]
  dsimp only
  rw [hc]

/-- An `NSERROR_OK` answer for a string whose UTF-16 form is past the bound
leaves no entry for it: the buffer returned has been evicted and freed. -/
theorem getCachedWideAlloc_lookup_eq_none (h : WstrAccounting caches) {alloc : WideAlloc}
    {bytes : List UInt8} (hb : bytes ≠ []) {wide : List UInt16}
    (hok : (getCachedWideAlloc p alloc bytes caches).1 = .ok wide)
    (hbig : wstrCacheMaxBytes < 2 * wide.length) :
    hashmapLookup (· == ·) ((getCachedWideAlloc p alloc bytes caches).2.wstrCache.getD []) bytes = none := by
  rcases hv : hashmapLookup (· == ·) (caches.wstrCache.getD []) bytes with _ | value
  · rw [(getCachedWideAlloc_miss_ok p hb hv hok).2, Option.getD_some]
    obtain ⟨hins, hsum, hlen⟩ := h.insert hv wide
    exact hashmapLookup_wstrCacheEvict_eq_none hins hsum hlen.le (List.mem_cons_self _ _) hbig
  · rw [getCachedWideAlloc_hit p hb hv] at hok
    cases hok
    exact absurd (h.bytes_le hv) (not_le.2 hbig)

/-- When `get_cached_wide` answers `NSERROR_OK` for non-empty bytes, the cache
afterwards holds an entry for them with the buffer it returned exactly when
that buffer is within the bound. -/
theorem getCachedWideAlloc_entry_iff (h : WstrAccounting caches) {alloc : WideAlloc}
    {bytes : List UInt8} (hb : bytes ≠ []) {wide : List UInt16}
    (hok : (getCachedWideAlloc p alloc bytes caches).1 = .ok wide) :
    (∃ v, hashmapLookup (· == ·) ((getCachedWideAlloc p alloc bytes caches).2.wstrCache.getD []) bytes =
        some v ∧ v.wstr = wide) ↔ 2 * wide.length ≤ wstrCacheMaxBytes := by
  constructor
  · rintro ⟨v, hv, -⟩
    by_contra hbig
    rw [getCachedWideAlloc_lookup_eq_none p h hb hok (not_le.1 hbig)] at hv
    cases hv
  · intro hfit
    rcases hv : hashmapLookup (· == ·) (caches.wstrCache.getD []) bytes with _ | value
    · rw [(getCachedWideAlloc_miss_ok p hb hv hok).2, Option.getD_some]
      obtain ⟨hins, hsum, hlen⟩ := h.insert hv wide
      have hkeep := mem_wstrCacheEvict
        (show (bytes, (⟨wide, 2 * wide.length, caches.wstrGen + 1⟩ : WstrValue)).2.bytes ≤
          wstrCacheMaxBytes from hfit) ((caches.wstrCache.getD []).length + 1) _ _ hins hsum (List.mem_cons_self _ _) fun x hx hxe => by
            have hx' := (List.mem_cons.1 hx).resolve_left hxe
            have := h.stamped.bounded x ((List.filter_sublist _).subset hx')
            show x.2.gen < caches.wstrGen + 1
            omega
      exact ⟨_, hashmapLookup_of_sublist_insert keyEquiv_beq
        (wstrCacheEvict_spec _ _ _ hins hsum hlen.le).1 hkeep, rfl⟩
    · rw [getCachedWideAlloc_hit p hb hv] at hok ⊢
      cases hok
      refine ⟨{ value with gen := caches.wstrGen + 1 }, ?_, rfl⟩
      rw [Option.getD_some, hashmapLookup_update, hv]
      rfl

/-- `a` from the empty cache: its one-unit buffer is within the bound and stays cached. -/
theorem getCachedWideAlloc_entry_iff_a :
    WstrAccounting TextCaches.initial ∧ [(97 : UInt8)] ≠ [] ∧
      (getCachedWideAlloc interPlatform .succeed [97] .initial).1 = .ok [97] ∧
      ((∃ v, hashmapLookup (· == ·)
          ((getCachedWideAlloc interPlatform .succeed [97] .initial).2.wstrCache.getD []) [97] =
          some v ∧ v.wstr = [97]) ↔ 2 * [(97 : UInt16)].length ≤ wstrCacheMaxBytes) :=
  ⟨wstrAccounting_initial, List.cons_ne_nil _ _, rfl,
    getCachedWideAlloc_entry_iff interPlatform wstrAccounting_initial (List.cons_ne_nil _ _) rfl⟩

/-! The text calls reach the string cache only through `get_cached_wide`, so
they keep the invariant too. -/

theorem getCachedFont_sameWstr (style : PlotFontStyle) (caches : TextCaches) :
    SameWstr caches (getCachedFont p style caches).2 := by
  unfold getCachedFont
  dsimp only
  split <;> exact ⟨rfl, rfl, rfl⟩

theorem WstrAccounting.win32FontWidth (h : WstrAccounting caches) (style : PlotFontStyle)
    (bytes : List UInt8) (len : ℕ) : WstrAccounting (win32FontWidth p style bytes len caches).2 := by
  unfold Windows.win32FontWidth
  split_ifs
  · exact h
  · exact (h.of_sameWstr (getCachedFont_sameWstr p style caches)).getCachedWideAlloc p _ _

theorem WstrAccounting.win32FontPosition (h : WstrAccounting caches) (style : PlotFontStyle)
    (bytes : List UInt8) (len : ℕ) (x : Int) :
    WstrAccounting (win32FontPosition p style bytes len x caches).2 := by
  unfold Windows.win32FontPosition
  split_ifs
  · exact h
  · exact (h.of_sameWstr (getCachedFont_sameWstr p style caches)).getCachedWideAlloc p _ _

theorem WstrAccounting.win32FontSplit (h : WstrAccounting caches) (style : PlotFontStyle)
    (bytes : List UInt8) (length : ℕ) (x : Int) :
    WstrAccounting (win32FontSplit p style bytes length x caches).2 := by
  have hr := splitUncached_inv WstrAccounting (fun _ hs => hs.win32FontPosition p style bytes length x)
    (fun offset _ hs => hs.win32FontWidth p style bytes offset) bytes length
    (h.of_sameWstr ⟨rfl, rfl, rfl⟩ : WstrAccounting { caches with splitCache := some (caches.splitCache.getD []) })
  unfold win32FontSplitUncached at hr
  rcases win32FontSplit_cases p style bytes length x caches with
    ⟨_, -, hsplit⟩ | ⟨-, _, _, _, hu, hsplit⟩ | ⟨-, -, hsplit⟩ <;> rw [hsplit]
  · exact h.of_sameWstr ⟨rfl, rfl, rfl⟩
  · unfold win32FontSplitUncached at hu
    rw [hu] at hr
    exact hr.of_sameWstr ⟨rfl, rfl, rfl⟩
  · exact hr

end Calls

/-- Eight mebibytes of `a` and one byte more, from the empty cache: the answer
is `NSERROR_OK` with the whole UTF-16 buffer, 16777218 bytes, past
`WSTR_CACHE_MAX_BYTES`, and the cache afterwards has no entry for the string,
so the buffer handed out is the one `wc_value_destroy` freed. -/
theorem getCachedWide_oversized :
    (getCachedWide interPlatform (List.replicate 8388609 97) .initial).1 =
      .ok (List.replicate 8388609 97) ∧
    hashmapLookup (· == ·)
        ((getCachedWide interPlatform (List.replicate 8388609 97) .initial).2.wstrCache.getD [])
        (List.replicate 8388609 97) = none := by
  have hb : List.replicate 8388609 (97 : UInt8) ≠ [] := by
    rw [Ne, List.replicate_eq_nil_iff]
    omega
  have hmb : interPlatform.multiByteToWideChar (List.replicate 8388609 97) =
      List.replicate 8388609 97 := by
    show List.map _ _ = _
    rw [List.map_replicate]
    rfl
  have hc : convertWide interPlatform (List.replicate 8388609 97) =
      some (List.replicate 8388609 97) := by
    rw [convertWide, hmb, if_neg]
    rw [List.replicate_eq_nil_iff, List.length_replicate, List.length_replicate]
    omega
  have hv : hashmapLookup (· == ·) (TextCaches.initial.wstrCache.getD [])
      (List.replicate 8388609 (97 : UInt8)) = none := rfl
  have hok : (getCachedWide interPlatform (List.replicate 8388609 97) .initial).1 =
      .ok (List.replicate 8388609 97) := getCachedWide_miss interPlatform hb hv hc
  unfold getCachedWide at hok ⊢
  exact ⟨hok, getCachedWideAlloc_lookup_eq_none interPlatform wstrAccounting_initial hb hok
    (by rw [List.length_replicate]; decide)⟩

/-! ### Runs -/

/-- A call into the string cache: `get_cached_wide`, with the outcome of each
of its allocations, or `win32_font_caches_flush`. -/
inductive WideCall
  | get (alloc : WideAlloc) (bytes : List UInt8)
  | flush
  deriving DecidableEq, Repr

/-- The caches after one call. -/
def WideCall.step (p : Win32Platform) : WideCall → TextCaches → TextCaches
  | .get alloc bytes, caches => (getCachedWideAlloc p alloc bytes caches).2
  | .flush, caches => win32FontCachesFlush caches

/-- The caches after a sequence of calls. -/
def wideRun (p : Win32Platform) (calls : List WideCall) (caches : TextCaches) : TextCaches :=
  calls.foldl (fun caches call => call.step p caches) caches

section Runs

variable {p : Win32Platform} {caches : TextCaches}

theorem WstrAccounting.step (h : WstrAccounting caches) (call : WideCall) :
    WstrAccounting (call.step p caches) := by
  cases call with
  | get alloc bytes => exact h.getCachedWideAlloc p alloc bytes
  | flush => exact h.flush

theorem WstrAccounting.wideRun (h : WstrAccounting caches) (calls : List WideCall) :
    WstrAccounting (wideRun p calls caches) := by
  induction calls generalizing caches with
  | nil => exact h
  | cons call calls ih => exact ih (h.step call)

theorem WstrAccounting.textRun (h : WstrAccounting caches) (calls : List TextCall) :
    WstrAccounting (textRun p calls caches) := by
  induction calls generalizing caches with
  | nil => exact h
  | cons call calls ih =>
      refine ih ?_
      cases call with
      | width style bytes len => exact h.win32FontWidth p style bytes len
      | position style bytes len x => exact h.win32FontPosition p style bytes len x
      | split style bytes length x => exact h.win32FontSplit p style bytes length x
      | loadData familyName data =>
          show WstrAccounting (htmlFontFaceLoadData p familyName data caches).2
          unfold htmlFontFaceLoadData
          split
          · split_ifs
            exacts [h, h.flush, h]
          · exact h

end Runs

/-- Over every run of `get_cached_wide` and `win32_font_caches_flush` calls,
whichever allocations fail, `wstr_total_bytes` is the sum of the entries'
bytes and within `WSTR_CACHE_MAX_BYTES`. -/
theorem wideRun_accounting (p : Win32Platform) (calls : List WideCall) :
    (wideRun p calls .initial).wstrTotalBytes = wstrBytes ((wideRun p calls .initial).wstrCache.getD []) ∧
      (wideRun p calls .initial).wstrTotalBytes ≤ wstrCacheMaxBytes := by
  have h : WstrAccounting (wideRun p calls .initial) := wstrAccounting_initial.wideRun calls
  exact ⟨h.total, h.bound⟩

end Windows
end Neosurf
