import Mathlib.Data.List.Pairwise
import Neosurf.Win32CacheKeys

/-!
# Generation-ordered eviction of the win32 caches

`split_cache` and `font_cache` of `windows/font.c` (`src/unnamed/part_005`)
stamp every entry with a generation, taken from a counter that each hit and
each insertion advances, and once past their bound remove the entry of least
generation until three quarters of the bound are left.

Over a key comparison that is an equivalence (`KeyEquiv`), `Stamped` holds of
every map the calls build: keys pairwise unequal, stamps pairwise distinct and
none past the counter.  On a stamped map one eviction pass removes exactly the
entries of least stamp (`evictIfNeeded_dropsOldest`), so the entry the current
call stamped stays.  Over every run of `win32_font_split`, `get_cached_font`
and `win32_font_caches_flush` calls both caches stay stamped and within their
bounds, and every pass a call makes is of this kind (`cacheRun_eviction`).
-/

namespace Neosurf
namespace Windows

/-- A key comparison that is an equivalence, as `fc_key_eq` and the equality
of split keys are. -/
structure KeyEquiv {K : Type} (eq : K → K → Bool) : Prop where
  refl : ∀ k, eq k k = true
  symm : ∀ a b, eq a b = eq b a
  trans : ∀ a b c, eq a b = true → eq b c = true → eq a c = true

/-! ### Stamped maps -/

section Stamped

variable {K V : Type} {eq : K → K → Bool} {gen : V → ℕ}

/-- The invariant of a generation-stamped hashmap: no two keys compare equal,
no two entries share a stamp, and no stamp is past the counter. -/
structure Stamped (eq : K → K → Bool) (gen : V → ℕ) (counter : ℕ) (map : List (K × V)) : Prop where
  keys : map.Pairwise fun a b => eq a.1 b.1 = false
  stamps : map.Pairwise fun a b => gen a.2 ≠ gen b.2
  bounded : ∀ e ∈ map, gen e.2 ≤ counter

/-- `after` is `before` without its `n` entries of least stamp. -/
def DropsOldest (gen : V → ℕ) (n : ℕ) (before after : List (K × V)) : Prop :=
  after.Sublist before ∧ after.length + n = before.length ∧
    ∀ x ∈ before, x ∉ after → ∀ k ∈ after, gen x.2 < gen k.2

theorem stamped_nil (counter : ℕ) : Stamped eq gen counter [] :=
  ⟨.nil, .nil, fun _ h => nomatch h⟩

variable {counter : ℕ} {map : List (K × V)}

theorem Stamped.sublist (h : Stamped eq gen counter map) {map' : List (K × V)}
    (hsub : map'.Sublist map) : Stamped eq gen counter map' :=
  ⟨h.keys.sublist hsub, h.stamps.sublist hsub, fun e he => h.bounded e (hsub.subset he)⟩

theorem Stamped.nodup (heq : KeyEquiv eq) (h : Stamped eq gen counter map) : map.Nodup :=
  h.keys.imp fun {a b} hab hne => by rw [← hne, heq.refl] at hab; cases hab

theorem Stamped.stamp_ne (h : Stamped eq gen counter map) {a b : K × V} (ha : a ∈ map) (hb : b ∈ map)
    (hne : a ≠ b) : gen a.2 ≠ gen b.2 :=
  h.stamps.forall (fun _ _ h' => Ne.symm h') ha hb hne

theorem Stamped.key_ne (heq : KeyEquiv eq) (h : Stamped eq gen counter map) {a b : K × V}
    (ha : a ∈ map) (hb : b ∈ map) (hne : a ≠ b) : eq a.1 b.1 = false :=
  h.keys.forall (fun x y hxy => by rw [heq.symm]; exact hxy) ha hb hne

theorem oldestEntry_isSome {map : List (K × V)} (h : map ≠ []) :
    ∃ e, oldestEntry gen map = some e := by
  obtain ⟨y, ys, rfl⟩ := List.exists_cons_of_ne_nil h
  unfold oldestEntry
  split
  · split_ifs
    exacts [⟨_, rfl⟩, ⟨_, rfl⟩]
  · exact ⟨y, rfl⟩

theorem oldestEntry_eq_none {map : List (K × V)} (h : oldestEntry gen map = none) : map = [] := by
  by_contra hne
  obtain ⟨o, ho⟩ : ∃ o, oldestEntry gen map = some o := oldestEntry_isSome hne
  rw [ho] at h
  cases h

/-- The entry the `*_iter_oldest_cb` callbacks settle on is an entry of least
stamp. -/
theorem oldestEntry_spec {map : List (K × V)} {e : K × V} (h : oldestEntry gen map = some e) :
    e ∈ map ∧ ∀ x ∈ map, gen e.2 ≤ gen x.2 := by
  induction map generalizing e with
  | nil => cases h
  | cons y ys ih =>
      unfold oldestEntry at h
      rcases hrest : oldestEntry gen ys with _ | o <;> rw [hrest] at h
      · cases h
        rw [oldestEntry_eq_none hrest]
        exact ⟨List.mem_singleton_self _, fun x hx => List.mem_singleton.1 hx ▸ le_rfl⟩
      · obtain ⟨hmem, hmin⟩ := ih hrest
        dsimp only at h
        split at h <;> cases h
        · rename_i hlt
          exact ⟨List.mem_cons_of_mem _ hmem, List.forall_mem_cons.2 ⟨le_of_lt hlt, hmin⟩⟩
        · rename_i hlt
          exact ⟨List.mem_cons_self _ _,
            List.forall_mem_cons.2 ⟨le_rfl, fun x hx => (not_lt.1 hlt).trans (hmin x hx)⟩⟩

/-- A pass that keeps some entry keeps the newest. -/
theorem DropsOldest.mem_of_newest {n : ℕ} {before after : List (K × V)}
    (h : DropsOldest gen n before after) (hn : n < before.length) {e : K × V} (he : e ∈ before)
    (hnew : ∀ k ∈ before, k ≠ e → gen k.2 < gen e.2) : e ∈ after := by
  by_contra hnot
  obtain ⟨k, hk⟩ := List.exists_mem_of_length_pos (show 0 < after.length by have := h.2.1; omega)
  have hke : k ≠ e := fun h' => hnot (h' ▸ hk)
  exact absurd (h.2.2 e he hnot k hk) (not_lt.2 (le_of_lt (hnew k (h.1.subset hk) hke)))

theorem evictIfNeeded_of_le {maxEntries : ℕ} (hc : map.length ≤ maxEntries) :
    evictIfNeeded eq gen maxEntries map = map :=
  if_pos hc

theorem evictOldest_sublist : ∀ n (map : List (K × V)), (evictOldest eq gen n map).Sublist map
  | 0, _ => .refl _
  | n + 1, map => by
      unfold evictOldest
      split
      · exact (evictOldest_sublist n _).trans (List.filter_sublist _)
      · exact .refl _

theorem evictIfNeeded_sublist (maxEntries : ℕ) (map : List (K × V)) :
    (evictIfNeeded eq gen maxEntries map).Sublist map := by
  unfold evictIfNeeded
  split_ifs
  exacts [.refl _, evictOldest_sublist _ _]

/-- An insertion stamped with the next generation keeps the map stamped. -/
theorem Stamped.insert (hs : Stamped eq gen counter map) (key : K) {value : V}
    (hv : gen value = counter + 1) : Stamped eq gen (counter + 1) (hashmapInsert eq map key value) := by
  have hsub : (hashmapRemove eq map key).Sublist map := List.filter_sublist _
  have hrest := hs.sublist hsub
  refine ⟨List.pairwise_cons.2 ⟨fun e he => ?_, hrest.keys⟩,
    List.pairwise_cons.2 ⟨fun e he => ?_, hrest.stamps⟩, fun e he => ?_⟩
  · simpa using (List.mem_filter.1 he).2
  · have := hs.bounded e (hsub.subset he)
    dsimp only
    omega
  · rcases List.mem_cons.1 he with rfl | he
    · exact hv.le
    · exact (hs.bounded e (hsub.subset he)).trans (Nat.le_succ _)

/-- A hit re-stamped with the next generation keeps the map stamped: with keys
pairwise unequal under an equivalence, at most one entry matches. -/
theorem Stamped.update (heq : KeyEquiv eq) (hs : Stamped eq gen counter map) (key : K) {f : V → V}
    (hf : ∀ v, gen (f v) = counter + 1) : Stamped eq gen (counter + 1) (hashmapUpdate eq map key f) := by
  unfold hashmapUpdate
  refine ⟨List.pairwise_map.2 (hs.keys.imp fun {a b} h => ?_),
    List.pairwise_map.2 ((hs.keys.and hs.stamps).imp_of_mem fun {a b} ha hb h => ?_), fun e he => ?_⟩
  · split_ifs <;> exact h
  · have ha' := hs.bounded a ha
    have hb' := hs.bounded b hb
    split_ifs with h1 h2 h2
    · have := heq.trans _ _ _ (by rw [heq.symm]; exact h1) h2
      rw [h.1] at this
      cases this
    · dsimp only
      rw [hf]
      omega
    · dsimp only
      rw [hf]
      omega
    · exact h.2
  · obtain ⟨x, hx, rfl⟩ := List.mem_map.1 he
    split_ifs
    · exact (hf _).le
    · exact (hs.bounded x hx).trans (Nat.le_succ _)

theorem hashmapLookup_update (key : K) (f : V → V) :
    hashmapLookup eq (hashmapUpdate eq map key f) key = (hashmapLookup eq map key).map f := by
  unfold hashmapLookup hashmapUpdate
  rw [List.find?_map]
  have hfind : map.find? ((fun entry => eq key entry.1) ∘ fun entry =>
      if eq key entry.1 = true then (entry.1, f entry.2) else entry) =
      map.find? fun entry => eq key entry.1 := by
    congr 1
    funext entry
    dsimp only [Function.comp]
    split_ifs <;> rfl
  rw [hfind]
  rcases h : map.find? (fun entry => eq key entry.1) with _ | e <;> rw [h]
  · rfl
  · have := List.find?_some h
    simp [this]

/-- The effect of one eviction pass: none at or under the bound, else the
oldest entries go down to three quarters of it. -/
def EvictionPass (gen : V → ℕ) (maxEntries : ℕ) (before after : List (K × V)) : Prop :=
  (before.length ≤ maxEntries → after = before) ∧
    (maxEntries < before.length →
      DropsOldest gen (before.length - maxEntries * 3 / 4) before after)

/-- A key the map does not hold is removed from nothing. -/
theorem hashmapRemove_of_lookup_eq_none {key : K} (h : hashmapLookup eq map key = none) :
    hashmapRemove eq map key = map := by
  rw [hashmapLookup, Option.map_eq_none', List.find?_eq_none] at h
  exact List.filter_eq_self.2 fun e he => by simpa using h e he

/-- A lookup in what is left of a map after an insertion finds the inserted
entry, if it was kept. -/
theorem hashmapLookup_of_sublist_insert (heq : KeyEquiv eq) {key : K} {value : V}
    {l : List (K × V)} (hsub : l.Sublist (hashmapInsert eq map key value)) (hmem : (key, value) ∈ l) :
    hashmapLookup eq l key = some value := by
  have hnotin : (key, value) ∉ hashmapRemove eq map key := fun h => by
    simpa [heq.refl] using (List.mem_filter.1 h).2
  cases hsub with
  | cons _ h => exact absurd (h.subset hmem) hnotin
  | cons₂ _ h => simp [hashmapLookup, heq.refl]

variable [BEq K] [LawfulBEq K] [BEq V] [LawfulBEq V]

/-- With keys pairwise unequal, `hashmap_remove` of an entry's key removes that
entry alone. -/
theorem hashmapRemove_eq_erase (heq : KeyEquiv eq) {map : List (K × V)}
    (hkeys : map.Pairwise fun a b => eq a.1 b.1 = false) {e : K × V} (he : e ∈ map) :
    hashmapRemove eq map e.1 = map.erase e := by
  induction map with
  | nil => cases he
  | cons x xs ih =>
      rw [List.pairwise_cons] at hkeys
      unfold hashmapRemove
      rw [List.filter_cons]
      by_cases hxe : x = e
      · subst hxe
        rw [heq.refl, Bool.not_true, if_neg Bool.false_ne_true, List.erase_cons_head]
        exact List.filter_eq_self.2 fun y hy => by rw [hkeys.1 y hy]; rfl
      · have he' : e ∈ xs := (List.mem_cons.1 he).resolve_left (Ne.symm hxe)
        rw [heq.symm, hkeys.1 e he', Bool.not_false, if_pos rfl,
          List.erase_cons_tail (by simpa using hxe)]
        exact congrArg _ (ih hkeys.2 he')

/-- `n` rounds of the eviction loop on a stamped map remove its `n` entries of
least stamp. -/
theorem evictOldest_dropsOldest (heq : KeyEquiv eq) :
    ∀ n (map : List (K × V)), Stamped eq gen counter map → n ≤ map.length →
      DropsOldest gen n map (evictOldest eq gen n map)
  | 0, map, _, _ => ⟨List.Sublist.refl _, rfl, fun x hx hnot => absurd hx hnot⟩
  | n + 1, map, hs, hn => by
      obtain ⟨o, ho⟩ : ∃ o, oldestEntry gen map = some o :=
        oldestEntry_isSome (List.ne_nil_of_length_pos (by omega))
      obtain ⟨hmem, hmin⟩ := oldestEntry_spec ho
      have hnodup := hs.nodup heq
      unfold evictOldest
      rw [ho]
      dsimp only
      rw [hashmapRemove_eq_erase heq hs.keys hmem]
      have hlen := List.length_erase_of_mem hmem
      obtain ⟨hsub, hlen', hold⟩ := evictOldest_dropsOldest heq n (map.erase o)
        (hs.sublist (List.erase_sublist _ _)) (by omega)
      refine ⟨hsub.trans (List.erase_sublist _ _), by omega, fun x hx hxr k hk => ?_⟩
      have hk' : k ∈ map.erase o := hsub.subset hk
      by_cases hxo : x = o
      · subst hxo
        have hkx : k ≠ x := fun h => hnodup.not_mem_erase (h ▸ hk')
        exact lt_of_le_of_ne (hmin k ((List.erase_sublist _ _).subset hk'))
          (hs.stamp_ne hmem ((List.erase_sublist _ _).subset hk') hkx.symm)
      · exact hold x ((hnodup.mem_erase_iff).2 ⟨hxo, hx⟩) hxr k hk

/-- One pass of `split_cache_evict_if_needed` or `font_cache_evict_if_needed`
on a stamped map of `c > maxEntries` entries removes exactly its
`c - maxEntries * 3 / 4` entries of least stamp. -/
theorem evictIfNeeded_dropsOldest (heq : KeyEquiv eq) (hs : Stamped eq gen counter map)
    {maxEntries : ℕ} (hc : maxEntries < map.length) :
    DropsOldest gen (map.length - maxEntries * 3 / 4) map (evictIfNeeded eq gen maxEntries map) := by
  unfold evictIfNeeded
  rw [if_neg (by omega)]
  exact evictOldest_dropsOldest heq _ _ hs (Nat.sub_le _ _)

theorem evictionPass_evictIfNeeded (heq : KeyEquiv eq) (hs : Stamped eq gen counter map)
    (maxEntries : ℕ) : EvictionPass gen maxEntries map (evictIfNeeded eq gen maxEntries map) :=
  ⟨evictIfNeeded_of_le, evictIfNeeded_dropsOldest heq hs⟩

theorem length_evictIfNeeded_le (heq : KeyEquiv eq) (hs : Stamped eq gen counter map)
    (maxEntries : ℕ) : (evictIfNeeded eq gen maxEntries map).length ≤ maxEntries := by
  by_cases hc : map.length ≤ maxEntries
  · rwa [evictIfNeeded_of_le hc]
  · have := (evictIfNeeded_dropsOldest heq hs (not_le.1 hc)).2.1
    omega

/-- An entry inserted with the next generation survives the pass that follows,
and a lookup of its key finds it. -/
theorem hashmapLookup_evictIfNeeded_insert (heq : KeyEquiv eq) (hs : Stamped eq gen counter map)
    {maxEntries : ℕ} (hmax : 2 ≤ maxEntries) (key : K) {value : V} (hv : gen value = counter + 1) :
    hashmapLookup eq (evictIfNeeded eq gen maxEntries (hashmapInsert eq map key value)) key =
      some value := by
  have hs' := hs.insert key hv
  have hkeep : (key, value) ∈ evictIfNeeded eq gen maxEntries (hashmapInsert eq map key value) := by
    by_cases hc : (hashmapInsert eq map key value).length ≤ maxEntries
    · rw [evictIfNeeded_of_le hc]
      exact List.mem_cons_self _ _
    · refine (evictIfNeeded_dropsOldest heq hs' (not_le.1 hc)).mem_of_newest (by omega)
        (List.mem_cons_self _ _) fun k hk hne => ?_
      have hk' : k ∈ hashmapRemove eq map key := (List.mem_cons.1 hk).resolve_left hne
      have := hs.bounded k ((List.filter_sublist _).subset hk')
      show gen k.2 < gen value
      omega
  exact hashmapLookup_of_sublist_insert heq (evictIfNeeded_sublist _ _) hkeep

end Stamped

/-! ### The two caches -/

theorem fcKeyEq_comm (a b : FontKey) : fcKeyEq a b = fcKeyEq b a := by
  obtain ⟨family, size, weight, flags, _ | x⟩ := a <;> obtain ⟨family', size', weight', flags', _ | y⟩ := b <;>
    simp only [fcKeyEq, Html.strcaseEq_comm, eq_comm]

theorem keyEquiv_fcKeyEq : KeyEquiv fcKeyEq where
  refl := fcKeyEq_self
  symm := fcKeyEq_comm
  trans a b c hab hbc := by
    obtain ⟨family, size, weight, flags, face⟩ := a
    obtain ⟨family', size', weight', flags', face'⟩ := b
    obtain ⟨family'', size'', weight'', flags'', face''⟩ := c
    simp only [fcKeyEq, Bool.and_eq_true, decide_eq_true_eq] at hab hbc ⊢
    obtain ⟨⟨⟨⟨rfl, rfl⟩, rfl⟩, rfl⟩, hab⟩ := hab
    obtain ⟨⟨⟨⟨rfl, rfl⟩, rfl⟩, rfl⟩, hbc⟩ := hbc
    refine ⟨⟨⟨⟨rfl, rfl⟩, rfl⟩, rfl⟩, ?_⟩
    rcases face with _ | x <;> rcases face' with _ | y <;> rcases face'' with _ | z <;>
      simp only [reduceCtorEq] at hab hbc ⊢
    exact Html.strcaseEq_trans hab hbc

theorem keyEquiv_beq {K : Type} [BEq K] [LawfulBEq K] : KeyEquiv fun a b : K => a == b where
  refl _ := beq_self_eq_true _
  symm a b := Bool.eq_iff_iff.2 (by simp only [beq_iff_eq]; exact eq_comm)
  trans a b c hab hbc := by simp_all only [beq_iff_eq]

/-- Both entry-bounded caches are stamped and within their bounds. -/
structure CachesStamped (caches : TextCaches) : Prop where
  font : Stamped fcKeyEq (·.gen) caches.fontGen (caches.fontCache.getD [])
  split : Stamped (· == ·) (·.gen) caches.splitGen (caches.splitCache.getD [])
  fontBound : (caches.fontCache.getD []).length ≤ fontCacheMaxEntries
  splitBound : (caches.splitCache.getD []).length ≤ splitCacheMaxEntries

/-- Two states agree on the font and split caches and their counters. -/
def SameFontSplit (caches caches' : TextCaches) : Prop :=
  caches'.fontCache = caches.fontCache ∧ caches'.fontGen = caches.fontGen ∧
    caches'.splitCache = caches.splitCache ∧ caches'.splitGen = caches.splitGen

theorem CachesStamped.of_sameFontSplit {caches caches' : TextCaches} (hs : CachesStamped caches)
    (h : SameFontSplit caches caches') : CachesStamped caches' := by
  obtain ⟨hf, hfg, hsp, hsg⟩ := h
  exact ⟨hf ▸ hfg ▸ hs.font, hsp ▸ hsg ▸ hs.split, hf ▸ hs.fontBound, hsp ▸ hs.splitBound⟩

theorem cachesStamped_initial : CachesStamped .initial :=
  ⟨stamped_nil _, stamped_nil _, Nat.zero_le _, Nat.zero_le _⟩

section Calls

variable (p : Win32Platform) {caches : TextCaches}

/-- What one `get_cached_wide` can leave: the caches as they were, the string
cache created and nothing else, the entry it found re-stamped, or a converted
string inserted and the eviction loop run. -/
theorem getCachedWideAlloc_cases (alloc : WideAlloc) (bytes : List UInt8) (caches : TextCaches) :
    (getCachedWideAlloc p alloc bytes caches).2 = caches ∨
    (getCachedWideAlloc p alloc bytes caches).2 =
      { caches with wstrCache := some (caches.wstrCache.getD []) } ∨
    (∃ value, hashmapLookup (· == ·) (caches.wstrCache.getD []) bytes = some value ∧
      (getCachedWideAlloc p alloc bytes caches).2 = { caches with
        wstrCache := some (hashmapUpdate (· == ·) (caches.wstrCache.getD []) bytes
          fun v => { v with gen := caches.wstrGen + 1 }),
        wstrGen := caches.wstrGen + 1 }) ∨
    (∃ wide, hashmapLookup (· == ·) (caches.wstrCache.getD []) bytes = none ∧
      (getCachedWideAlloc p alloc bytes caches).2 = { caches with
        wstrCache := some (wstrCacheEvict ((caches.wstrCache.getD []).length + 1)
          (hashmapInsert (· == ·) (caches.wstrCache.getD []) bytes ⟨wide, 2 * wide.length, caches.wstrGen + 1⟩)
          (caches.wstrTotalBytes + 2 * wide.length)).1,
        wstrGen := caches.wstrGen + 1,
        wstrTotalBytes := (wstrCacheEvict ((caches.wstrCache.getD []).length + 1)
          (hashmapInsert (· == ·) (caches.wstrCache.getD []) bytes ⟨wide, 2 * wide.length, caches.wstrGen + 1⟩)
          (caches.wstrTotalBytes + 2 * wide.length)).2 }) := by
  unfold getCachedWideAlloc
  by_cases hb : bytes = []
  · exact .inl (by rw [if_pos hb])
  rw [if_neg hb]
  by_cases hc : (caches.wstrCache.isNone && !alloc.createOk) = true
  · exact .inl (by rw [if_pos hc])
  rw [if_neg hc]
  dsimp only
  rcases hashmapLookup (· == ·) (caches.wstrCache.getD []) bytes with _ | value
  · dsimp only
    by_cases hbuf : (!alloc.bufferOk) = true
    · exact .inr (.inl (by rw [if_pos hbuf]))
    rw [if_neg hbuf]
    rcases convertWide p bytes with _ | wide
    · exact .inr (.inl rfl)
    dsimp only
    by_cases hins : (!alloc.insertOk) = true
    · exact .inr (.inl (by rw [if_pos hins]))
    rw [if_neg hins]
    exact .inr (.inr (.inr ⟨wide, rfl, rfl⟩))
  · exact .inr (.inr (.inl ⟨value, rfl, rfl⟩))

/-- `get_cached_wide` touches only the string cache and its counters. -/
theorem getCachedWideAlloc_sameFontSplit (alloc : WideAlloc) (bytes : List UInt8) (caches : TextCaches) :
    SameFontSplit caches (getCachedWideAlloc p alloc bytes caches).2 := by
  rcases getCachedWideAlloc_cases p alloc bytes caches with h | h | ⟨_, -, h⟩ | ⟨_, -, h⟩ <;>
    rw [h] <;> exact ⟨rfl, rfl, rfl, rfl⟩

theorem getCachedFont_split (style : PlotFontStyle) (caches : TextCaches) :
    (getCachedFont p style caches).2.splitCache = caches.splitCache ∧
      (getCachedFont p style caches).2.splitGen = caches.splitGen := by
  unfold getCachedFont
  dsimp only
  split <;> exact ⟨rfl, rfl⟩

/-- What `get_cached_font` leaves in the font cache: the style's entry, with the
font it returns and the counter's new value, and on a miss the map after the
insertion as one eviction pass leaves it. -/
def FontCallEvicts (style : PlotFontStyle) (caches : TextCaches) : Prop :=
  hashmapLookup fcKeyEq ((getCachedFont p style caches).2.fontCache.getD []) (fontKey p style) =
      some ⟨(getCachedFont p style caches).1, (getCachedFont p style caches).2.fontGen⟩ ∧
    (hashmapLookup fcKeyEq (caches.fontCache.getD []) (fontKey p style) = none →
      EvictionPass (·.gen) fontCacheMaxEntries
        (hashmapInsert fcKeyEq (caches.fontCache.getD []) (fontKey p style)
          ⟨getFont p style, caches.fontGen + 1⟩)
        ((getCachedFont p style caches).2.fontCache.getD []))

theorem CachesStamped.getCachedFont (hs : CachesStamped caches) (style : PlotFontStyle) :
    CachesStamped (getCachedFont p style caches).2 ∧ FontCallEvicts p style caches := by
  unfold FontCallEvicts Windows.getCachedFont
  dsimp only
  split
  · rename_i value hv
    refine ⟨⟨?_, hs.split, ?_, hs.splitBound⟩, ?_, ?_⟩
    · dsimp only [Option.getD_some]
      exact hs.font.update keyEquiv_fcKeyEq _ fun _ => rfl
    · simpa [hashmapUpdate] using hs.fontBound
    · rw [Option.getD_some, hashmapLookup_update, hv]
      rfl
    · rw [hv]
      intro h
      cases h
  · rename_i hv
    have hins := hs.font.insert (fontKey p style) (show (⟨getFont p style, caches.fontGen + 1⟩ : FontValue).gen =
      caches.fontGen + 1 from rfl)
    refine ⟨⟨(hins.sublist (evictIfNeeded_sublist _ _)), hs.split,
      length_evictIfNeeded_le keyEquiv_fcKeyEq hins _, hs.splitBound⟩, ?_, fun _ => ?_⟩
    · exact hashmapLookup_evictIfNeeded_insert keyEquiv_fcKeyEq hs.font (by decide) _ rfl
    · exact evictionPass_evictIfNeeded keyEquiv_fcKeyEq hins _

theorem CachesStamped.getCachedWideAlloc (hs : CachesStamped caches) (alloc : WideAlloc)
    (bytes : List UInt8) : CachesStamped (getCachedWideAlloc p alloc bytes caches).2 :=
  hs.of_sameFontSplit (getCachedWideAlloc_sameFontSplit p alloc bytes caches)

theorem CachesStamped.win32FontWidth (hs : CachesStamped caches) (style : PlotFontStyle)
    (bytes : List UInt8) (len : ℕ) : CachesStamped (win32FontWidth p style bytes len caches).2 := by
  unfold Windows.win32FontWidth
  split_ifs
  · exact hs
  · exact (hs.getCachedFont p style).1.getCachedWideAlloc p _ _

theorem CachesStamped.win32FontPosition (hs : CachesStamped caches) (style : PlotFontStyle)
    (bytes : List UInt8) (len : ℕ) (x : Int) :
    CachesStamped (win32FontPosition p style bytes len x caches).2 := by
  unfold Windows.win32FontPosition
  split_ifs
  · exact hs
  · exact (hs.getCachedFont p style).1.getCachedWideAlloc p _ _

/-- The split cache and its counter, untouched. -/
def SameSplit (caches caches' : TextCaches) : Prop :=
  caches'.splitCache = caches.splitCache ∧ caches'.splitGen = caches.splitGen

theorem SameSplit.trans {caches caches' caches'' : TextCaches} (h : SameSplit caches caches')
    (h' : SameSplit caches' caches'') : SameSplit caches caches'' :=
  ⟨h'.1.trans h.1, h'.2.trans h.2⟩

theorem sameSplit_measure (style : PlotFontStyle) (bytes : List UInt8) (len : ℕ) (caches : TextCaches) :
    SameSplit caches (win32FontWidth p style bytes len caches).2 ∧
      ∀ x, SameSplit caches (win32FontPosition p style bytes len x caches).2 := by
  have hfont := getCachedFont_split p style caches
  have hwide := getCachedWideAlloc_sameFontSplit p .succeed (bytes.take len) (getCachedFont p style caches).2
  have hsame : SameSplit caches (getCachedWide p (bytes.take len) (getCachedFont p style caches).2).2 :=
    ⟨hwide.2.2.1.trans hfont.1, hwide.2.2.2.trans hfont.2⟩
  refine ⟨?_, fun x => ?_⟩
  · unfold win32FontWidth
    split_ifs
    exacts [⟨rfl, rfl⟩, hsame]
  · unfold win32FontPosition
    split_ifs
    exacts [⟨rfl, rfl⟩, hsame]

/-- The uncached branch keeps whatever its measuring calls keep. -/
theorem splitUncached_inv {σ : Type} (Inv : σ → Prop) {position : σ → Except NsError (ℕ × Int) × σ}
    {width : ℕ → σ → Except NsError Int × σ} (hpos : ∀ s, Inv s → Inv (position s).2)
    (hwidth : ∀ offset s, Inv s → Inv (width offset s).2) (bytes : List UInt8) (length : ℕ) {s : σ}
    (hs : Inv s) : Inv (splitUncached position width bytes length s).2 := by
  have h1 := hpos s hs
  unfold splitUncached
  rcases hp : position s with ⟨_ | ⟨cOff, actualX⟩, s1⟩ <;> rw [hp] at h1
  · exact h1
  · dsimp only
    split_ifs
    · exact h1
    · have h2 := hwidth (splitOffset bytes length cOff) s1 h1
      rcases hw : width (splitOffset bytes length cOff) s1 with ⟨_ | _, s2⟩ <;> rw [hw] at h2 <;>
        exact h2

/-- What `win32_font_split` leaves in the split cache when it answers
`NSERROR_OK`: the entry of its key, with the answer and the counter's new
value, and on a miss the map after the insertion as one eviction pass leaves
it. -/
def SplitCallEvicts (style : PlotFontStyle) (bytes : List UInt8) (length : ℕ) (x : Int)
    (caches : TextCaches) : Prop :=
  ∀ offset actualX, (win32FontSplit p style bytes length x caches).1 = ⟨.ok, some offset, some actualX⟩ →
    hashmapLookup (· == ·) ((win32FontSplit p style bytes length x caches).2.splitCache.getD [])
        (splitKey style bytes length x) =
      some ⟨offset, actualX, (win32FontSplit p style bytes length x caches).2.splitGen⟩ ∧
    (hashmapLookup (· == ·) (caches.splitCache.getD []) (splitKey style bytes length x) = none →
      EvictionPass (·.gen) splitCacheMaxEntries
        (hashmapInsert (· == ·) (caches.splitCache.getD []) (splitKey style bytes length x)
          ⟨offset, actualX, caches.splitGen + 1⟩)
        ((win32FontSplit p style bytes length x caches).2.splitCache.getD []))

theorem CachesStamped.win32FontSplit (hs : CachesStamped caches) (style : PlotFontStyle)
    (bytes : List UInt8) (length : ℕ) (x : Int) :
    CachesStamped (win32FontSplit p style bytes length x caches).2 ∧
      SplitCallEvicts p style bytes length x caches := by
  unfold SplitCallEvicts
  have hs0 : CachesStamped { caches with splitCache := some (caches.splitCache.getD []) } :=
    ⟨hs.font, hs.split, hs.fontBound, hs.splitBound⟩
  have hr := splitUncached_inv (CachesStamped) (fun s h => h.win32FontPosition p style bytes length x)
    (fun offset s h => h.win32FontWidth p style bytes offset) bytes length hs0
  rcases win32FontSplit_cases p style bytes length x caches with
    ⟨value, hv, hsplit⟩ | ⟨-, offset, actualX, caches1, hu, hsplit⟩ | ⟨-, hnot, hsplit⟩ <;> rw [hsplit]
  · refine ⟨⟨hs.font, ?_, hs.fontBound, ?_⟩, fun offset actualX hres => ⟨?_, fun h => ?_⟩⟩
    · dsimp only [Option.getD_some]
      exact hs.split.update keyEquiv_beq _ fun _ => rfl
    · simpa [hashmapUpdate] using hs.splitBound
    · simp only [SplitResult.mk.injEq, Option.some.injEq, true_and] at hres
      obtain ⟨rfl, rfl⟩ := hres
      rw [Option.getD_some, hashmapLookup_update, hv]
      rfl
    · rw [hv] at h
      cases h
  · have hframe := splitUncached_inv (SameSplit { caches with splitCache := some (caches.splitCache.getD []) })
      (fun s h => h.trans ((sameSplit_measure p style bytes length s).2 x))
      (fun offset s h => h.trans (sameSplit_measure p style bytes offset s).1) bytes length ⟨rfl, rfl⟩
    unfold win32FontSplitUncached at hr hframe hu
    rw [hu] at hr hframe
    obtain ⟨hsc, hsg⟩ := hframe
    have hstamped := hr.split
    dsimp only at hsc hsg ⊢
    rw [hsc, hsg, Option.getD_some] at hstamped ⊢
    have hins := hstamped.insert (splitKey style bytes length x)
      (show (⟨offset, actualX, caches.splitGen + 1⟩ : SplitValue).gen = caches.splitGen + 1 from rfl)
    refine ⟨⟨hr.font, ?_, hr.fontBound, ?_⟩, fun o a hres => ?_⟩
    · exact hins.sublist (evictIfNeeded_sublist _ _)
    · exact length_evictIfNeeded_le keyEquiv_beq hins _
    · simp only [SplitResult.mk.injEq, Option.some.injEq, true_and] at hres
      obtain ⟨rfl, rfl⟩ := hres
      exact ⟨hashmapLookup_evictIfNeeded_insert keyEquiv_beq hstamped (by decide) _ rfl,
        fun _ => evictionPass_evictIfNeeded keyEquiv_beq hins _⟩
  · exact ⟨hr, fun o a hres => (hnot o a hres).elim⟩

theorem CachesStamped.flush (hs : CachesStamped caches) : CachesStamped (win32FontCachesFlush caches) :=
  ⟨hs.font, stamped_nil _, hs.fontBound, Nat.zero_le _⟩

end Calls

/-! ### Runs -/

/-- A call that touches the entry-bounded caches. -/
inductive CacheCall
  | split (style : PlotFontStyle) (bytes : List UInt8) (length : ℕ) (x : Int)
  | font (style : PlotFontStyle)
  | flush
  deriving DecidableEq, Repr

/-- The caches after one call. -/
def CacheCall.step (p : Win32Platform) : CacheCall → TextCaches → TextCaches
  | .split style bytes length x, caches => (win32FontSplit p style bytes length x caches).2
  | .font style, caches => (getCachedFont p style caches).2
  | .flush, caches => win32FontCachesFlush caches

/-- The caches after a sequence of calls. -/
def cacheRun (p : Win32Platform) (calls : List CacheCall) (caches : TextCaches) : TextCaches :=
  calls.foldl (fun caches call => call.step p caches) caches

section Runs

variable {p : Win32Platform} {caches : TextCaches}

theorem CachesStamped.step (hs : CachesStamped caches) (call : CacheCall) :
    CachesStamped (call.step p caches) := by
  cases call with
  | split style bytes length x => exact (hs.win32FontSplit p style bytes length x).1
  | font style => exact (hs.getCachedFont p style).1
  | flush => exact hs.flush

theorem CachesStamped.cacheRun (hs : CachesStamped caches) (calls : List CacheCall) :
    CachesStamped (cacheRun p calls caches) := by
  induction calls generalizing caches with
  | nil => exact hs
  | cons call calls ih => exact ih (hs.step call)

/-- The text calls keep both caches stamped and bounded too. -/
theorem CachesStamped.textRun (hs : CachesStamped caches) (calls : List TextCall) :
    CachesStamped (textRun p calls caches) := by
  induction calls generalizing caches with
  | nil => exact hs
  | cons call calls ih =>
      refine ih ?_
      cases call with
      | width style bytes len => exact hs.win32FontWidth p style bytes len
      | position style bytes len x => exact hs.win32FontPosition p style bytes len x
      | split style bytes length x => exact (hs.win32FontSplit p style bytes length x).1
      | loadData familyName data =>
          show CachesStamped (htmlFontFaceLoadData p familyName data caches).2
          unfold htmlFontFaceLoadData
          split
          · split_ifs
            exacts [hs, hs.flush, hs]
          · exact hs

end Runs

/-- Over every run of `win32_font_split`, `get_cached_font` and
`win32_font_caches_flush` calls both caches keep pairwise distinct stamps no
greater than their counters and stay within their bounds; from every such
state a `get_cached_font` or a successful `win32_font_split` keeps the entry
it stamps, and its eviction pass removes exactly the entries of least stamp
down to three quarters of the bound. -/
theorem cacheRun_eviction (p : Win32Platform) :
    (∀ calls, CachesStamped (cacheRun p calls .initial)) ∧
    (∀ caches, CachesStamped caches → ∀ style, FontCallEvicts p style caches) ∧
    (∀ caches, CachesStamped caches → ∀ style bytes length x,
      SplitCallEvicts p style bytes length x caches) :=
  ⟨fun calls => cachesStamped_initial.cacheRun calls,
    fun _ hs style => (hs.getCachedFont p style).2,
    fun _ hs style bytes length x => (hs.win32FontSplit p style bytes length x).2⟩

end Windows
end Neosurf
