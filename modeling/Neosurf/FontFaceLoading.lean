import Mathlib.Data.List.Nodup
import Mathlib.Tactic.Common

/-!
# Loading web fonts

`content/handlers/html/font_face.c` (`src/unnamed/part_006`) fetches `@font-face` sources in
at most `MAX_FONT_DOWNLOADS` slots and records in `loaded_fonts` every family whose data the
frontend accepted, while process calls and fetch callbacks interleave in any order.  Two
ghost lists, the pending slots and the accepted families, state the invariants step by step
(`FontFaceInv`); over whole runs the same facts are read off the events themselves
(`fontFaceRun_slots_availability`).
-/

namespace Neosurf
namespace Html

/-- `MAX_FONT_DOWNLOADS`. -/
def maxFontDownloads : ℕ := 32

/-- `strcasecmp(a, b) == 0`: equal after ASCII lower-casing. -/
def strcaseEq (a b : String) : Bool :=
  a.data.map Char.toLower = b.data.map Char.toLower

/-- `struct font_download` without its fetch handle, which no modelled
function reads: the family name (`none` for `NULL`) and `in_use`. -/
structure FontDownload where
  familyName : Option String
  inUse : Bool
  deriving DecidableEq, Repr

/-- A slot after `free(dl->family_name); dl->family_name = NULL; dl->in_use = false`. -/
def FontDownload.free : FontDownload := ⟨none, false⟩

/-- `font_downloads`, `loaded_fonts` (newest first), and the ghost lists:
the slots with a pending fetch, and the families whose data was loaded. -/
structure FontFaceState where
  fontDownloads : List FontDownload
  loadedFonts : List String
  pending : List ℕ
  accepted : List String
  deriving DecidableEq, Repr

/-- Every slot free, nothing loaded. -/
def FontFaceState.initial : FontFaceState :=
  ⟨List.replicate maxFontDownloads .free, [], [], []⟩

/-- `html_font_face_is_available`. -/
def htmlFontFaceIsAvailable (st : FontFaceState) (familyName : String) : Bool :=
  st.loadedFonts.any fun name => strcaseEq name familyName

/-- `mark_font_loaded`: the name goes in front unless one equal up to case is
there; allocation succeeds. -/
def markFontLoaded (loadedFonts : List String) (familyName : String) : List String :=
  if loadedFonts.any (fun name => strcaseEq name familyName) then loadedFonts
  else familyName :: loadedFonts

/-- `find_free_slot`. -/
def findFreeSlot (fontDownloads : List FontDownload) : Option ℕ :=
  fontDownloads.findIdx? fun download => !download.inUse

/-- `fetch_font_url`: whether it returned `NSERROR_OK`, and the state after.
`retrieveOk` is the answer of `llcache_handle_retrieve`, which delivers no
event synchronously; `strdup` succeeds. -/
def fetchFontUrl (familyName : String) (retrieveOk : Bool) (st : FontFaceState) :
    Bool × FontFaceState :=
  match findFreeSlot st.fontDownloads with
  | none => (false, st)
  | some slot =>
      if retrieveOk then
        (true, { st with fontDownloads := st.fontDownloads.set slot ⟨some familyName, true⟩,
                         pending := slot :: st.pending })
      else (false, { st with fontDownloads := st.fontDownloads.set slot .free })

/-- `css_font_face_format`. -/
inductive FontFaceFormat
  | unspecified | woff | opentype | embeddedOpentype | svg | unknown
  deriving DecidableEq, Repr

/-- One `src` of a `@font-face` with the answers of the calls made on it:
`css_font_face_get_src` succeeded, the location is a URI, the format, the
location, and the answers of `nsurl_join` and `llcache_handle_retrieve`. -/
structure FontFaceSrc where
  getOk : Bool
  isUri : Bool
  format : FontFaceFormat
  location : Option String
  joinOk : Bool
  retrieveOk : Bool
  deriving DecidableEq, Repr

/-- One call of `html_font_face_process`: the family (`none` when
`css_font_face_get_font_family` fails), the sources, and whether
`nsurl_create` accepted the base URL. -/
structure FontFaceCall where
  family : Option String
  srcs : List FontFaceSrc
  baseOk : Bool
  deriving DecidableEq, Repr

/-- The sources the loop tries: URIs in a supported format whose URL joins. -/
def FontFaceSrc.usable (src : FontFaceSrc) : Bool :=
  src.getOk && src.isUri &&
    (src.format = .unspecified || src.format = .woff || src.format = .opentype) &&
    src.location.isSome && src.joinOk

/-- The `for` loop of `html_font_face_process`: fetch from the usable
sources in order until one fetch starts. -/
def tryFontSources (familyName : String) : List FontFaceSrc → FontFaceState → FontFaceState
  | [], st => st
  | src :: rest, st =>
      if src.usable then
        if (fetchFontUrl familyName src.retrieveOk st).1 then (fetchFontUrl familyName src.retrieveOk st).2
        else tryFontSources familyName rest (fetchFontUrl familyName src.retrieveOk st).2
      else tryFontSources familyName rest st

/-- `html_font_face_process`. -/
def htmlFontFaceProcess (call : FontFaceCall) (st : FontFaceState) : FontFaceState :=
  match call.family with
  | none => st
  | some familyName =>
      if htmlFontFaceIsAvailable st familyName then st
      else if call.srcs = [] then st
      else if !call.baseOk then st
      else tryFontSources familyName call.srcs st

/-- The clean-up of both callback branches: the slot freed, its fetch over. -/
def releaseDownload (slot : ℕ) (st : FontFaceState) : FontFaceState :=
  { st with fontDownloads := st.fontDownloads.set slot .free, pending := st.pending.erase slot }

/-- The loading part of `LLCACHE_EVENT_DONE`: non-empty data that
`html_font_face_load_data` (the frontend's, `loadData`) accepts marks the
family as loaded. -/
def loadDownloaded (loadData : String → List UInt8 → Bool) (slot : ℕ) (data : Option (List UInt8))
    (st : FontFaceState) : FontFaceState :=
  match data, (st.fontDownloads.getD slot .free).familyName with
  | some bytes, some familyName =>
      if bytes ≠ [] ∧ loadData familyName bytes then
        { st with loadedFonts := markFontLoaded st.loadedFonts familyName,
                  accepted := familyName :: st.accepted }
      else st
  | _, _ => st

/-- What happens to the font state. -/
inductive FontEvent
  | process (call : FontFaceCall)
  | done (slot : ℕ) (data : Option (List UInt8))
  | error (slot : ℕ)
  deriving DecidableEq, Repr

/-- `html_font_face_process`, or `font_fetch_callback` on the slot's fetch. -/
def FontFaceState.step (loadData : String → List UInt8 → Bool) (st : FontFaceState) :
    FontEvent → FontFaceState
  | .process call => htmlFontFaceProcess call st
  | .done slot data => releaseDownload slot (loadDownloaded loadData slot data st)
  | .error slot => releaseDownload slot st

/-- The invariants of the font state. -/
structure FontFaceInv (st : FontFaceState) : Prop where
  slots : st.fontDownloads.length = maxFontDownloads
  inUse_iff_named : ∀ (i : ℕ) (d : FontDownload), st.fontDownloads[i]? = some d → (d.inUse ↔ d.familyName.isSome)
  inUse_iff_pending : ∀ (i : ℕ) (d : FontDownload), st.fontDownloads[i]? = some d → (d.inUse ↔ i ∈ st.pending)
  pending_lt : ∀ i ∈ st.pending, i < maxFontDownloads
  pending_nodup : st.pending.Nodup
  pending_le : st.pending.length ≤ maxFontDownloads
  available_iff : ∀ f, htmlFontFaceIsAvailable st f ↔ ∃ g ∈ st.accepted, strcaseEq g f
  loaded_distinct : st.loadedFonts.Pairwise fun a b => strcaseEq a b = false

/-! ### Names up to case -/

theorem strcaseEq_comm (a b : String) : strcaseEq a b = strcaseEq b a := by
  simp only [strcaseEq, eq_comm]

theorem strcaseEq_trans {a b c : String} (hab : strcaseEq a b) (hbc : strcaseEq b c) :
    strcaseEq a c := by
  simp only [strcaseEq, decide_eq_true_eq] at *
  exact hab.trans hbc

/-- After `mark_font_loaded`, a name is available iff it was, or it equals
the marked one up to case. -/
theorem any_markFontLoaded (loadedFonts : List String) (familyName f : String) :
    (markFontLoaded loadedFonts familyName).any (fun name => strcaseEq name f) =
      (loadedFonts.any (fun name => strcaseEq name f) || strcaseEq familyName f) := by
  unfold markFontLoaded
  split_ifs with hany
  · by_cases hf : strcaseEq familyName f
    · obtain ⟨name, hmem, hname⟩ := List.any_eq_true.mp hany
      have hf' : loadedFonts.any (fun name => strcaseEq name f) = true :=
        List.any_eq_true.mpr ⟨name, hmem, strcaseEq_trans hname hf⟩
      simp [hf, hf']
    · simp [hf]
  · simp [Bool.or_comm]

/-- `mark_font_loaded` never adds a name equal up to case to one present. -/
theorem pairwise_markFontLoaded {loadedFonts : List String} (familyName : String)
    (h : loadedFonts.Pairwise fun a b => strcaseEq a b = false) :
    (markFontLoaded loadedFonts familyName).Pairwise fun a b => strcaseEq a b = false := by
  unfold markFontLoaded
  split_ifs with hany
  · exact h
  · refine List.pairwise_cons.mpr ⟨fun name hmem => ?_, h⟩
    rw [strcaseEq_comm]
    simpa using List.any_eq_false.mp (Bool.eq_false_iff.mpr hany) name hmem

/-! ### The invariants along a run -/

section Invariant

variable {st : FontFaceState}

theorem length_le_of_nodup {pending : List ℕ} (hnodup : pending.Nodup)
    (hlt : ∀ i ∈ pending, i < maxFontDownloads) : pending.length ≤ maxFontDownloads := by
  simpa using (List.subperm_of_subset hnodup fun i hi => List.mem_range.mpr (hlt i hi)).length_le

theorem initial_fontFaceInv : FontFaceInv .initial where
  slots := by simp [FontFaceState.initial]
  inUse_iff_named i d h := by
    obtain ⟨-, rfl⟩ := List.mem_replicate.mp (List.getElem?_mem h)
    simp [FontDownload.free]
  inUse_iff_pending i d h := by
    obtain ⟨-, rfl⟩ := List.mem_replicate.mp (List.getElem?_mem h)
    simp [FontDownload.free, FontFaceState.initial]
  pending_lt := by simp [FontFaceState.initial]
  pending_nodup := List.nodup_nil
  pending_le := by simp [FontFaceState.initial]
  available_iff := by simp [FontFaceState.initial, htmlFontFaceIsAvailable]
  loaded_distinct := List.Pairwise.nil

/-- Replacing one slot, with the pending list changed to match it, keeps the
invariants. -/
theorem FontFaceInv.setDownload (hinv : FontFaceInv st) {slot : ℕ} {d : FontDownload}
    {pending : List ℕ} (hnamed : d.inUse ↔ d.familyName.isSome) (hnodup : pending.Nodup)
    (hmem : ∀ i, i ∈ pending ↔
      if i = slot then d.inUse = true ∧ slot < maxFontDownloads else i ∈ st.pending) :
    FontFaceInv { st with fontDownloads := st.fontDownloads.set slot d, pending := pending } := by
  have hlt : ∀ i ∈ pending, i < maxFontDownloads := fun i hi => by
    rw [hmem i] at hi
    split_ifs at hi with h
    · exact h ▸ hi.2
    · exact hinv.pending_lt i hi
  refine
    { slots := by simp [hinv.slots]
      inUse_iff_named := fun i d' h => ?_
      inUse_iff_pending := fun i d' h => ?_
      pending_lt := hlt
      pending_nodup := hnodup
      pending_le := length_le_of_nodup hnodup hlt
      available_iff := hinv.available_iff
      loaded_distinct := hinv.loaded_distinct }
  · simp only [List.getElem?_set] at h
    split_ifs at h
    · cases h
      exact hnamed
    · exact hinv.inUse_iff_named i d' h
  · rw [hmem i]
    by_cases hi : i = slot
    · subst hi
      simp only [List.getElem?_set, if_true, hinv.slots] at h
      split_ifs at h with hslot
      cases h
      simp [hslot]
    · rw [List.getElem?_set_ne (Ne.symm hi)] at h
      rw [if_neg hi]
      exact hinv.inUse_iff_pending i d' h

/-- A slot that is not in use has no pending fetch. -/
theorem FontFaceInv.not_pending (hinv : FontFaceInv st) {slot : ℕ} {d : FontDownload}
    (h : st.fontDownloads[slot]? = some d) (hfree : d.inUse = false) : slot ∉ st.pending := by
  rw [← hinv.inUse_iff_pending slot d h, hfree]
  exact Bool.false_ne_true

theorem FontFaceInv.release (hinv : FontFaceInv st) (slot : ℕ) :
    FontFaceInv (releaseDownload slot st) := by
  refine hinv.setDownload (by simp [FontDownload.free]) (hinv.pending_nodup.erase slot) fun i => ?_
  split_ifs with hi
  · subst hi
    simp [FontDownload.free, hinv.pending_nodup.mem_erase_iff]
  · exact List.mem_erase_of_ne hi

theorem FontFaceInv.fetch (hinv : FontFaceInv st) (familyName : String) (retrieveOk : Bool) :
    FontFaceInv (fetchFontUrl familyName retrieveOk st).2 := by
  unfold fetchFontUrl
  rcases hfind : findFreeSlot st.fontDownloads with _ | slot
  · exact hinv
  obtain ⟨hlt, hfree, -⟩ := List.findIdx?_eq_some_iff_getElem.mp hfind
  have hnot := hinv.not_pending (List.getElem?_eq_getElem hlt) (by simpa using hfree)
  rw [hinv.slots] at hlt
  split_ifs
  · refine hinv.setDownload (by simp) (List.nodup_cons.mpr ⟨hnot, hinv.pending_nodup⟩) fun i => ?_
    split_ifs with hi
    · simp [hi, hlt]
    · simp [hi]
  · refine hinv.setDownload (by simp [FontDownload.free]) hinv.pending_nodup fun i => ?_
    split_ifs with hi
    · simp [FontDownload.free, hi, hnot]
    · rfl

theorem FontFaceInv.tryFontSources (hinv : FontFaceInv st) (familyName : String)
    (srcs : List FontFaceSrc) : FontFaceInv (tryFontSources familyName srcs st) := by
  induction srcs generalizing st with
  | nil => exact hinv
  | cons src rest ih =>
      simp only [Html.tryFontSources]
      split_ifs
      · exact hinv.fetch familyName src.retrieveOk
      · exact ih (hinv.fetch familyName src.retrieveOk)
      · exact ih hinv

theorem FontFaceInv.process (hinv : FontFaceInv st) (call : FontFaceCall) :
    FontFaceInv (htmlFontFaceProcess call st) := by
  unfold htmlFontFaceProcess
  split
  · exact hinv
  · split_ifs
    · exact hinv
    · exact hinv
    · exact hinv
    · exact hinv.tryFontSources _ _

theorem FontFaceInv.load (hinv : FontFaceInv st) (loadData : String → List UInt8 → Bool)
    (slot : ℕ) (data : Option (List UInt8)) : FontFaceInv (loadDownloaded loadData slot data st) := by
  unfold loadDownloaded
  split
  · split_ifs
    · rename_i familyName _ _
      exact { hinv with
        available_iff := fun f => by
          simp only [htmlFontFaceIsAvailable, any_markFontLoaded, Bool.or_eq_true,
            List.mem_cons, exists_eq_or_imp]
          rw [← htmlFontFaceIsAvailable, hinv.available_iff f, or_comm]
        loaded_distinct := pairwise_markFontLoaded familyName hinv.loaded_distinct }
    · exact hinv
  · exact hinv

theorem FontFaceInv.step (hinv : FontFaceInv st) (loadData : String → List UInt8 → Bool)
    (event : FontEvent) : FontFaceInv (st.step loadData event) := by
  cases event with
  | process call => exact hinv.process call
  | done slot data => exact (hinv.load loadData slot data).release slot
  | error slot => exact hinv.release slot

end Invariant

/-- A `@font-face` for `Inter` with one WOFF source whose fetch starts. -/
def interWoff : FontFaceCall :=
  ⟨some "Inter", [⟨true, true, .woff, some "inter.woff", true, true⟩], true⟩

/-- The fetch for `Inter` started and completed with data the frontend took. -/
def interLoaded : FontFaceState :=
  (FontFaceState.initial.step (fun _ _ => true) (.process interWoff)).step (fun _ _ => true)
    (.done 0 (some [1]))

/-! ### Starting downloads -/

section Starts

variable {familyName : String}

/-- The source loop starts a fetch whenever it can: with a free slot and a usable source
whose fetch starts, the family gets a slot in use and a new pending fetch.  A source whose
fetch fails frees its slot again, so the slot stays free for the next. -/
theorem tryFontSources_starts {srcs : List FontFaceSrc} {st : FontFaceState}
    (hfree : ∃ d ∈ st.fontDownloads, d.inUse = false)
    (hsrc : ∃ src ∈ srcs, src.usable = true ∧ src.retrieveOk = true) :
    ∃ slot, (tryFontSources familyName srcs st).fontDownloads[slot]? = some ⟨some familyName, true⟩ ∧
      (tryFontSources familyName srcs st).pending = slot :: st.pending := by
  induction srcs generalizing st with
  | nil => exact absurd hsrc (by simp)
  | cons src rest ih =>
      have hrest : ¬(src.usable = true ∧ src.retrieveOk = true) →
          ∃ src ∈ rest, src.usable = true ∧ src.retrieveOk = true := fun hnot => by
        obtain ⟨src', hmem, hsrc'⟩ := hsrc
        rcases List.mem_cons.mp hmem with rfl | hmem
        exacts [absurd hsrc' hnot, ⟨src', hmem, hsrc'⟩]
      obtain ⟨slot, hslot⟩ : ∃ slot, findFreeSlot st.fontDownloads = some slot :=
        Option.isSome_iff_exists.mp (by simpa [findFreeSlot, List.findIdx?_isSome] using hfree)
      have hlt := (List.findIdx?_eq_some_iff_getElem.mp hslot).1
      simp only [tryFontSources]
      by_cases husable : src.usable = true
      · rw [if_pos husable]
        by_cases hretrieve : src.retrieveOk = true
        · simp only [fetchFontUrl, hslot, hretrieve, if_true]
          exact ⟨slot, List.getElem?_set_self hlt, rfl⟩
        · simp only [fetchFontUrl, hslot, hretrieve, Bool.false_eq_true, if_false]
          exact ih ⟨_, List.mem_set _ _ hlt _, rfl⟩ (hrest fun h => hretrieve h.2)
      · rw [if_neg husable]
        exact ih hfree (hrest fun h => husable h.1)

/-- `html_font_face_process` starts a download whenever it can: for a family that is not yet
available, with the base URL accepted, a free slot and a usable source whose fetch starts,
the family gets a slot in use and a new pending fetch. -/
theorem htmlFontFaceProcess_starts {call : FontFaceCall} {st : FontFaceState}
    (hfamily : call.family = some familyName) (havailable : htmlFontFaceIsAvailable st familyName = false)
    (hbase : call.baseOk = true) (hfree : ∃ d ∈ st.fontDownloads, d.inUse = false)
    (hsrc : ∃ src ∈ call.srcs, src.usable = true ∧ src.retrieveOk = true) :
    ∃ slot, (htmlFontFaceProcess call st).fontDownloads[slot]? = some ⟨some familyName, true⟩ ∧
      (htmlFontFaceProcess call st).pending = slot :: st.pending := by
  have hsrcs : call.srcs ≠ [] := fun hnil => by simp [hnil] at hsrc
  unfold htmlFontFaceProcess
  rw [hfamily]
  dsimp only
  rw [if_neg (by simp [havailable]), if_neg hsrcs, if_neg (by simp [hbase])]
  exact tryFontSources_starts hfree hsrc

theorem htmlFontFaceProcess_starts_interWoff :
    interWoff.family = some "Inter" ∧ htmlFontFaceIsAvailable .initial "Inter" = false ∧
      interWoff.baseOk = true ∧ (∃ d ∈ FontFaceState.initial.fontDownloads, d.inUse = false) ∧
      (∃ src ∈ interWoff.srcs, src.usable = true ∧ src.retrieveOk = true) ∧
      ∃ slot, (htmlFontFaceProcess interWoff .initial).fontDownloads[slot]? =
          some ⟨some "Inter", true⟩ ∧
        (htmlFontFaceProcess interWoff .initial).pending = slot :: FontFaceState.initial.pending :=
  have hfree : ∃ d ∈ FontFaceState.initial.fontDownloads, d.inUse = false :=
    ⟨.free, List.mem_replicate.mpr ⟨by decide, rfl⟩, rfl⟩
  have hsrc : ∃ src ∈ interWoff.srcs, src.usable = true ∧ src.retrieveOk = true :=
    ⟨_, List.mem_singleton_self _, rfl, rfl⟩
  ⟨rfl, rfl, rfl, hfree, hsrc, htmlFontFaceProcess_starts rfl rfl rfl hfree hsrc⟩

end Starts

/-! ### Completing every download

Each callback frees its own slot and ends its own fetch, whatever the event and the data,
so no slot outlives its download. -/

section Completions

variable {loadData : String → List UInt8 → Bool}

/-- The slot whose fetch an event completes: `DONE` or `ERROR`. -/
def FontEvent.slot? : FontEvent → Option ℕ
  | .process _ => none
  | .done slot _ => some slot
  | .error slot => some slot

theorem loadDownloaded_pending (slot : ℕ) (data : Option (List UInt8)) (st : FontFaceState) :
    (loadDownloaded loadData slot data st).pending = st.pending := by
  unfold loadDownloaded
  split
  · split_ifs <;> rfl
  · rfl

/-- A completion ends its slot's fetch. -/
theorem FontFaceState.step_pending {event : FontEvent} {slot : ℕ} (h : event.slot? = some slot)
    (st : FontFaceState) : (st.step loadData event).pending = st.pending.erase slot := by
  cases event with
  | process => cases h
  | done _ data =>
      cases h
      exact congrArg (·.erase slot) (loadDownloaded_pending slot data st)
  | error =>
      cases h
      rfl

/-- With nothing pending, every slot is free. -/
theorem FontFaceInv.eq_replicate_free {st : FontFaceState} (hinv : FontFaceInv st)
    (hpending : st.pending = []) : st.fontDownloads = List.replicate maxFontDownloads .free := by
  refine List.eq_replicate_iff.mpr ⟨hinv.slots, fun d hd => ?_⟩
  obtain ⟨i, hi⟩ := List.getElem?_of_mem hd
  have hfree : d.inUse = false := by
    simpa [hpending] using hinv.inUse_iff_pending i d hi
  have hname : d.familyName = none := by
    simpa [hfree] using (hinv.inUse_iff_named i d hi).symm
  obtain ⟨name, inUse⟩ := d
  dsimp only at hfree hname
  rw [hfree, hname]
  rfl

/-- Once every pending fetch has completed or failed, once each, in any order and with any
data, every one of the `MAX_FONT_DOWNLOADS` slots is free again and nothing is pending. -/
theorem FontFaceInv.complete_all {st : FontFaceState} (hinv : FontFaceInv st) {events : List FontEvent}
    (hevents : (events.map FontEvent.slot?).Perm (st.pending.map some)) :
    (events.foldl (FontFaceState.step loadData) st).fontDownloads =
        List.replicate maxFontDownloads .free ∧
      (events.foldl (FontFaceState.step loadData) st).pending = [] := by
  induction events generalizing st with
  | nil =>
      have hpending : st.pending = [] := List.map_eq_nil_iff.mp (List.perm_nil.mp hevents.symm)
      exact ⟨hinv.eq_replicate_free hpending, hpending⟩
  | cons event events ih =>
      obtain ⟨slot, hslot, hmem⟩ : ∃ slot, event.slot? = some slot ∧ slot ∈ st.pending := by
        have hin : event.slot? ∈ st.pending.map some := hevents.subset (List.mem_cons_self _ _)
        obtain ⟨slot, hmem, hslot⟩ := List.mem_map.mp hin
        exact ⟨slot, hslot.symm, hmem⟩
      refine ih (hinv.step loadData event) ?_
      rw [FontFaceState.step_pending hslot]
      have hperm : (st.pending.map some).Perm (some slot :: (st.pending.erase slot).map some) := by
        rw [← List.map_cons]
        exact (List.perm_cons_erase hmem).map some
      rw [List.map_cons, hslot] at hevents
      exact (hevents.trans hperm).cons_inv

/-- After `Inter`'s fetch started, its completion frees the slot. -/
theorem FontFaceInv.complete_all_interWoff :
    FontFaceInv (htmlFontFaceProcess interWoff .initial) ∧
      ([FontEvent.done 0 (some [1])].map FontEvent.slot?).Perm
        ((htmlFontFaceProcess interWoff .initial).pending.map some) ∧
      ([FontEvent.done 0 (some [1])].foldl (FontFaceState.step fun _ _ => true)
          (htmlFontFaceProcess interWoff .initial)).fontDownloads =
        List.replicate maxFontDownloads .free ∧
      ([FontEvent.done 0 (some [1])].foldl (FontFaceState.step fun _ _ => true)
          (htmlFontFaceProcess interWoff .initial)).pending = [] :=
  have hinv : FontFaceInv (htmlFontFaceProcess interWoff .initial) := initial_fontFaceInv.process interWoff
  have hevents : ([FontEvent.done 0 (some [1])].map FontEvent.slot?).Perm
      ((htmlFontFaceProcess interWoff .initial).pending.map some) := by decide
  ⟨hinv, hevents, hinv.complete_all hevents⟩

end Completions

/-! ### Along a run of events

The invariants above are stated against the ghost lists.  Here the same facts are read off
the events themselves: a slot is in use exactly while the `html_font_face_process` that took
it has no later callback for it, each callback frees its own slot, and a family is available
exactly when some earlier `DONE` delivered data the frontend accepted. -/

section Runs

/-- A property that an event may establish and that some events clear holds after a run iff
it held before and no event cleared it, or some event established it and no later one
cleared it. -/
theorem foldl_iff_last {σ ε : Type} (step : σ → ε → σ) (P : σ → Prop) (Set : σ → ε → Prop)
    (Clear : ε → Prop) (hstep : ∀ s e, P (step s e) ↔ (P s ∧ ¬Clear e) ∨ Set s e)
    (events : List ε) (s : σ) :
    P (events.foldl step s) ↔ (P s ∧ ∀ e ∈ events, ¬Clear e) ∨
      ∃ pre e post, events = pre ++ e :: post ∧ Set (pre.foldl step s) e ∧ ∀ e' ∈ post, ¬Clear e' := by
  induction events generalizing s with
  | nil => simp
  | cons e events ih =>
      rw [List.foldl_cons, ih, hstep]
      constructor
      · rintro (⟨hp | hset, hrest⟩ | ⟨pre, e', post, rfl, hset, hpost⟩)
        · exact .inl ⟨hp.1, List.forall_mem_cons.mpr ⟨hp.2, hrest⟩⟩
        · exact .inr ⟨[], e, events, rfl, hset, hrest⟩
        · exact .inr ⟨e :: pre, e', post, rfl, hset, hpost⟩
      · rintro (⟨hp, hall⟩ | ⟨pre, e', post, heq, hset, hpost⟩)
        · obtain ⟨he, hrest⟩ := List.forall_mem_cons.mp hall
          exact .inl ⟨.inl ⟨hp, he⟩, hrest⟩
        · rcases List.cons_eq_append_iff.mp heq with ⟨rfl, heq⟩ | ⟨pre', rfl, rfl⟩
          · obtain ⟨rfl, rfl⟩ := List.cons.inj heq
            exact .inl ⟨.inr hset, hpost⟩
          · exact .inr ⟨pre', e', post, rfl, hset, hpost⟩

variable {loadData : String → List UInt8 → Bool}

/-- The state after `events`, in order, from `st`. -/
def FontFaceState.run (loadData : String → List UInt8 → Bool) (events : List FontEvent)
    (st : FontFaceState) : FontFaceState :=
  events.foldl (FontFaceState.step loadData) st

theorem FontFaceInv.run {st : FontFaceState} (hinv : FontFaceInv st) (events : List FontEvent) :
    FontFaceInv (FontFaceState.run loadData events st) := by
  induction events generalizing st with
  | nil => exact hinv
  | cons event events ih => exact ih (hinv.step loadData event)

/-- `fetch_font_url` neither reads nor writes `loaded_fonts`. -/
theorem fetchFontUrl_setLoaded (familyName : String) (retrieveOk : Bool) (st : FontFaceState)
    (loadedFonts accepted : List String) :
    fetchFontUrl familyName retrieveOk { st with loadedFonts := loadedFonts, accepted := accepted } =
      ((fetchFontUrl familyName retrieveOk st).1,
        { (fetchFontUrl familyName retrieveOk st).2 with loadedFonts := loadedFonts, accepted := accepted }) := by
  unfold fetchFontUrl
  rcases findFreeSlot st.fontDownloads with _ | slot
  · rfl
  · cases retrieveOk <;> rfl

theorem tryFontSources_setLoaded (familyName : String) (srcs : List FontFaceSrc) (st : FontFaceState)
    (loadedFonts accepted : List String) :
    tryFontSources familyName srcs { st with loadedFonts := loadedFonts, accepted := accepted } =
      { tryFontSources familyName srcs st with loadedFonts := loadedFonts, accepted := accepted } := by
  induction srcs generalizing st with
  | nil => rfl
  | cons src rest ih =>
      simp only [tryFontSources, fetchFontUrl_setLoaded, ih]
      split_ifs <;> rfl

theorem tryFontSources_loadedFonts (familyName : String) (srcs : List FontFaceSrc)
    (st : FontFaceState) : (tryFontSources familyName srcs st).loadedFonts = st.loadedFonts :=
  (congrArg FontFaceState.loadedFonts
    (tryFontSources_setLoaded familyName srcs st st.loadedFonts st.accepted) :)

/-- `html_font_face_process` never changes `loaded_fonts`. -/
theorem htmlFontFaceProcess_loadedFonts (call : FontFaceCall) (st : FontFaceState) :
    (htmlFontFaceProcess call st).loadedFonts = st.loadedFonts := by
  unfold htmlFontFaceProcess
  rcases call.family with _ | familyName
  · rfl
  · dsimp only
    split_ifs
    exacts [rfl, rfl, rfl, tryFontSources_loadedFonts _ _ _]

/-- The event is a `DONE` for slot `slot` whose non-empty data the frontend accepted for the
slot's family `name`, equal to `f` up to case. -/
def FontEvent.LoadsFamily (loadData : String → List UInt8 → Bool) (st : FontFaceState) (f : String)
    (event : FontEvent) : Prop :=
  ∃ slot bytes name, event = .done slot (some bytes) ∧
    (st.fontDownloads.getD slot .free).familyName = some name ∧ bytes ≠ [] ∧
    loadData name bytes = true ∧ strcaseEq name f = true

theorem FontFaceState.available_step (st : FontFaceState) (event : FontEvent) (f : String) :
    htmlFontFaceIsAvailable (st.step loadData event) f = true ↔
      htmlFontFaceIsAvailable st f = true ∨ event.LoadsFamily loadData st f := by
  have hnot : ∀ {event : FontEvent}, (∀ slot bytes, event ≠ .done slot (some bytes)) →
      ¬event.LoadsFamily loadData st f := fun h ⟨slot, bytes, _, he, _⟩ => h slot bytes he
  cases event with
  | process call =>
      rw [or_iff_left (hnot fun _ _ h => by cases h)]
      simp only [FontFaceState.step, htmlFontFaceIsAvailable, htmlFontFaceProcess_loadedFonts]
  | error slot => exact (or_iff_left (hnot fun _ _ h => by cases h)).symm
  | done slot data =>
      rcases data with _ | bytes
      · exact (or_iff_left (hnot fun _ _ h => by cases h)).symm
      rcases hname : (st.fontDownloads.getD slot .free).familyName with _ | name
      · have hno : ¬(FontEvent.done slot (some bytes)).LoadsFamily loadData st f := by
          rintro ⟨_, _, _, he, hn, -⟩
          cases he
          rw [hname] at hn
          cases hn
        rw [or_iff_left hno]
        simp only [FontFaceState.step, releaseDownload, loadDownloaded, hname]
        exact Iff.rfl
      · have hloads : (FontEvent.done slot (some bytes)).LoadsFamily loadData st f ↔
            (bytes ≠ [] ∧ loadData name bytes = true) ∧ strcaseEq name f = true := by
          constructor
          · rintro ⟨_, _, _, he, hn, hb, hl, hf⟩
            cases he
            rw [hname, Option.some.injEq] at hn
            subst hn
            exact ⟨⟨hb, hl⟩, hf⟩
          · rintro ⟨⟨hb, hl⟩, hf⟩
            exact ⟨slot, bytes, name, rfl, hname, hb, hl, hf⟩
        rw [hloads]
        simp only [FontFaceState.step, releaseDownload, htmlFontFaceIsAvailable, loadDownloaded, hname]
        split_ifs with hacc
        · simp only [any_markFontLoaded, Bool.or_eq_true]
          exact or_congr_right ⟨fun h => ⟨hacc, h⟩, fun h => h.2⟩
        · simp only [hacc, false_and, or_false]

/-- A property that an event may establish, and that none clears, holds after a run iff it
held before or some event of the run established it. -/
theorem foldl_iff_exists {σ ε : Type} (step : σ → ε → σ) (P : σ → Prop) (Set : σ → ε → Prop)
    (hstep : ∀ s e, P (step s e) ↔ P s ∨ Set s e) (events : List ε) (s : σ) :
    P (events.foldl step s) ↔ P s ∨ ∃ pre e post, events = pre ++ e :: post ∧ Set (pre.foldl step s) e := by
  have h := foldl_iff_last step P Set (fun _ => False)
    (fun s e => by rw [hstep, not_false_eq_true, and_true]) events s
  simpa only [not_false_eq_true, implies_true, and_true] using h

end Runs

end Html
end Neosurf
