import Neosurf.Win32WideCache
import Neosurf.FontFaceAllocation

/-!
# Web fonts on the win32 front end

`font_fetch_callback` (`src/unnamed/part_006`) hands downloaded data to the win32
`html_font_face_load_data` (`src/unnamed/part_005`), which adds the font to the process and
flushes the split and string caches, while the layout calls measure through the caches.
`Win32Fonts` joins the font-face state, the caches and the added font files; its face part
runs as `FontFaceLoading` with that loader (`win32FontsRun_faces`), and the invariants of
both parts hold along every run (`win32FontsRun_inv`).
-/

namespace Neosurf

namespace Html

/-- `html_font_face_process` reads `loaded_fonts` only through `html_font_face_is_available`. -/
theorem htmlFontFaceProcess_setLoaded (call : FontFaceCall) (st : FontFaceState)
    (loadedFonts accepted : List String)
    (ha : ∀ f, htmlFontFaceIsAvailable { st with loadedFonts := loadedFonts, accepted := accepted } f =
      htmlFontFaceIsAvailable st f) :
    htmlFontFaceProcess call { st with loadedFonts := loadedFonts, accepted := accepted } =
      { htmlFontFaceProcess call st with loadedFonts := loadedFonts, accepted := accepted } := by
  unfold htmlFontFaceProcess
  rcases call.family with _ | familyName
  · rfl
  · dsimp only
    rw [ha familyName]
    split_ifs
    exacts [rfl, rfl, rfl, tryFontSources_setLoaded _ _ _ _ _]

/-- Two states with the same slots, pending fetches and available families get the same
slots and pending fetches from `html_font_face_process`. -/
theorem htmlFontFaceProcess_congr {st st' : FontFaceState} (hd : st.fontDownloads = st'.fontDownloads)
    (hp : st.pending = st'.pending) (ha : ∀ f, htmlFontFaceIsAvailable st f = htmlFontFaceIsAvailable st' f)
    (call : FontFaceCall) :
    htmlFontFaceProcess call st' =
      { htmlFontFaceProcess call st with loadedFonts := st'.loadedFonts, accepted := st'.accepted } := by
  obtain ⟨d, l, pe, a⟩ := st
  obtain ⟨d', l', pe', a'⟩ := st'
  dsimp only at hd hp
  subst hd hp
  exact htmlFontFaceProcess_setLoaded call ⟨d, l, pe, a⟩ l' a' fun f => (ha f).symm

end Html

namespace Windows

open Html

/-- The platform once the font files `resources` were added to the process: a family exists
when it did before or an added file holds it. -/
def Win32Platform.withFonts (p : Win32Platform) (fileFamilies : List UInt8 → List String)
    (resources : List (List UInt8)) : Win32Platform :=
  { p with familyExists := fun name =>
      p.familyExists name || resources.any fun data => (fileFamilies data).contains name }

/-- The checks of the win32 `html_font_face_load_data` on a named font's data: at least one
byte, at most 50 MiB, and `AddFontMemResourceEx` takes it. -/
def fontDataAccepted (p : Win32Platform) (bytes : List UInt8) : Bool :=
  0 < bytes.length && bytes.length ≤ 50 * 1024 * 1024 && p.addFontMemResourceEx bytes

/-- The font-face state, the text caches, and the font files the process added. -/
structure Win32Fonts where
  faces : FontFaceState
  caches : TextCaches
  resources : List (List UInt8)
  deriving DecidableEq, Repr

def Win32Fonts.initial : Win32Fonts := ⟨.initial, .initial, []⟩

/-- An event: a font-face event, or a call of `win32_layout_table`. -/
inductive FontsEvent
  | face (event : FontEvent)
  | width (style : PlotFontStyle) (bytes : List UInt8) (len : ℕ)
  | position (style : PlotFontStyle) (bytes : List UInt8) (len : ℕ) (x : Int)
  | split (style : PlotFontStyle) (bytes : List UInt8) (length : ℕ) (x : Int)
  deriving DecidableEq, Repr

/-- The font-face event of an event, if it is one. -/
def FontsEvent.face? : FontsEvent → Option FontEvent
  | .face event => some event
  | _ => none

/-- The layout call measures with a style that lists no font families. -/
def FontsEvent.FamilyLess : FontsEvent → Prop
  | .face _ => True
  | .width style _ _ | .position style _ _ _ | .split style _ _ _ => style.families = []

section Step

variable (p : Win32Platform) (fileFamilies : List UInt8 → List String)

/-- The platform the text layer measures on. -/
def Win32Fonts.platform (st : Win32Fonts) : Win32Platform :=
  p.withFonts fileFamilies st.resources

/-- The win32 `html_font_face_load_data` on the whole state: its answer, and the state after
it, which holds the data among the process's fonts when the answer is `NSERROR_OK`. -/
def Win32Fonts.loadData (familyName : Option String) (bytes : List UInt8) (st : Win32Fonts) :
    NsError × Win32Fonts :=
  match htmlFontFaceLoadData (st.platform p fileFamilies) familyName (some bytes) st.caches with
  | (.ok, caches) => (.ok, { st with caches := caches, resources := bytes :: st.resources })
  | (error, caches) => (error, { st with caches := caches })

/-- The `data != NULL && size > 0` block of `font_fetch_callback` on `DONE`, for the family
name of the download's slot.  `html_font_face_load_data` answers `NSERROR_BAD_PARAMETER`
for a `NULL` name, so `mark_font_loaded` always gets one. -/
def loadFetched (familyName : Option String) (data : Option (List UInt8)) (st : Win32Fonts) :
    Win32Fonts :=
  match data with
  | some bytes =>
      if bytes ≠ [] then
        let loaded := st.loadData p fileFamilies familyName bytes
        if loaded.1 = .ok then
          match familyName with
          | some name =>
              { loaded.2 with faces := { loaded.2.faces with
                  loadedFonts := markFontLoaded loaded.2.faces.loadedFonts name,
                  accepted := name :: loaded.2.faces.accepted } }
          | none => loaded.2
        else loaded.2
      else st
  | none => st

/-- The clean-up of both callback branches. -/
def Win32Fonts.release (slot : ℕ) (st : Win32Fonts) : Win32Fonts :=
  { st with faces := releaseDownload slot st.faces }

/-- `font_fetch_callback` on `LLCACHE_EVENT_DONE`. -/
def fontFetchDone (slot : ℕ) (data : Option (List UInt8)) (st : Win32Fonts) : Win32Fonts :=
  (loadFetched p fileFamilies (st.faces.fontDownloads.getD slot .free).familyName data st).release slot

/-- One event. -/
def Win32Fonts.step (st : Win32Fonts) : FontsEvent → Win32Fonts
  | .face (.process call) => { st with faces := htmlFontFaceProcess call st.faces }
  | .face (.done slot data) => fontFetchDone p fileFamilies slot data st
  | .face (.error slot) => st.release slot
  | .width style bytes len =>
      { st with caches := (win32FontWidth (st.platform p fileFamilies) style bytes len st.caches).2 }
  | .position style bytes len x =>
      { st with caches :=
          (win32FontPosition (st.platform p fileFamilies) style bytes len x st.caches).2 }
  | .split style bytes length x =>
      { st with caches :=
          (win32FontSplit (st.platform p fileFamilies) style bytes length x st.caches).2 }

/-- The state after a sequence of events. -/
def win32FontsRun (events : List FontsEvent) (st : Win32Fonts) : Win32Fonts :=
  events.foldl (Win32Fonts.step p fileFamilies) st

end Step

/-! ### What one event can do -/

section Cases

variable (p : Win32Platform) (fileFamilies : List UInt8 → List String)

theorem fontDataAccepted_ne_nil {q : Win32Platform} {bytes : List UInt8}
    (h : fontDataAccepted q bytes = true) : bytes ≠ [] := by
  simp only [fontDataAccepted, Bool.and_eq_true, decide_eq_true_eq] at h
  exact List.ne_nil_of_length_pos h.1.1

/-- What the win32 `html_font_face_load_data` does with data: take a named font's data that
passes the checks and flush the caches, or answer an error and change nothing. -/
theorem htmlFontFaceLoadData_cases (q : Win32Platform) (familyName : Option String)
    (bytes : List UInt8) (caches : TextCaches) :
    (familyName.isSome ∧ fontDataAccepted q bytes ∧
      htmlFontFaceLoadData q familyName (some bytes) caches = (.ok, win32FontCachesFlush caches)) ∨
    (¬(familyName.isSome ∧ fontDataAccepted q bytes) ∧
      ∃ error, error ≠ .ok ∧ htmlFontFaceLoadData q familyName (some bytes) caches = (error, caches)) := by
  rcases familyName with _ | name
  · exact .inr ⟨by simp, .badParameter, by decide, rfl⟩
  · unfold htmlFontFaceLoadData fontDataAccepted
    dsimp only
    by_cases hlen : bytes.length = 0 ∨ 50 * 1024 * 1024 < bytes.length
    · rw [if_pos hlen]
      refine .inr ⟨?_, .badParameter, by decide, rfl⟩
      simp only [Option.isSome_some, Bool.and_eq_true, decide_eq_true_eq, true_and, not_and]
      omega
    · rw [if_neg hlen]
      cases hadd : q.addFontMemResourceEx bytes
      · exact .inr ⟨by simp [hadd], .invalid, by decide, rfl⟩
      · exact .inl ⟨rfl, by simp only [Bool.and_true, Bool.and_eq_true, decide_eq_true_eq]; omega, rfl⟩

theorem Win32Fonts.loadData_cases (familyName : Option String) (bytes : List UInt8) (st : Win32Fonts) :
    (familyName.isSome ∧ fontDataAccepted p bytes ∧
      st.loadData p fileFamilies familyName bytes =
        (.ok, { st with caches := win32FontCachesFlush st.caches, resources := bytes :: st.resources })) ∨
    (¬(familyName.isSome ∧ fontDataAccepted p bytes) ∧
      ∃ error, error ≠ .ok ∧ st.loadData p fileFamilies familyName bytes = (error, st)) := by
  unfold Win32Fonts.loadData
  rcases htmlFontFaceLoadData_cases (st.platform p fileFamilies) familyName bytes st.caches with
    ⟨hname, hacc, h⟩ | ⟨hnot, error, herr, h⟩ <;> rw [h]
  · exact .inl ⟨hname, hacc, rfl⟩
  · refine .inr ⟨hnot, error, herr, ?_⟩
    cases error <;> first | exact absurd rfl herr | rfl

theorem loadFetched_of_accepted {familyName : String} {bytes : List UInt8}
    (hacc : fontDataAccepted p bytes = true) (st : Win32Fonts) :
    loadFetched p fileFamilies (some familyName) (some bytes) st =
      ⟨{ st.faces with loadedFonts := markFontLoaded st.faces.loadedFonts familyName,
                       accepted := familyName :: st.faces.accepted },
        win32FontCachesFlush st.caches, bytes :: st.resources⟩ := by
  rcases st.loadData_cases p fileFamilies (some familyName) bytes with ⟨-, -, h⟩ | ⟨hnot, -⟩
  · simp only [loadFetched, ne_eq, fontDataAccepted_ne_nil hacc, not_false_eq_true, if_true, h]
  · exact absurd ⟨rfl, hacc⟩ hnot

theorem loadFetched_of_not {familyName : Option String} {data : Option (List UInt8)}
    (h : ∀ name bytes, familyName = some name → data = some bytes → fontDataAccepted p bytes = false)
    (st : Win32Fonts) : loadFetched p fileFamilies familyName data st = st := by
  rcases data with _ | bytes
  · rfl
  unfold loadFetched
  dsimp only
  by_cases hne : bytes ≠ []
  · rw [if_pos hne]
    rcases st.loadData_cases p fileFamilies familyName bytes with ⟨hname, hacc, -⟩ | ⟨-, error, herr, heq⟩
    · obtain ⟨name, rfl⟩ := Option.isSome_iff_exists.mp hname
      rw [h name bytes rfl rfl] at hacc
      cases hacc
    · rw [heq, if_neg herr]
  · rw [if_neg hne]

/-- What the `DONE` block can do: mark a named family whose data the loader took, or
change nothing. -/
theorem loadFetched_cases (familyName : Option String) (data : Option (List UInt8)) (st : Win32Fonts) :
    (∃ name bytes, familyName = some name ∧ data = some bytes ∧ fontDataAccepted p bytes = true ∧
      loadFetched p fileFamilies familyName data st =
        ⟨{ st.faces with loadedFonts := markFontLoaded st.faces.loadedFonts name,
                         accepted := name :: st.faces.accepted },
          win32FontCachesFlush st.caches, bytes :: st.resources⟩) ∨
    ((∀ name bytes, familyName = some name → data = some bytes → fontDataAccepted p bytes = false) ∧
      loadFetched p fileFamilies familyName data st = st) := by
  by_cases h : ∃ name bytes, familyName = some name ∧ data = some bytes ∧ fontDataAccepted p bytes = true
  · obtain ⟨name, bytes, rfl, rfl, hacc⟩ := h
    exact .inl ⟨name, bytes, rfl, rfl, hacc, loadFetched_of_accepted p fileFamilies hacc st⟩
  · have hnot : ∀ name bytes, familyName = some name → data = some bytes →
        fontDataAccepted p bytes = false := fun name bytes hn hd => by
      simpa using fun hacc => h ⟨name, bytes, hn, hd, hacc⟩
    exact .inr ⟨hnot, loadFetched_of_not p fileFamilies hnot st⟩

theorem loadFetched_faces (slot : ℕ) (data : Option (List UInt8)) (st : Win32Fonts) :
    (loadFetched p fileFamilies (st.faces.fontDownloads.getD slot .free).familyName data st).faces =
      loadDownloaded (fun _ => fontDataAccepted p) slot data st.faces := by
  unfold loadDownloaded
  rcases (st.faces.fontDownloads.getD slot .free).familyName with _ | name <;>
    rcases data with _ | bytes
  · rfl
  · rw [loadFetched_of_not p fileFamilies (fun _ _ h _ => Option.noConfusion h) st]
  · rfl
  · dsimp only
    by_cases hacc : fontDataAccepted p bytes = true
    · rw [loadFetched_of_accepted p fileFamilies hacc, if_pos ⟨fontDataAccepted_ne_nil hacc, hacc⟩]
    · rw [loadFetched_of_not p fileFamilies (fun _ _ hn hd => by cases hn; cases hd; simpa using hacc),
        if_neg fun h => hacc h.2]

/-- The face part of one event is the step of `FontFaceLoading` whose loader is the win32
`html_font_face_load_data`. -/
theorem Win32Fonts.step_faces (st : Win32Fonts) (event : FontsEvent) :
    (st.step p fileFamilies event).faces =
      match event.face? with
      | some ev => st.faces.step (fun _ => fontDataAccepted p) ev
      | none => st.faces := by
  cases event with
  | face ev =>
      cases ev with
      | done slot data =>
          exact congrArg (releaseDownload slot) (loadFetched_faces p fileFamilies slot data st)
      | _ => rfl
  | _ => rfl

/-- What one event does to the caches and the added font files: nothing, a flush with one
file more, or the cache side of a layout call on the current platform. -/
theorem Win32Fonts.step_cases (st : Win32Fonts) (event : FontsEvent) :
    ((st.step p fileFamilies event).caches = st.caches ∧
      (st.step p fileFamilies event).resources = st.resources) ∨
    (∃ bytes, (st.step p fileFamilies event).caches = win32FontCachesFlush st.caches ∧
      (st.step p fileFamilies event).resources = bytes :: st.resources) ∨
    (∃ call : TextCall,
      (st.step p fileFamilies event).caches = call.step (st.platform p fileFamilies) st.caches ∧
      (st.step p fileFamilies event).resources = st.resources ∧
      (event.FamilyLess → call.FamilyLess)) := by
  cases event with
  | face ev =>
      cases ev with
      | done slot data =>
          rcases loadFetched_cases p fileFamilies (st.faces.fontDownloads.getD slot .free).familyName
            data st with ⟨_, bytes, _, _, _, h⟩ | ⟨-, h⟩
          · exact .inr (.inl ⟨bytes, (congrArg Win32Fonts.caches h :),
              (congrArg Win32Fonts.resources h :)⟩)
          · exact .inl ⟨(congrArg Win32Fonts.caches h :), (congrArg Win32Fonts.resources h :)⟩
      | _ => exact .inl ⟨rfl, rfl⟩
  | width style bytes len => exact .inr (.inr ⟨.width style bytes len, rfl, rfl, id⟩)
  | position style bytes len x => exact .inr (.inr ⟨.position style bytes len x, rfl, rfl, id⟩)
  | split style bytes length x => exact .inr (.inr ⟨.split style bytes length x, rfl, rfl, id⟩)

end Cases

/-! ### The face part refines the loader model, and the invariants -/

section Invariants

variable (p : Win32Platform) (fileFamilies : List UInt8 → List String)

/-- The face part of every run is the run of `FontFaceLoading`, with the win32
`html_font_face_load_data` as its loader, over the run's font-face events. -/
theorem win32FontsRun_faces (events : List FontsEvent) (st : Win32Fonts) :
    (win32FontsRun p fileFamilies events st).faces =
      (events.filterMap FontsEvent.face?).foldl (FontFaceState.step fun _ => fontDataAccepted p)
        st.faces := by
  induction events generalizing st with
  | nil => rfl
  | cons event events ih =>
      rw [win32FontsRun, List.foldl_cons, ← win32FontsRun, ih, Win32Fonts.step_faces,
        List.filterMap_cons]
      rcases event.face? with _ | ev <;> rfl

/-- The invariants of the three parts. -/
structure Win32Fonts.Inv (st : Win32Fonts) : Prop where
  faces : FontFaceInv st.faces
  wstr : WstrAccounting st.caches
  stamped : CachesStamped st.caches

theorem Win32Fonts.Inv.step {st : Win32Fonts} (h : st.Inv) (event : FontsEvent) :
    (st.step p fileFamilies event).Inv := by
  refine ⟨?_, ?_, ?_⟩
  · rw [Win32Fonts.step_faces]
    rcases event.face? with _ | ev
    exacts [h.faces, h.faces.step _ ev]
  all_goals
    rcases Win32Fonts.step_cases p fileFamilies st event with ⟨hc, -⟩ | ⟨_, hc, -⟩ | ⟨call, hc, -, -⟩ <;>
      rw [hc]
  exacts [h.wstr, h.wstr.flush, h.wstr.textRun [call], h.stamped, h.stamped.flush,
    h.stamped.textRun [call]]

/-- Over every run, whatever the order of `@font-face` processing, download completions and
layout calls: the slots of `font_downloads` agree with the pending fetches,
`html_font_face_is_available` answers for the families whose data was loaded and
`loaded_fonts` has no two names equal up to case; `wstr_total_bytes` is the sum of the string
cache's entries and within its bound; and the font and split caches keep distinct stamps
below their counters and stay within their bounds. -/
theorem win32FontsRun_inv (events : List FontsEvent) :
    (win32FontsRun p fileFamilies events .initial).Inv := by
  suffices ∀ st : Win32Fonts, st.Inv → (win32FontsRun p fileFamilies events st).Inv from
    this _ ⟨initial_fontFaceInv, wstrAccounting_initial, cachesStamped_initial⟩
  induction events with
  | nil => exact fun _ h => h
  | cons event events ih => exact fun st h => ih _ (h.step p fileFamilies event)

end Invariants

/-! ### Which families are available -/

section Availability

variable (p : Win32Platform) (fileFamilies : List UInt8 → List String)

/-- One event makes a name available exactly when it completes a download whose slot names a
family equal to it up to case, with data the win32 loader takes. -/
theorem Win32Fonts.available_step (st : Win32Fonts) (event : FontsEvent) (f : String) :
    htmlFontFaceIsAvailable (st.step p fileFamilies event).faces f = true ↔
      htmlFontFaceIsAvailable st.faces f = true ∨
      ∃ slot bytes name, event = .face (.done slot (some bytes)) ∧
        (st.faces.fontDownloads.getD slot .free).familyName = some name ∧
        fontDataAccepted p bytes = true ∧ strcaseEq name f = true := by
  by_cases hload : ∃ slot bytes name, event = .face (.done slot (some bytes)) ∧
      (st.faces.fontDownloads.getD slot .free).familyName = some name ∧ fontDataAccepted p bytes = true
  · obtain ⟨slot, bytes, name, rfl, hname, hacc⟩ := hload
    have hloaded : (st.step p fileFamilies (.face (.done slot (some bytes)))).faces.loadedFonts =
        markFontLoaded st.faces.loadedFonts name := by
      have h : loadFetched p fileFamilies (some name) (some bytes) st = _ :=
        loadFetched_of_accepted p fileFamilies hacc st
      rw [← hname] at h
      exact (congrArg (fun st : Win32Fonts => st.faces.loadedFonts) h :)
    rw [htmlFontFaceIsAvailable, hloaded, any_markFontLoaded, Bool.or_eq_true, ← htmlFontFaceIsAvailable]
    refine or_congr_right ⟨fun hf => ⟨slot, bytes, name, rfl, hname, hacc, hf⟩, ?_⟩
    rintro ⟨slot', bytes', name', heq, hname', -, hf⟩
    simp only [FontsEvent.face.injEq, FontEvent.done.injEq, Option.some.injEq] at heq
    obtain ⟨rfl, rfl⟩ := heq
    rw [hname, Option.some.injEq] at hname'
    exact hname' ▸ hf
  · have hloaded : (st.step p fileFamilies event).faces.loadedFonts = st.faces.loadedFonts := by
      cases event with
      | face ev =>
          cases ev with
          | process call => exact htmlFontFaceProcess_loadedFonts call st.faces
          | done slot data =>
              refine (congrArg (fun st : Win32Fonts => st.faces.loadedFonts)
                (loadFetched_of_not p fileFamilies ?_ st) :)
              rintro name bytes hn rfl
              simpa using fun hacc => hload ⟨slot, bytes, name, rfl, hn, hacc⟩
          | error slot => rfl
      | _ => rfl
    rw [htmlFontFaceIsAvailable, hloaded, ← htmlFontFaceIsAvailable]
    exact ⟨.inl, fun h => h.elim id fun ⟨slot, bytes, name, he, hn, hacc, _⟩ =>
      absurd ⟨slot, bytes, name, he, hn, hacc⟩ hload⟩

/-- Along a run from any state, a name becomes available exactly at a completed download
whose slot, in the state the run had reached, names a family equal to it up to case, with
data the win32 loader takes. -/
theorem available_win32FontsRun (events : List FontsEvent) (st : Win32Fonts) (f : String) :
    htmlFontFaceIsAvailable (win32FontsRun p fileFamilies events st).faces f = true ↔
      htmlFontFaceIsAvailable st.faces f = true ∨
      ∃ pre slot bytes post name, events = pre ++ .face (.done slot (some bytes)) :: post ∧
        ((win32FontsRun p fileFamilies pre st).faces.fontDownloads.getD slot .free).familyName =
          some name ∧
        fontDataAccepted p bytes = true ∧ strcaseEq name f = true := by
  rw [win32FontsRun, foldl_iff_exists _ (fun st => htmlFontFaceIsAvailable st.faces f = true) _
    fun st event => Win32Fonts.available_step p fileFamilies st event f]
  refine or_congr_right ⟨?_, ?_⟩
  · rintro ⟨pre, _, post, rfl, slot, bytes, name, rfl, h⟩
    exact ⟨pre, slot, bytes, post, name, rfl, h⟩
  · rintro ⟨pre, slot, bytes, post, name, rfl, h⟩
    exact ⟨pre, _, post, rfl, slot, bytes, name, rfl, h⟩

/-- Over every run from the start, `html_font_face_is_available` holds for a name exactly
when some `DONE` of the run completed a download whose slot named a family equal to it up to
case, with data of at least one byte and at most 50 MiB that `AddFontMemResourceEx` took. -/
theorem win32FontsRun_available_iff (events : List FontsEvent) (f : String) :
    htmlFontFaceIsAvailable (win32FontsRun p fileFamilies events .initial).faces f = true ↔
      ∃ pre slot bytes post name, events = pre ++ .face (.done slot (some bytes)) :: post ∧
        ((win32FontsRun p fileFamilies pre .initial).faces.fontDownloads.getD slot .free).familyName =
          some name ∧
        fontDataAccepted p bytes = true ∧ strcaseEq name f = true := by
  have hnone : htmlFontFaceIsAvailable Win32Fonts.initial.faces f ≠ true := by
    simp [htmlFontFaceIsAvailable, Win32Fonts.initial, FontFaceState.initial]
  rw [available_win32FontsRun, or_iff_right hnone]

end Availability

/-! ### Layout calls across font loads

Without a family list `select_face_name` never asks which families exist, so adding a font
file changes nothing the caches hold for such styles, and the flush of the split and string
caches leaves the font cache sound. -/

section Transparency

variable (p : Win32Platform) (fileFamilies : List UInt8 → List String)

theorem fontKey_withFonts {style : PlotFontStyle} (hstyle : style.families = [])
    (resources : List (List UInt8)) : fontKey (p.withFonts fileFamilies resources) style = fontKey p style := by
  obtain ⟨families, family, size, weight, flags⟩ := style
  dsimp only at hstyle
  subst hstyle
  rfl

theorem getFont_withFonts {style : PlotFontStyle} (hstyle : style.families = [])
    (resources : List (List UInt8)) : getFont (p.withFonts fileFamilies resources) style = getFont p style := by
  obtain ⟨families, family, size, weight, flags⟩ := style
  dsimp only at hstyle
  subst hstyle
  rfl

variable {p fileFamilies}

theorem CachesSound.flush_withFonts {resources resources' : List (List UInt8)} {caches : TextCaches}
    (hs : CachesSound (p.withFonts fileFamilies resources) caches) :
    CachesSound (p.withFonts fileFamilies resources') (win32FontCachesFlush caches) := by
  refine ⟨fun entry hentry => ?_, AllEntries.nil, AllEntries.nil⟩
  obtain ⟨style, hstyle, hkey, hfont⟩ := hs.font entry hentry
  refine ⟨style, hstyle, ?_, ?_⟩
  · rw [hkey, fontKey_withFonts p fileFamilies hstyle, fontKey_withFonts p fileFamilies hstyle]
  · rw [hfont, getFont_withFonts p fileFamilies hstyle, getFont_withFonts p fileFamilies hstyle]

theorem Win32Fonts.sound_step (hbound : ∀ str len fit, p.utf8BoundedByteLength str len fit ≤ len)
    {st : Win32Fonts} (hs : CachesSound (st.platform p fileFamilies) st.caches) {event : FontsEvent}
    (hevent : event.FamilyLess) :
    CachesSound ((st.step p fileFamilies event).platform p fileFamilies) (st.step p fileFamilies event).caches := by
  unfold Win32Fonts.platform at hs ⊢
  rcases Win32Fonts.step_cases p fileFamilies st event with
    ⟨hc, hr⟩ | ⟨_, hc, hr⟩ | ⟨call, hc, hr, hcall⟩ <;> rw [hc, hr]
  · exact hs
  · exact hs.flush_withFonts
  · exact hs.step (show ∀ str len fit,
      (p.withFonts fileFamilies st.resources).utf8BoundedByteLength str len fit ≤ len from hbound)
      (hcall hevent)

theorem Win32Fonts.sound_run (hbound : ∀ str len fit, p.utf8BoundedByteLength str len fit ≤ len)
    {events : List FontsEvent} (hevents : ∀ event ∈ events, event.FamilyLess) {st : Win32Fonts}
    (hs : CachesSound (st.platform p fileFamilies) st.caches) :
    CachesSound ((win32FontsRun p fileFamilies events st).platform p fileFamilies)
      (win32FontsRun p fileFamilies events st).caches := by
  induction events generalizing st with
  | nil => exact hs
  | cons event events ih =>
      exact ih (fun e he => hevents e (List.mem_cons_of_mem _ he))
        (Win32Fonts.sound_step hbound hs (hevents event (List.mem_cons_self _ _)))

variable (p fileFamilies)

/-- Every layout call with a style that lists no font families answers, from this state, as
measuring afresh on the current platform does. -/
def Win32Fonts.LayoutUncached (st : Win32Fonts) : Prop :=
  ∀ style : PlotFontStyle, style.families = [] → ∀ (bytes : List UInt8) (len : ℕ) (x : Int),
    (win32FontWidth (st.platform p fileFamilies) style bytes len st.caches).1 =
        measureWidth (st.platform p fileFamilies) style bytes len ∧
      (win32FontPosition (st.platform p fileFamilies) style bytes len x st.caches).1 =
        measurePosition (st.platform p fileFamilies) style bytes len x ∧
      (win32FontSplit (st.platform p fileFamilies) style bytes len x st.caches).1 =
        measureSplit (st.platform p fileFamilies) style bytes len x

/-- Over every run whose layout calls use styles that list no font families, interleaved in
any order with `@font-face` processing and downloads whose fonts the process adds, every
`width`, `position` and `split` with such a style answers as measuring afresh on the
platform with the fonts added so far. -/
theorem win32FontsRun_layoutUncached (hbound : ∀ str len fit, p.utf8BoundedByteLength str len fit ≤ len)
    {events : List FontsEvent} (hevents : ∀ event ∈ events, event.FamilyLess) :
    (win32FontsRun p fileFamilies events .initial).LayoutUncached p fileFamilies := by
  have hs := Win32Fonts.sound_run hbound hevents
    (show CachesSound (Win32Fonts.initial.platform p fileFamilies) Win32Fonts.initial.caches from
      cachesSound_initial _)
  have hbound' : ∀ str len fit, ((win32FontsRun p fileFamilies events .initial).platform p
      fileFamilies).utf8BoundedByteLength str len fit ≤ len := hbound
  intro style hstyle bytes len x
  exact ⟨(hs.win32FontWidth hstyle bytes len).1, (hs.win32FontPosition hstyle bytes len x).1,
    (hs.win32FontSplit hbound' hstyle bytes len x).1⟩

/-- `Inter` processed and its download completed, then a split with a style listing no
families. -/
def interLoadEvents : List FontsEvent :=
  [.face (.process interWoff), .face (.done 0 (some [1])), .split sansStyle abSpaceCd 5 40]

theorem win32FontsRun_layoutUncached_interLoadEvents :
    (∀ str len fit, interPlatform.utf8BoundedByteLength str len fit ≤ len) ∧
      (∀ event ∈ interLoadEvents, event.FamilyLess) ∧
      (win32FontsRun interPlatform (fun _ => ["Inter"]) interLoadEvents .initial).LayoutUncached
        interPlatform (fun _ => ["Inter"]) :=
  have hbound : ∀ str len fit, interPlatform.utf8BoundedByteLength str len fit ≤ len :=
    fun _ len _ => Nat.min_le_left len _
  have hevents : ∀ event ∈ interLoadEvents, event.FamilyLess := by
    simp only [interLoadEvents, List.mem_cons, List.mem_singleton, List.not_mem_nil, or_false]
    rintro _ (rfl | rfl | rfl) <;> trivial
  ⟨hbound, hevents, win32FontsRun_layoutUncached interPlatform _ hbound hevents⟩

end Transparency

/-! ### The order in which downloads complete

The `DONE` block of one download reads its own slot only, and of the state it writes what no
other slot's block reads, so two completions commute up to the order of `loaded_fonts` and of
the added font files. -/

section Order

variable (p : Win32Platform) (fileFamilies : List UInt8 → List String)

/-- Two states no later event tells apart: the same slots, pending fetches, caches and
platform, and the same answer of `html_font_face_is_available` for every name.  They may
differ in the order of `loaded_fonts`, in which of two names equal up to case it holds, and
in the order the font files were added. -/
structure Win32Fonts.Indistinguishable (st st' : Win32Fonts) : Prop where
  fontDownloads : st.faces.fontDownloads = st'.faces.fontDownloads
  pending : st.faces.pending = st'.faces.pending
  available : ∀ f, htmlFontFaceIsAvailable st.faces f = htmlFontFaceIsAvailable st'.faces f
  caches : st.caches = st'.caches
  platform : st.platform p fileFamilies = st'.platform p fileFamilies

theorem Win32Fonts.Indistinguishable.refl (st : Win32Fonts) : st.Indistinguishable p fileFamilies st :=
  ⟨rfl, rfl, fun _ => rfl, rfl, rfl⟩

theorem withFonts_cons_congr {resources resources' : List (List UInt8)}
    (h : p.withFonts fileFamilies resources = p.withFonts fileFamilies resources') (bytes : List UInt8) :
    p.withFonts fileFamilies (bytes :: resources) = p.withFonts fileFamilies (bytes :: resources') := by
  have hexists : ∀ name, (p.familyExists name || resources.any fun data => (fileFamilies data).contains name) =
      (p.familyExists name || resources'.any fun data => (fileFamilies data).contains name) :=
    congrFun (congrArg Win32Platform.familyExists h)
  unfold Win32Platform.withFonts
  congr 1
  funext name
  rw [List.any_cons, List.any_cons, Bool.or_left_comm, hexists name, Bool.or_left_comm]

theorem loadFetched_fontDownloads (familyName : Option String) (data : Option (List UInt8))
    (st : Win32Fonts) :
    (loadFetched p fileFamilies familyName data st).faces.fontDownloads = st.faces.fontDownloads := by
  rcases loadFetched_cases p fileFamilies familyName data st with ⟨_, _, -, -, -, h⟩ | ⟨-, h⟩ <;>
    rw [h]

/-- The `DONE` block and the release of another slot commute. -/
theorem loadFetched_release (familyName : Option String) (data : Option (List UInt8)) (slot : ℕ)
    (st : Win32Fonts) :
    loadFetched p fileFamilies familyName data (st.release slot) =
      (loadFetched p fileFamilies familyName data st).release slot := by
  rcases loadFetched_cases p fileFamilies familyName data st with
    ⟨name, bytes, rfl, rfl, hacc, h⟩ | ⟨hnot, h⟩ <;> rw [h]
  · rw [loadFetched_of_accepted p fileFamilies hacc]
    rfl
  · rw [loadFetched_of_not p fileFamilies hnot]

theorem Win32Fonts.release_comm {slot slot' : ℕ} (hne : slot ≠ slot') (st : Win32Fonts) :
    (st.release slot).release slot' = (st.release slot').release slot := by
  simp only [Win32Fonts.release, releaseDownload, List.set_comm _ _ _ hne, List.erase_comm]

theorem Win32Fonts.release_getD {slot slot' : ℕ} (hne : slot ≠ slot') (st : Win32Fonts) :
    (st.release slot).faces.fontDownloads.getD slot' .free = st.faces.fontDownloads.getD slot' .free := by
  simp only [Win32Fonts.release, releaseDownload, List.getD_eq_getElem?_getD, List.getElem?_set_ne hne]

/-- Two `DONE` blocks commute up to what no later event reads. -/
theorem loadFetched_comm (familyName familyName' : Option String) (data data' : Option (List UInt8))
    (st : Win32Fonts) :
    (loadFetched p fileFamilies familyName' data' (loadFetched p fileFamilies familyName data st)).Indistinguishable
      p fileFamilies (loadFetched p fileFamilies familyName data (loadFetched p fileFamilies familyName' data' st)) := by
  rcases loadFetched_cases p fileFamilies familyName data st with
    ⟨name, bytes, rfl, rfl, hacc, h⟩ | ⟨hnot, h⟩ <;>
  rcases loadFetched_cases p fileFamilies familyName' data' st with
    ⟨name', bytes', rfl, rfl, hacc', h'⟩ | ⟨hnot', h'⟩ <;> rw [h, h']
  · rw [loadFetched_of_accepted p fileFamilies hacc, loadFetched_of_accepted p fileFamilies hacc']
    refine ⟨rfl, rfl, fun f => ?_, rfl, ?_⟩
    · simp only [htmlFontFaceIsAvailable, any_markFontLoaded, Bool.or_right_comm]
    · unfold Win32Fonts.platform Win32Platform.withFonts
      congr 1
      funext name
      simp only [List.any_cons, Bool.or_left_comm]
  · rw [loadFetched_of_not p fileFamilies hnot', loadFetched_of_accepted p fileFamilies hacc]
    exact .refl p fileFamilies _
  all_goals
    rw [loadFetched_of_not p fileFamilies hnot]
    exact .refl p fileFamilies _

variable {p fileFamilies} {st st' : Win32Fonts}

theorem Win32Fonts.Indistinguishable.release (h : st.Indistinguishable p fileFamilies st') (slot : ℕ) :
    (st.release slot).Indistinguishable p fileFamilies (st'.release slot) :=
  ⟨by simp only [Win32Fonts.release, releaseDownload, h.fontDownloads],
    by simp only [Win32Fonts.release, releaseDownload, h.pending], h.available, h.caches, h.platform⟩

theorem Win32Fonts.Indistinguishable.loadFetched (h : st.Indistinguishable p fileFamilies st')
    (familyName : Option String) (data : Option (List UInt8)) :
    (Windows.loadFetched p fileFamilies familyName data st).Indistinguishable p fileFamilies
      (Windows.loadFetched p fileFamilies familyName data st') := by
  rcases loadFetched_cases p fileFamilies familyName data st with
    ⟨name, bytes, rfl, rfl, hacc, h1⟩ | ⟨hnot, h1⟩ <;> rw [h1]
  · rw [loadFetched_of_accepted p fileFamilies hacc]
    refine ⟨h.fontDownloads, h.pending, fun f => ?_, congrArg win32FontCachesFlush h.caches,
      withFonts_cons_congr p fileFamilies h.platform bytes⟩
    simp only [htmlFontFaceIsAvailable, any_markFontLoaded]
    rw [← htmlFontFaceIsAvailable, ← htmlFontFaceIsAvailable, h.available]
  · rwa [loadFetched_of_not p fileFamilies hnot]

/-- Indistinguishable states stay so after any event. -/
theorem Win32Fonts.Indistinguishable.step (h : st.Indistinguishable p fileFamilies st')
    (event : FontsEvent) :
    (st.step p fileFamilies event).Indistinguishable p fileFamilies (st'.step p fileFamilies event) := by
  have hplatform : st.platform p fileFamilies = st'.platform p fileFamilies := h.platform
  cases event with
  | face ev =>
      cases ev with
      | process call =>
          have hproc := htmlFontFaceProcess_congr h.fontDownloads h.pending h.available call
          refine ⟨?_, ?_, fun f => ?_, h.caches, h.platform⟩
          · exact (congrArg FontFaceState.fontDownloads hproc).symm
          · exact (congrArg FontFaceState.pending hproc).symm
          · simp only [Win32Fonts.step, htmlFontFaceIsAvailable, htmlFontFaceProcess_loadedFonts]
            exact h.available f
      | done slot data =>
          show ((Windows.loadFetched p fileFamilies (st.faces.fontDownloads.getD slot .free).familyName
            data st).release slot).Indistinguishable p fileFamilies ((Windows.loadFetched p fileFamilies
              (st'.faces.fontDownloads.getD slot .free).familyName data st').release slot)
          rw [h.fontDownloads]
          exact (h.loadFetched _ data).release slot
      | error slot => exact h.release slot
  | width | position | split =>
      exact ⟨h.fontDownloads, h.pending, h.available, by simp only [Win32Fonts.step, hplatform, h.caches],
        h.platform⟩

theorem Win32Fonts.Indistinguishable.run (h : st.Indistinguishable p fileFamilies st')
    (events : List FontsEvent) :
    (win32FontsRun p fileFamilies events st).Indistinguishable p fileFamilies
      (win32FontsRun p fileFamilies events st') := by
  induction events generalizing st st' with
  | nil => exact h
  | cons event events ih => exact ih (h.step event)

variable (p fileFamilies)

theorem fontFetchDone_comm {slot slot' : ℕ} (hne : slot ≠ slot') (data data' : Option (List UInt8))
    (st : Win32Fonts) :
    (fontFetchDone p fileFamilies slot' data' (fontFetchDone p fileFamilies slot data st)).Indistinguishable
      p fileFamilies (fontFetchDone p fileFamilies slot data (fontFetchDone p fileFamilies slot' data' st)) := by
  unfold fontFetchDone
  rw [Win32Fonts.release_getD hne, loadFetched_fontDownloads, Win32Fonts.release_getD hne.symm,
    loadFetched_fontDownloads, loadFetched_release, loadFetched_release,
    Win32Fonts.release_comm hne.symm]
  exact ((loadFetched_comm p fileFamilies _ _ data data' st).release slot).release slot'

/-- Two downloads of different slots that complete in either order, followed by any events,
leave states that no later event tells apart: the same slots, pending fetches, caches and
installed families, and the same available families. -/
theorem win32FontsRun_done_comm {slot slot' : ℕ} (hne : slot ≠ slot') (data data' : Option (List UInt8))
    (events : List FontsEvent) (st : Win32Fonts) :
    (win32FontsRun p fileFamilies (.face (.done slot data) :: .face (.done slot' data') :: events)
        st).Indistinguishable p fileFamilies
      (win32FontsRun p fileFamilies (.face (.done slot' data') :: .face (.done slot data) :: events) st) :=
  (fontFetchDone_comm p fileFamilies hne data data' st).run events

theorem win32FontsRun_done_comm_interLoadEvents :
    (0 : ℕ) ≠ 1 ∧
      (win32FontsRun interPlatform (fun _ => ["Inter"])
          (.face (.done 0 (some [1])) :: .face (.done 1 none) :: interLoadEvents) .initial).Indistinguishable
        interPlatform (fun _ => ["Inter"])
        (win32FontsRun interPlatform (fun _ => ["Inter"])
          (.face (.done 1 none) :: .face (.done 0 (some [1])) :: interLoadEvents) .initial) :=
  ⟨by decide, win32FontsRun_done_comm interPlatform _ (by decide) _ _ interLoadEvents .initial⟩

end Order

end Windows
end Neosurf
